import Xerv.Arena.File
import Xerv.Lib.Machine

/-!
# Arena files after a crash

The operating system keeps the mapping of a process that dies, so the data of every write is in
the file. What is lost is the position: no write and no flush brings it to the header, and
the arena that is opened next takes it from there.
-/

namespace Xerv.Arena
open Xerv.Lib

inductive Handle where
  | arena
  | writer
  deriving DecidableEq

inductive ArenaOp where
  | writeBytes (handle : Handle) (bytes : Bytes) (flushFails : Bool)
  | flush (handle : Handle) (fails : Bool)

/-- An arena with the pointers it has returned and the bytes written there. -/
structure ArenaRun where
  arena : ArenaInner
  returned : List (RelPtr × Bytes)

namespace ArenaRun

def step (x : ArenaRun) : ArenaOp → ArenaRun
  | .writeBytes _ bytes flushFails =>
    match x.arena.writeBytes bytes flushFails with
    | (a, .ok ptr) => ⟨a, x.returned ++ [(ptr, bytes)]⟩
    | (a, .error _) => ⟨a, x.returned⟩
  | .flush _ _ => x

def run (x : ArenaRun) (ops : List ArenaOp) : ArenaRun := ops.foldl step x

/-- A write that returns a pointer to data, or to a place behind the position in the header. -/
def outgrowsHeader (x : ArenaRun) : ArenaOp → Bool
  | .writeBytes _ bytes flushFails =>
    x.arena.writePos + alignedSize bytes.length ≤ x.arena.capacity &&
      !(x.arena.syncOnWrite && flushFails) &&
      (bytes ≠ [] || x.arena.header.writePos.toNat ≠ x.arena.writePos)
  | .flush _ _ => false

end ArenaRun

/-- The file opens, every pointer reads back what was written there, and whatever is written after that
lies elsewhere. -/
def Survives (file : Bytes) (returned : List (RelPtr × Bytes)) : Prop :=
  ∃ b, ArenaInner.openFile file = .ok b ∧
    (∀ r ∈ returned, b.readBytes r.1.offset.toNat r.1.size.toNat = .ok r.2) ∧
    ∀ later, ∀ r' ∈ (ArenaRun.run ⟨b, []⟩ later).returned, ∀ r ∈ returned,
      rangesDisjoint r.1.offset.toNat r.2.length r'.1.offset.toNat r'.2.length

namespace ArenaRun
variable {x : ArenaRun}

/-- The pointers that the header's position covers: empty ones at the position itself. -/
def Covered (x : ArenaRun) : Prop :=
  ∀ r ∈ x.returned, r.1.offset.toNat = x.arena.header.writePos.toNat ∧ r.2 = []

/-- What holds along a run: nothing that has been returned lies before the header's position. -/
structure Tracked (x : ArenaRun) : Prop where
  wellFormed : x.arena.WellFormed
  behind : ∀ r ∈ x.returned, x.arena.header.writePos.toNat ≤ r.1.offset.toNat ∧
    r.1.size = UInt32.ofNat r.2.length

theorem step_returned (x : ArenaRun) (handle : Handle) (bytes : Bytes) (flushFails : Bool)
    (hw : x.arena.WellFormed) :
    (x.step (.writeBytes handle bytes flushFails)).arena.header = x.arena.header ∧
      (((x.arena.capacity < x.arena.writePos + alignedSize bytes.length ∨
            (x.arena.syncOnWrite && flushFails) = true) ∧
          (x.step (.writeBytes handle bytes flushFails)).returned = x.returned) ∨
        (x.arena.writePos + alignedSize bytes.length ≤ x.arena.capacity ∧
          (x.arena.syncOnWrite && flushFails) = false ∧
          ∃ ptr : RelPtr, ptr.offset.toNat = x.arena.writePos ∧ ptr.size = UInt32.ofNat bytes.length ∧
            (x.step (.writeBytes handle bytes flushFails)).returned = x.returned ++ [(ptr, bytes)])) := by
  have hpos : (UInt64.ofNat x.arena.writePos).toNat = x.arena.writePos := by
    have hbound := hw.bound
    have hinside := hw.inside
    refine UInt64.toNat_ofNat_of_lt' ?_
    unfold UInt64.size
    omega
  unfold step
  dsimp only
  rcases ArenaInner.writeBytes_cases x.arena bytes flushFails with ⟨hfull, heq⟩ | ⟨hfits, heq⟩
  · rw [heq]
    exact ⟨rfl, .inl ⟨.inl hfull, rfl⟩⟩
  · rw [heq]
    cases hsync : (x.arena.syncOnWrite && flushFails) with
    | true => exact ⟨rfl, .inl ⟨.inr rfl, rfl⟩⟩
    | false => exact ⟨rfl, .inr ⟨hfits, rfl, _, hpos, rfl, rfl⟩⟩

theorem step_wellFormed (op : ArenaOp) (h : x.arena.WellFormed) : (x.step op).arena.WellFormed := by
  cases op with
  | flush handle fails => exact h
  | writeBytes handle bytes flushFails =>
    have hwritten := h.writeBytes bytes flushFails
    unfold step
    dsimp only
    split
    · rename_i a ptr heq
      rw [heq] at hwritten
      exact hwritten
    · rename_i a e heq
      rw [heq] at hwritten
      exact hwritten

theorem Tracked.step (h : x.Tracked) (op : ArenaOp) : (x.step op).Tracked := by
  refine ⟨step_wellFormed op h.wellFormed, ?_⟩
  cases op with
  | flush handle fails => exact h.behind
  | writeBytes handle bytes flushFails =>
    obtain ⟨hheader, hcases⟩ := step_returned x handle bytes flushFails h.wellFormed
    rw [hheader]
    rcases hcases with ⟨-, hreturned⟩ | ⟨-, -, ptr, hoffset, hsize, hreturned⟩
    · rw [hreturned]
      exact h.behind
    · rw [hreturned]
      intro r hr
      rcases List.mem_append.mp hr with hold | hnew
      · exact h.behind r hold
      · rw [List.mem_singleton.mp hnew]
        exact ⟨hoffset ▸ h.wellFormed.behind, hsize⟩

theorem Tracked.covered_iff (h : x.Tracked) (op : ArenaOp) :
    (x.step op).Covered ↔ x.Covered ∧ x.outgrowsHeader op = false := by
  cases op with
  | flush handle fails => exact ⟨fun hc => ⟨hc, rfl⟩, And.left⟩
  | writeBytes handle bytes flushFails =>
    obtain ⟨hheader, hcases⟩ := step_returned x handle bytes flushFails h.wellFormed
    unfold Covered outgrowsHeader
    rw [hheader]
    rcases hcases with ⟨hnone, hreturned⟩ | ⟨hfits, hsync, ptr, hoffset, -, hreturned⟩
    · rw [hreturned]
      refine ⟨fun hc => ⟨hc, ?_⟩, And.left⟩
      rcases hnone with hfull | hsync
      · have hnot : ¬ x.arena.writePos + alignedSize bytes.length ≤ x.arena.capacity := by omega
        simp [hnot]
      · simp [hsync]
    · rw [hreturned]
      simp only [List.mem_append, List.mem_singleton, or_imp, forall_and, forall_eq, hoffset, hfits, hsync,
        decide_true, Bool.not_false, Bool.true_and, Bool.or_eq_false_iff, decide_eq_false_iff_not,
        ne_eq, not_not]
      constructor
      · rintro ⟨⟨hold, hpos⟩, hold', hbytes⟩
        exact ⟨⟨hold, hold'⟩, hbytes, hpos.symm⟩
      · rintro ⟨⟨hold, hold'⟩, hbytes, hpos⟩
        exact ⟨⟨hold, hpos.symm⟩, hold', hbytes⟩

theorem read_at_position (b : ArenaInner) (ptr : RelPtr) (bytes : Bytes)
    (hoffset : b.writePos ≤ ptr.offset.toNat) (hsize : ptr.size = UInt32.ofNat bytes.length) :
    b.readBytes ptr.offset.toNat ptr.size.toNat = .ok bytes ↔
      ptr.offset.toNat = b.writePos ∧ bytes = [] := by
  unfold ArenaInner.readBytes
  dsimp only
  constructor
  · intro hread
    split at hread
    · cases hread
    · rename_i hcovered
      have hzero : ptr.size.toNat = 0 := by omega
      rw [hzero] at hread
      cases hread
      exact ⟨by omega, rfl⟩
  · rintro ⟨hpos, rfl⟩
    rw [hsize, hpos]
    show (if b.writePos < b.writePos + 0 then _ else Except.ok (slice b.mmap b.writePos 0)) = Except.ok []
    rw [if_neg (by omega)]
    rfl

theorem Tracked.survives_iff (h : x.Tracked) (bytes : Bytes) (n : ℕ) :
    Survives (x.arena.tornFile bytes n) x.returned ↔ x.Covered := by
  have hopen := (h.wellFormed.torn bytes n).open_mmap
  dsimp only at hopen
  unfold Survives
  rw [hopen]
  constructor
  · rintro ⟨b, hb, hread, -⟩ r hr
    cases hb
    obtain ⟨hoffset, hsize⟩ := h.behind r hr
    exact (read_at_position _ r.1 r.2 hoffset hsize).mp (hread r hr)
  · intro hcovered
    refine ⟨_, rfl, fun r hr => ?_, fun later r' _ r hr => ?_⟩
    · obtain ⟨hoffset, hsize⟩ := h.behind r hr
      exact (read_at_position _ r.1 r.2 hoffset hsize).mpr (hcovered r hr)
    · rw [(hcovered r hr).2]
      exact .inl rfl

/-- For every arena that `create` or `open` hands out, every sequence of writes and flushes on it and
every point of a further write at which the process dies: the file survives the crash if and only
if no write of the sequence has returned a pointer to data, or an empty one after a write
whose `msync` failed had moved the position. -/
theorem crash_survived_iff (a : ArenaInner) (ha : a.JustOpened) (ops : List ArenaOp) (bytes : Bytes) (n : ℕ) :
    Survives ((run ⟨a, []⟩ ops).arena.tornFile bytes n) (run ⟨a, []⟩ ops).returned ↔
      ∀ before op, before ++ [op] <+: ops → (run ⟨a, []⟩ before).outgrowsHeader op = false := by
  have hstart : Tracked ⟨a, []⟩ := ⟨ha.wellFormed.1, nofun⟩
  have htracked : (run ⟨a, []⟩ ops).Tracked := by
    unfold run
    induction ops using List.reverseRecOn with
    | nil => exact hstart
    | append_singleton ops op ih =>
      rw [Machine.foldl_concat]
      exact ih.step op
  rw [htracked.survives_iff]
  exact Machine.foldl_lasting_iff step outgrowsHeader Tracked Covered (fun _ op h => h.step op)
    (fun _ op h => h.covered_iff op) ops hstart nofun

def smallArena : ArenaInner :=
  let header := ArenaHeader.new sampleTrace 256 1700000000
  ⟨writeAt 0 header.toBytes (List.replicate 256 0), 128, header, false, 256⟩

theorem smallArena_created : ArenaInner.create sampleTrace 256 false 1700000000 = some smallArena := rfl

theorem refused_write_survived :
    Survives ((run ⟨smallArena, []⟩ [.writeBytes .arena (List.replicate 200 1) false]).arena.tornFile [2, 3] 1)
      (run ⟨smallArena, []⟩ [.writeBytes .arena (List.replicate 200 1) false]).returned := by
  refine (crash_survived_iff smallArena (.created _ _ _ _ _ smallArena_created) _ [2, 3] 1).mpr ?_
  intro before op hpre
  obtain ⟨rfl, rfl⟩ : before = [] ∧ op = .writeBytes .arena (List.replicate 200 1) false := by
    obtain ⟨rest, hrest⟩ := hpre
    cases before with
    | nil =>
      cases hrest
      exact ⟨rfl, rfl⟩
    | cons b before =>
      have hlen := congrArg List.length hrest
      simp at hlen
  decide +kernel

def flushedWrite : ArenaRun :=
  run ⟨smallArena, []⟩ [.writeBytes .writer [1, 2, 3] false, .flush .writer false]

/-- The process dies after a write and a flush that have both returned `Ok`; the pointer is lost. -/
theorem flushed_write_lost :
    flushedWrite.returned = [(⟨128, 3⟩, [1, 2, 3])] ∧
      ¬ Survives flushedWrite.arena.mmap flushedWrite.returned := by
  have hreturned : flushedWrite.returned = [(⟨128, 3⟩, [1, 2, 3])] := by decide
  refine ⟨hreturned, ?_⟩
  have hstart : Tracked ⟨smallArena, []⟩ := ⟨(ArenaInner.create_wellFormed smallArena_created).1, nofun⟩
  have htracked : flushedWrite.Tracked :=
    (hstart.step (.writeBytes .writer [1, 2, 3] false)).step (.flush .writer false)
  -- the file of a write that is refused is the mapping as it is
  have hfile : flushedWrite.arena.tornFile (List.replicate 200 0) 0 = flushedWrite.arena.mmap :=
    if_pos (by decide +kernel)
  rw [← hfile, htracked.survives_iff]
  intro hcovered
  have hempty := (hcovered (⟨128, 3⟩, [1, 2, 3]) (by rw [hreturned]; exact List.mem_cons_self)).2
  cases hempty

end ArenaRun
end Xerv.Arena
