import Mathlib.Algebra.Order.Ring.Rat
import Xerv.Arena.Allocation
import Xerv.Lib.BlockMove
import Xerv.Lib.Table

/-!
# Arena compaction (`xerv-core/src/arena/compaction.rs`)

`plan` packs the live allocations towards the start of the data area in the
order of their offsets; `execute` carries the moves out inside the buffer, from
the highest offset down, and rebuilds the tracker.

Packing never moves a nonempty block up, so doing the highest block first may
write over a block that is still to be moved. `execute_preserves_live_iff` gives
the layouts for which it does not.
-/

namespace Xerv.Arena
open Xerv.Lib

structure CompactionConfig (F : Type) where
  fragmentationThreshold : F
  minReclaimableBytes : ℕ
  inPlace : Bool

structure CompactionResult where
  offsetMap : Table ℕ ℕ
  bytesReclaimed : ℕ
  bytesUsed : ℕ
  newGeneration : UInt32
  allocationsMoved : ℕ
  performed : Bool

def CompactionResult.notPerformed : CompactionResult := ⟨Table.empty, 0, 0, 0, 0, false⟩

abbrev PlannedMove := AllocationEntry × ℕ

structure CompactionPlan where
  moves : List PlannedMove
  bytesToReclaim : ℕ
  newWritePos : ℕ

/-- `align_offset`: round up to a multiple of 8. -/
def alignOffset (offset : ℕ) : ℕ := (offset + 7) / 8 * 8

/-- `align_size`: the `u32` sum wraps before it is rounded down. -/
def alignSize (size : UInt32) : ℕ := (size.toNat + 7) % 2 ^ 32 / 8 * 8

/-- The loop of `plan`. -/
def planLoop : ℕ → List AllocationEntry → List PlannedMove × ℕ
  | pos, [] => ([], pos)
  | pos, a :: rest =>
    let aligned := alignOffset pos
    let (moves, final) := planLoop (aligned + alignSize a.size) rest
    (if a.offset ≠ aligned then (a, aligned) :: moves else moves, final)

def plan (t : AllocationTracker) (dataOffset : ℕ) : CompactionPlan :=
  let (moves, final) := planLoop dataOffset t.getLiveAllocations
  ⟨moves, t.totalDead, final⟩

/-- The moves in the order in which `execute` does them: highest old offset first. -/
def sortMoves (moves : List PlannedMove) : List PlannedMove :=
  moves.insertionSort fun a b => b.1.offset ≤ a.1.offset

/-- The loop of `execute`; an out-of-bounds move stops it with the buffer as it is then. -/
def moveLoop : List PlannedMove → Bytes → Table ℕ ℕ → Except XervError (Table ℕ ℕ) × Bytes
  | [], buf, map => (.ok map, buf)
  | (a, new) :: rest, buf, map =>
    let old := a.offset
    let size := a.size.toNat
    let len := buf.length
    if len < old + size ∨ len < new + size then
      (.error (.compactionFailed
        s!"Move out of bounds: old={old}, new={new}, size={size}, buffer_len={len}"), buf)
    else moveLoop rest (moveBlock old new size buf) (map.insert old new)

section Compactor
variable {F : Type} [NatCast F] [Div F] [Zero F] [LE F] [DecidableLE F]

def shouldCompact (config : CompactionConfig F) (t : AllocationTracker) : Bool :=
  config.fragmentationThreshold ≤ (t.fragmentationRatio : F) &&
    config.minReclaimableBytes ≤ t.totalDead

def newEntry (map : Table ℕ ℕ) (gen : UInt32) (a : AllocationEntry) : AllocationEntry :=
  ⟨(map a.offset).getD a.offset, a.size, gen, true⟩

def execute (config : CompactionConfig F) (t : AllocationTracker) (buf : Bytes) (dataOffset : ℕ) :
    Except XervError CompactionResult × AllocationTracker × Bytes :=
  if shouldCompact config t then
    let p := plan t dataOffset
    let moves := sortMoves p.moves
    match moveLoop moves buf Table.empty with
    | (.error e, buf') => (.error e, t, buf')
    | (.ok map, buf') =>
      let t' := t.incrementGeneration
      let t' := t'.rebuild (t.getLiveAllocations.map (newEntry map t'.generation))
      (.ok ⟨map, p.bytesToReclaim, t'.totalLive, t'.generation, moves.length, true⟩, t', buf')
  else (.ok .notPerformed, t, buf)

end Compactor

/-! ### Where the plan puts a block -/

theorem alignOffset_dvd (n : ℕ) : 8 ∣ alignOffset n := Nat.dvd_mul_left 8 _

theorem alignSize_dvd (s : UInt32) : 8 ∣ alignSize s := Nat.dvd_mul_left 8 _

theorem alignOffset_of_dvd (n : ℕ) (h : 8 ∣ n) : alignOffset n = n := by
  unfold alignOffset
  omega

/-- The space the plan gives to the blocks of `live` below `b`. -/
def sizeBelow (live : List AllocationEntry) (b : AllocationEntry) : ℕ :=
  ((live.filter fun a => a.offset < b.offset).map fun a => alignSize a.size).sum

/-- The planned offset of a live block: the data start, then all lower live blocks. -/
def planned (t : AllocationTracker) (dataOffset : ℕ) (b : AllocationEntry) : ℕ :=
  alignOffset dataOffset + sizeBelow t.getLiveAllocations b

theorem sizeBelow_head {a : AllocationEntry} {rest : List AllocationEntry} (hhead : ∀ x ∈ rest, a.offset < x.offset) :
    sizeBelow (a :: rest) a = 0 := by
  have hnone : (a :: rest).filter (fun x => x.offset < a.offset) = [] := by
    rw [List.filter_eq_nil_iff]
    intro x hx
    rcases List.mem_cons.mp hx with hxa | hxr
    · simp [hxa]
    · have hlt := hhead x hxr
      simp
      omega
  simp [sizeBelow, hnone]

theorem sizeBelow_tail {a x : AllocationEntry} {rest : List AllocationEntry} (hhead : ∀ x ∈ rest, a.offset < x.offset)
    (hx : x ∈ rest) : sizeBelow (a :: rest) x = alignSize a.size + sizeBelow rest x := by
  have hlt := hhead x hx
  simp [sizeBelow, hlt]

theorem planLoop_sublist (pos : ℕ) (live : List AllocationEntry) :
    ((planLoop pos live).1.map Prod.fst).Sublist live := by
  induction live generalizing pos with
  | nil => exact List.Sublist.slnil
  | cons a rest ih =>
    have hrest := ih (alignOffset pos + alignSize a.size)
    unfold planLoop
    dsimp only
    split
    · exact hrest.cons_cons a
    · exact hrest.cons a

theorem mem_planLoop (pos : ℕ) (live : List AllocationEntry)
    (hsorted : live.Pairwise fun a b => a.offset < b.offset) (b : AllocationEntry) (q : ℕ) :
    (b, q) ∈ (planLoop pos live).1 ↔
      b ∈ live ∧ q = alignOffset pos + sizeBelow live b ∧ b.offset ≠ q := by
  induction live generalizing pos with
  | nil => simp [planLoop]
  | cons a rest ih =>
    obtain ⟨hhead, htail⟩ := List.pairwise_cons.mp hsorted
    have hnext : alignOffset (alignOffset pos + alignSize a.size) =
        alignOffset pos + alignSize a.size :=
      alignOffset_of_dvd _ (Nat.dvd_add (alignOffset_dvd pos) (alignSize_dvd a.size))
    have hfirst := sizeBelow_head hhead
    have hlater : ∀ x ∈ rest, sizeBelow (a :: rest) x = alignSize a.size + sizeBelow rest x :=
      fun x hx => sizeBelow_tail hhead hx
    have hmoves := ih (alignOffset pos + alignSize a.size) htail
    rw [hnext] at hmoves
    have hane : a ∉ rest := fun hmem => lt_irrefl _ (hhead a hmem)
    have hrest : (b, q) ∈ (planLoop (alignOffset pos + alignSize a.size) rest).1 ↔
        b ∈ rest ∧ q = alignOffset pos + sizeBelow (a :: rest) b ∧ b.offset ≠ q := by
      rw [hmoves]
      constructor
      · intro h
        refine ⟨h.1, ?_, h.2.2⟩
        rw [hlater b h.1, h.2.1]
        omega
      · intro h
        refine ⟨h.1, ?_, h.2.2⟩
        rw [h.2.1, hlater b h.1]
        omega
    unfold planLoop
    dsimp only
    by_cases hmove : a.offset = alignOffset pos
    · rw [if_neg (by simpa using hmove), hrest, List.mem_cons]
      constructor
      · intro h
        exact ⟨.inr h.1, h.2⟩
      · intro h
        rcases h.1 with hba | hbr
        · subst hba
          rw [hfirst] at h
          exact absurd (hmove.trans h.2.1.symm) h.2.2
        · exact ⟨hbr, h.2⟩
    · rw [if_pos (by simpa using hmove), List.mem_cons, hrest, List.mem_cons]
      constructor
      · intro h
        rcases h with heq | h
        · obtain ⟨hba, hq⟩ := Prod.mk.inj heq
          subst hba hq
          exact ⟨.inl rfl, by rw [hfirst]; rfl, hmove⟩
        · exact ⟨.inr h.1, h.2⟩
      · intro h
        rcases h.1 with hba | hbr
        · subst hba
          rw [hfirst] at h
          exact .inl (by rw [h.2.1]; rfl)
        · exact .inr ⟨hbr, h.2⟩

section Moves
variable (t : AllocationTracker) (dataOffset : ℕ)

def orderedMoves : List PlannedMove := sortMoves (plan t dataOffset).moves

theorem mem_orderedMoves (b : AllocationEntry) (q : ℕ) :
    (b, q) ∈ orderedMoves t dataOffset ↔
      b ∈ t.getLiveAllocations ∧ q = planned t dataOffset b ∧ b.offset ≠ q := by
  rw [orderedMoves, sortMoves, List.mem_insertionSort]
  exact mem_planLoop dataOffset _ t.getLiveAllocations_sorted b q

theorem orderedMoves_sorted :
    (orderedMoves t dataOffset).Pairwise fun a b => b.1.offset < a.1.offset := by
  have htotal : Std.Total fun a b : PlannedMove => b.1.offset ≤ a.1.offset :=
    ⟨fun a b => le_total b.1.offset a.1.offset⟩
  have htrans : IsTrans PlannedMove fun a b => b.1.offset ≤ a.1.offset :=
    ⟨fun _ _ _ h k => le_trans k h⟩
  have hle : (orderedMoves t dataOffset).Pairwise fun a b => b.1.offset ≤ a.1.offset :=
    List.pairwise_insertionSort _ _
  have hinc : ((plan t dataOffset).moves.map Prod.fst).Pairwise fun a b => a.offset < b.offset :=
    t.getLiveAllocations_sorted.sublist (planLoop_sublist dataOffset _)
  have hne : (plan t dataOffset).moves.Pairwise fun a b => a.1.offset ≠ b.1.offset :=
    (List.pairwise_map.mp hinc).imp fun h => ne_of_lt h
  have hne' : (orderedMoves t dataOffset).Pairwise fun a b => a.1.offset ≠ b.1.offset :=
    (List.perm_insertionSort _ _).symm.pairwise hne fun h => h.symm
  exact hle.imp₂ (fun _ _ h1 h2 => lt_of_le_of_ne h1 h2.symm) hne'

end Moves

/-! ### The move loop -/

def PlannedMove.toMove (p : PlannedMove) : Move := ⟨p.1.offset, p.2, p.1.size.toNat⟩

def recordMoves (moves : List PlannedMove) (map : Table ℕ ℕ) : Table ℕ ℕ :=
  moves.foldl (fun m p => m.insert p.1.offset p.2) map

theorem moveLoop_fits (moves : List PlannedMove) (buf : Bytes) (map : Table ℕ ℕ)
    (h : ∀ p ∈ moves, (PlannedMove.toMove p).Fits buf.length) :
    moveLoop moves buf map =
      (.ok (recordMoves moves map), runMoves (moves.map PlannedMove.toMove) buf) := by
  induction moves generalizing buf map with
  | nil => rfl
  | cons p rest ih =>
    obtain ⟨a, new⟩ := p
    have hfit : (PlannedMove.toMove (a, new)).Fits buf.length := h _ List.mem_cons_self
    have hin : ¬ (buf.length < a.offset + a.size.toNat ∨ buf.length < new + a.size.toNat) := by
      unfold Move.Fits PlannedMove.toMove at hfit
      dsimp only at hfit
      omega
    unfold moveLoop
    dsimp only
    rw [if_neg hin, ih]
    · rfl
    · intro p hp
      rw [moveBlock_length]
      exact h p (List.mem_cons_of_mem _ hp)

theorem moveLoop_ok (moves : List PlannedMove) (buf : Bytes) (map map' : Table ℕ ℕ)
    (h : (moveLoop moves buf map).1 = .ok map') :
    ∀ p ∈ moves, (PlannedMove.toMove p).Fits buf.length := by
  induction moves generalizing buf map with
  | nil => exact fun p hp => absurd hp List.not_mem_nil
  | cons p rest ih =>
    obtain ⟨a, new⟩ := p
    unfold moveLoop at h
    dsimp only at h
    split at h
    · exact absurd h (by simp)
    · rename_i hin
      intro p hp
      rcases List.mem_cons.mp hp with hpa | hpr
      · subst hpa
        unfold Move.Fits PlannedMove.toMove
        dsimp only
        omega
      · have hrest := ih _ _ h p hpr
        rwa [moveBlock_length] at hrest

theorem recordMoves_other (moves : List PlannedMove) (map : Table ℕ ℕ) (k : ℕ)
    (h : ∀ p ∈ moves, p.1.offset ≠ k) : recordMoves moves map k = map k := by
  induction moves generalizing map with
  | nil => rfl
  | cons p rest ih =>
    have hp : k ≠ p.1.offset := fun he => h p List.mem_cons_self he.symm
    have hrest := ih (map.insert p.1.offset p.2) fun x hx => h x (List.mem_cons_of_mem _ hx)
    rw [Table.insert_ne _ _ hp] at hrest
    exact hrest

theorem recordMoves_self (moves : List PlannedMove) (map : Table ℕ ℕ) (p : PlannedMove)
    (hp : p ∈ moves) (h : moves.Pairwise fun a b => b.1.offset < a.1.offset) :
    recordMoves moves map p.1.offset = some p.2 := by
  induction moves generalizing map with
  | nil => exact absurd hp List.not_mem_nil
  | cons x rest ih =>
    obtain ⟨hhead, htail⟩ := List.pairwise_cons.mp h
    rcases List.mem_cons.mp hp with hpx | hpr
    · subst hpx
      have hother := recordMoves_other rest (map.insert p.1.offset p.2) p.1.offset
        fun y hy => ne_of_lt (hhead y hy)
      rw [Table.insert_self] at hother
      exact hother
    · exact ih _ hpr htail

/-! ### Layouts -/

/-- The tracked blocks are aligned, above the data start, inside the buffer and apart. -/
structure WellPlaced (t : AllocationTracker) (dataOffset n : ℕ) : Prop where
  aligned : ∀ e ∈ t.allocations, 8 ∣ e.offset
  above : ∀ e ∈ t.allocations, dataOffset ≤ e.offset
  inside : ∀ e ∈ t.allocations, e.offset + e.size.toNat ≤ n
  apart : ∀ a ∈ t.allocations, ∀ b ∈ t.allocations, a ≠ b →
    rangesDisjoint a.offset a.size.toNat b.offset b.size.toNat

/-- Some planned move leaves the buffer. -/
def OutOfBounds (t : AllocationTracker) (dataOffset n : ℕ) : Prop :=
  ∃ b ∈ t.getLiveAllocations, b.offset ≠ planned t dataOffset b ∧
    n < planned t dataOffset b + b.size.toNat

/-- The new place of the upper of two live blocks meets neither the old nor the new place of the
lower one. -/
def NoClash (t : AllocationTracker) (dataOffset : ℕ) : Prop :=
  ∀ a ∈ t.getLiveAllocations, ∀ b ∈ t.getLiveAllocations, a.offset < b.offset →
    rangesDisjoint (planned t dataOffset b) b.size.toNat a.offset a.size.toNat ∧
    rangesDisjoint (planned t dataOffset b) b.size.toNat (planned t dataOffset a) a.size.toNat

instance (t : AllocationTracker) (dataOffset : ℕ) : Decidable (NoClash t dataOffset) :=
  inferInstanceAs (Decidable (∀ a ∈ t.getLiveAllocations, ∀ b ∈ t.getLiveAllocations, _ → _ ∧ _))

def CompactionResult.newOffset (r : CompactionResult) (e : AllocationEntry) : ℕ :=
  (r.offsetMap e.offset).getD e.offset

section Correctness
variable {F : Type} [NatCast F] [Div F] [Zero F] [LE F] [DecidableLE F]

/-- After a compaction that was performed, every live block holds its bytes at its new offset. -/
def PreservesLive (config : CompactionConfig F) (t : AllocationTracker) (dataOffset : ℕ)
    (buf : Bytes) : Prop :=
  ∀ r t' buf', execute config t buf dataOffset = (.ok r, t', buf') → r.performed = true →
    ∀ e ∈ t.allocations, e.live = true →
      slice buf' (r.newOffset e) e.size.toNat = slice buf e.offset e.size.toNat

variable {config : CompactionConfig F} {t : AllocationTracker} {dataOffset n : ℕ}

theorem orderedMoves_fit (hplaced : WellPlaced t dataOffset n)
    (hin : ¬ OutOfBounds t dataOffset n) :
    ∀ p ∈ orderedMoves t dataOffset, (PlannedMove.toMove p).Fits n := by
  intro p hp
  obtain ⟨b, q⟩ := p
  obtain ⟨hb, hq, hne⟩ := (mem_orderedMoves t dataOffset b q).mp hp
  have hmem := (t.mem_getLiveAllocations b).mp hb
  refine ⟨hplaced.inside b hmem.1, ?_⟩
  by_contra hout
  refine hin ⟨b, hb, ?_, ?_⟩
  · rw [← hq]
    exact hne
  · rw [← hq]
    exact Nat.lt_of_not_le hout

theorem newOffset_eq_planned (e : AllocationEntry) (he : e ∈ t.getLiveAllocations) :
    (recordMoves (orderedMoves t dataOffset) Table.empty e.offset).getD e.offset =
      planned t dataOffset e := by
  by_cases hmove : e.offset = planned t dataOffset e
  · rw [recordMoves_other]
    · exact hmove
    · intro p hp hoff
      obtain ⟨b, q⟩ := p
      obtain ⟨hb, hq, hne⟩ := (mem_orderedMoves t dataOffset b q).mp hp
      have hbe : b = e := t.eq_of_offset b e ((t.mem_getLiveAllocations b).mp hb).1
        ((t.mem_getLiveAllocations e).mp he).1 hoff
      subst hbe
      exact hne (hmove.trans hq.symm)
  · have hp : (e, planned t dataOffset e) ∈ orderedMoves t dataOffset :=
      (mem_orderedMoves t dataOffset e _).mpr ⟨he, rfl, hmove⟩
    rw [recordMoves_self _ _ _ hp (orderedMoves_sorted t dataOffset)]
    rfl

theorem execute_performs (buf : Bytes) (hgo : shouldCompact config t = true)
    (hfit : ∀ p ∈ orderedMoves t dataOffset, (PlannedMove.toMove p).Fits buf.length) :
    ∃ r t', execute config t buf dataOffset = (.ok r, t',
        runMoves ((orderedMoves t dataOffset).map PlannedMove.toMove) buf) ∧ r.performed = true ∧
      ∀ e ∈ t.getLiveAllocations, r.newOffset e = planned t dataOffset e := by
  have hloop := moveLoop_fits (orderedMoves t dataOffset) buf Table.empty hfit
  unfold orderedMoves at hloop
  unfold execute
  rw [if_pos hgo]
  simp only [hloop]
  exact ⟨_, _, rfl, rfl, fun e he => newOffset_eq_planned e he⟩

theorem execute_of_performed (buf : Bytes) (r : CompactionResult) (t' : AllocationTracker)
    (buf' : Bytes) (hrun : execute config t buf dataOffset = (.ok r, t', buf'))
    (hperf : r.performed = true) : shouldCompact config t = true ∧
      ∀ p ∈ orderedMoves t dataOffset, (PlannedMove.toMove p).Fits buf.length := by
  unfold execute at hrun
  split at hrun
  · rename_i hgo
    refine ⟨hgo, ?_⟩
    cases hloop : moveLoop (sortMoves (plan t dataOffset).moves) buf Table.empty with
    | mk result buf'' =>
      cases result with
      | error e => simp [hloop] at hrun
      | ok map => exact moveLoop_ok _ buf Table.empty map (by rw [orderedMoves, hloop])
  · have hr : CompactionResult.notPerformed = r := by
      have := congrArg Prod.fst hrun
      exact Except.ok.inj this
    rw [← hr] at hperf
    exact absurd hperf Bool.false_ne_true

/-- The moves bring every byte of a live block to its planned place. -/
def Delivered (t : AllocationTracker) (dataOffset : ℕ) (buf : Bytes) : Prop :=
  ∀ e ∈ t.getLiveAllocations, ∀ i < e.size.toNat,
    (runMoves ((orderedMoves t dataOffset).map PlannedMove.toMove) buf)[
      planned t dataOffset e + i]? = buf[e.offset + i]?

theorem preservesLive_iff (buf : Bytes) :
    PreservesLive config t dataOffset buf ↔
      (shouldCompact config t = true →
        (∀ p ∈ orderedMoves t dataOffset, (PlannedMove.toMove p).Fits buf.length) →
        Delivered t dataOffset buf) := by
  constructor
  · intro h hgo hfit e he
    obtain ⟨r, t', hrun, hperf, hnew⟩ := execute_performs buf hgo hfit
    have hmem := (t.mem_getLiveAllocations e).mp he
    have hslice := h r t' _ hrun hperf e hmem.1 hmem.2
    rw [hnew e he] at hslice
    exact (slice_eq_iff _ _ _ _ _).mp hslice
  · intro h r t' buf' hrun hperf e hmem hlive
    obtain ⟨hgo, hfit⟩ := execute_of_performed buf r t' buf' hrun hperf
    obtain ⟨r', t'', hrun', _, hnew⟩ := execute_performs buf hgo hfit
    have he : e ∈ t.getLiveAllocations := (t.mem_getLiveAllocations e).mpr ⟨hmem, hlive⟩
    have heq := hrun.symm.trans hrun'
    have hr : r = r' := Except.ok.inj (Prod.mk.inj heq).1
    have hbuf : buf' = _ := (Prod.mk.inj (Prod.mk.inj heq).2).2
    rw [hr, hbuf, hnew e he, slice_eq_iff]
    exact h hgo hfit e he

/-! ### Sufficiency -/

theorem orderedMoves_before (hclash : NoClash t dataOffset) :
    ((orderedMoves t dataOffset).map PlannedMove.toMove).Pairwise Move.Before := by
  rw [List.pairwise_map]
  refine (orderedMoves_sorted t dataOffset).imp_of_mem ?_
  intro p p' hp hp' hlt
  obtain ⟨b, q⟩ := p
  obtain ⟨a, q'⟩ := p'
  obtain ⟨hb, hq, _⟩ := (mem_orderedMoves t dataOffset b q).mp hp
  obtain ⟨ha, hq', _⟩ := (mem_orderedMoves t dataOffset a q').mp hp'
  subst hq hq'
  exact hclash a ha b hb hlt

theorem orderedMoves_avoid (hclash : NoClash t dataOffset) (e : AllocationEntry)
    (he : e ∈ t.getLiveAllocations) (hstay : e.offset = planned t dataOffset e) (i : ℕ)
    (hi : i < e.size.toNat) :
    ∀ m ∈ (orderedMoves t dataOffset).map PlannedMove.toMove,
      ¬ inRange m.dst m.len (e.offset + i) := by
  intro m hm hin
  obtain ⟨p, hp, rfl⟩ := List.mem_map.mp hm
  obtain ⟨b, q⟩ := p
  obtain ⟨hb, hq, hne⟩ := (mem_orderedMoves t dataOffset b q).mp hp
  subst hq
  have hhere : inRange e.offset e.size.toNat (e.offset + i) := ⟨Nat.le_add_right _ _, by omega⟩
  have hoff : b.offset ≠ e.offset := by
    intro hoff
    have hbe : b = e := t.eq_of_offset b e ((t.mem_getLiveAllocations b).mp hb).1
      ((t.mem_getLiveAllocations e).mp he).1 hoff
    exact hne (hbe ▸ hstay)
  rcases Nat.lt_or_gt_of_ne hoff with hlow | hhigh
  · -- the block below `e` lands outside the new, hence the old, place of `e`
    have hdis := (hclash b hb e he hlow).2
    rw [← hstay] at hdis
    exact (rangesDisjoint_iff _ _ _ _).mp hdis _ hhere hin
  · exact (rangesDisjoint_iff _ _ _ _).mp (hclash e he b hb hhigh).1 _ hin hhere

theorem moves_deliver (hclash : NoClash t dataOffset) (buf : Bytes)
    (hfit : ∀ p ∈ orderedMoves t dataOffset, (PlannedMove.toMove p).Fits buf.length) :
    Delivered t dataOffset buf := by
  intro e he i hi
  have hfits : ∀ m ∈ (orderedMoves t dataOffset).map PlannedMove.toMove, m.Fits buf.length := by
    intro m hm
    obtain ⟨p, hp, rfl⟩ := List.mem_map.mp hm
    exact hfit p hp
  by_cases hstay : e.offset = planned t dataOffset e
  · rw [← hstay]
    exact runMoves_frame _ buf hfits _ (orderedMoves_avoid hclash e he hstay i hi)
  · have hp : (e, planned t dataOffset e) ∈ orderedMoves t dataOffset :=
      (mem_orderedMoves t dataOffset e _).mpr ⟨he, rfl, hstay⟩
    exact runMoves_delivers _ buf hfits (orderedMoves_before hclash)
      (PlannedMove.toMove (e, planned t dataOffset e)) (List.mem_map_of_mem hp) i hi

/-! ### Necessity -/

def markAt (n p : ℕ) : Bytes := (List.replicate n 0).set p 1

theorem markAt_length (n p : ℕ) : (markAt n p).length = n := by simp [markAt]

theorem markAt_self (n p : ℕ) (h : p < n) : (markAt n p)[p]? = some 1 := by
  simp [markAt, h]

theorem markAt_ne (n p q : ℕ) (h : q ≠ p) : (markAt n p)[q]? ≠ some 1 := by
  have hpq : p ≠ q := fun he => h he.symm
  unfold markAt
  rw [List.getElem?_set_ne hpq, List.getElem?_replicate]
  split
  · decide
  · decide

theorem planned_disjoint_of_delivers (hplaced : WellPlaced t dataOffset n)
    (a b : AllocationEntry) (ha : a ∈ t.getLiveAllocations) (hb : b ∈ t.getLiveAllocations)
    (hab : a.offset < b.offset) (h : ∀ p, Delivered t dataOffset (markAt n p)) :
    rangesDisjoint (planned t dataOffset b) b.size.toNat (planned t dataOffset a) a.size.toNat := by
  rw [rangesDisjoint_iff]
  intro p hpb hpa
  unfold inRange at hpb hpa
  have hmema := ((t.mem_getLiveAllocations a).mp ha).1
  have hmemb := ((t.mem_getLiveAllocations b).mp hb).1
  have hapart := hplaced.apart a hmema b hmemb fun he => by
    rw [he] at hab
    exact lt_irrefl _ hab
  have hinb := hplaced.inside b hmemb
  unfold rangesDisjoint at hapart
  obtain ⟨i, hi, hpi⟩ : ∃ i < b.size.toNat, p = planned t dataOffset b + i :=
    ⟨p - planned t dataOffset b, by omega, by omega⟩
  obtain ⟨j, hj, hpj⟩ : ∃ j < a.size.toNat, p = planned t dataOffset a + j :=
    ⟨p - planned t dataOffset a, by omega, by omega⟩
  -- mark the byte of `b` that lands on `p`; the byte of `a` that lands there is unmarked
  have hfromB := h (b.offset + i) b hb i hi
  have hfromA := h (b.offset + i) a ha j hj
  rw [← hpi, markAt_self n _ (by omega)] at hfromB
  rw [← hpj, hfromB] at hfromA
  exact markAt_ne n (b.offset + i) (a.offset + j) (by omega) hfromA.symm

theorem WellPlaced.sources_avoid (hplaced : WellPlaced t dataOffset n) {a : AllocationEntry}
    (ha : a ∈ t.allocations) {m₀ : PlannedMove} (hab : a.offset < m₀.1.offset) {pre post : List PlannedMove}
    (hsplit : orderedMoves t dataOffset = pre ++ m₀ :: post) :
    ∀ m ∈ pre.map PlannedMove.toMove ++ [PlannedMove.toMove m₀], ∀ p, inRange m.src m.len p →
      ¬ inRange a.offset a.size.toNat p := by
  intro m hm p hin hpa
  have hx : ∃ x ∈ orderedMoves t dataOffset, PlannedMove.toMove x = m ∧ a.offset < x.1.offset := by
    rw [hsplit]
    rcases List.mem_append.mp hm with hpre | hlast
    · obtain ⟨x, hx, hxm⟩ := List.mem_map.mp hpre
      have hsorted := orderedMoves_sorted t dataOffset
      rw [hsplit] at hsorted
      have hlt := (List.pairwise_append.mp hsorted).2.2 x hx _ List.mem_cons_self
      exact ⟨x, List.mem_append_left _ hx, hxm, lt_trans hab hlt⟩
    · exact ⟨m₀, List.mem_append_right _ List.mem_cons_self, (List.mem_singleton.mp hlast).symm, hab⟩
  obtain ⟨⟨c, q⟩, hx, rfl, hlt⟩ := hx
  have hc := ((mem_orderedMoves t dataOffset c q).mp hx).1
  have hne : c ≠ a := fun he => by
    rw [he] at hlt
    exact lt_irrefl _ hlt
  exact (rangesDisjoint_iff _ _ _ _).mp
    (hplaced.apart c ((t.mem_getLiveAllocations c).mp hc).1 a ha hne) p hin hpa

theorem old_disjoint_of_delivers (hplaced : WellPlaced t dataOffset n)
    (hfit : ∀ p ∈ orderedMoves t dataOffset, (PlannedMove.toMove p).Fits n)
    (a b : AllocationEntry) (ha : a ∈ t.getLiveAllocations) (hb : b ∈ t.getLiveAllocations)
    (hab : a.offset < b.offset) (h : ∀ p, Delivered t dataOffset (markAt n p)) :
    rangesDisjoint (planned t dataOffset b) b.size.toNat a.offset a.size.toNat := by
  rw [rangesDisjoint_iff]
  intro p hpb hpa
  have hmema := ((t.mem_getLiveAllocations a).mp ha).1
  have hmemb := ((t.mem_getLiveAllocations b).mp hb).1
  have hmoved : b.offset ≠ planned t dataOffset b := by
    intro hstay
    rw [← hstay] at hpb
    have hne : b ≠ a := fun he => by
      rw [he] at hab
      exact lt_irrefl _ hab
    exact (rangesDisjoint_iff _ _ _ _).mp (hplaced.apart b hmemb a hmema hne) p hpb hpa
  have hmem : (b, planned t dataOffset b) ∈ orderedMoves t dataOffset :=
    (mem_orderedMoves t dataOffset b _).mpr ⟨hb, rfl, hmoved⟩
  obtain ⟨pre, post, hsplit⟩ := List.append_of_mem hmem
  have hfits : ∀ m ∈ (orderedMoves t dataOffset).map PlannedMove.toMove,
      m.Fits (markAt n p).length := by
    intro m hm
    obtain ⟨x, hx, rfl⟩ := List.mem_map.mp hm
    rw [markAt_length]
    exact hfit x hx
  -- so none of the moves up to `b` reads the marked byte
  have hsrc := fun m hm hin => hplaced.sources_avoid hmema hab hsplit m hm p hin hpa
  have hlost := runMoves_loses _ (markAt n p) hfits 1 p (fun q hq => markAt_ne n p q hq)
    (pre.map PlannedMove.toMove) (post.map PlannedMove.toMove) _ (by rw [hsplit, List.map_append]; rfl)
    hsrc hpb
  unfold inRange at hpa
  have hina := hplaced.inside a hmema
  obtain ⟨i, hi, hpi⟩ : ∃ i < a.size.toNat, p = a.offset + i := ⟨p - a.offset, by omega, by omega⟩
  have hkept := h p a ha i hi
  rw [← hpi, markAt_self n p (by omega)] at hkept
  exact hlost _ hkept

/-- Compaction preserves live data, whatever the buffer holds, exactly when it is not performed or no
block lands on the old or new place of a lower one. -/
theorem execute_preserves_live_iff (hplaced : WellPlaced t dataOffset n) :
    (∀ buf : Bytes, buf.length = n → PreservesLive config t dataOffset buf) ↔
      shouldCompact config t = false ∨ OutOfBounds t dataOffset n ∨ NoClash t dataOffset := by
  constructor
  · intro h
    by_cases hgo : shouldCompact config t = true
    · by_cases hout : OutOfBounds t dataOffset n
      · exact .inr (.inl hout)
      · have hfit := orderedMoves_fit hplaced hout
        have hmark : ∀ p, Delivered t dataOffset (markAt n p) := by
          intro p
          refine (preservesLive_iff (markAt n p)).mp (h _ (markAt_length n p)) hgo ?_
          rw [markAt_length]
          exact hfit
        refine .inr (.inr fun a ha b hb hab => ⟨?_, ?_⟩)
        · exact old_disjoint_of_delivers hplaced hfit a b ha hb hab hmark
        · exact planned_disjoint_of_delivers hplaced a b ha hb hab hmark
    · exact .inl (by simpa using hgo)
  · intro h buf hlen
    rw [preservesLive_iff]
    intro hgo hfit
    rcases h with hno | hout | hclash
    · rw [hno] at hgo
      exact absurd hgo Bool.false_ne_true
    · obtain ⟨b, hb, hne, hlt⟩ := hout
      have hp : (b, planned t dataOffset b) ∈ orderedMoves t dataOffset :=
        (mem_orderedMoves t dataOffset b _).mpr ⟨hb, rfl, hne⟩
      have hbound := (hfit _ hp).2
      rw [hlen] at hbound
      exact absurd hlt (Nat.not_lt.mpr hbound)
    · exact moves_deliver hclash buf hfit

end Correctness

/-! ### Two layouts -/

def eagerConfig : CompactionConfig ℚ := ⟨1 / 5, 8, true⟩

/-- A dead block of 16 bytes, then live blocks of 8 bytes at 16 and 32. -/
def gapLayout : AllocationTracker :=
  (((AllocationTracker.new.recordAllocation 0 16).recordAllocation 16 8).recordAllocation 32 8).markDead
    0

/-- A dead block of 8 bytes, then two live blocks of 8 bytes right after it. -/
def tightLayout : AllocationTracker :=
  (((AllocationTracker.new.recordAllocation 0 8).recordAllocation 8 8).recordAllocation 16 8).markDead
    0

theorem gapLayout_wellPlaced : WellPlaced gapLayout 0 40 :=
  ⟨by decide, by decide, by decide, by decide⟩

theorem tightLayout_wellPlaced : WellPlaced tightLayout 0 24 :=
  ⟨by decide, by decide, by decide, by decide⟩

theorem gapLayout_preserved : shouldCompact eagerConfig gapLayout = true ∧
    ∀ buf : Bytes, buf.length = 40 → PreservesLive eagerConfig gapLayout 0 buf :=
  ⟨by decide +kernel,
    (execute_preserves_live_iff gapLayout_wellPlaced).mpr (.inr (.inr (by decide)))⟩

/-- The block at 16 moves to 8 before the block at 8 has been moved away. -/
theorem tightLayout_loses_a_block : WellPlaced tightLayout 0 24 ∧
    ¬ PreservesLive eagerConfig tightLayout 0
      (List.replicate 8 0 ++ List.replicate 8 1 ++ List.replicate 8 2) := by
  refine ⟨tightLayout_wellPlaced, fun h => ?_⟩
  have hkept := (preservesLive_iff _).mp h (by decide +kernel) (by decide) ⟨8, 8, 1, true⟩
    (by decide) 0 (by decide)
  exact absurd hkept (by decide)

end Xerv.Arena
