import Mathlib.Algebra.Order.BigOperators.Group.List
import Mathlib.Data.Nat.ModEq
import Xerv.Arena.Allocation
import Xerv.Lib.Machine

/-!
# The totals of the allocation tracker (`xerv-core/src/arena/allocation.rs`)

The tracker adds up what is recorded and what dies, apart from its map. Writing an entry over
another one, which the map allows and the totals do not notice, is where the two part.
-/

namespace Xerv.Arena
open Xerv.Lib.Machine

def AllocationEntry.bytes (e : AllocationEntry) : ℕ := e.size.toNat

def AllocationEntry.deadBytes (e : AllocationEntry) : ℕ := if e.live then 0 else e.size.toNat

def AllocationEntry.liveBytes (e : AllocationEntry) : ℕ := if e.live then e.size.toNat else 0

def weigh (w : AllocationEntry → ℕ) (es : List AllocationEntry) : ℕ := (es.map w).sum

/-- The entries that insertions one after the other replace. -/
def overwrittenBy : List AllocationEntry → List AllocationEntry → List AllocationEntry
  | [], _ => []
  | e :: new, es => es.filter (fun x => x.offset = e.offset) ++ overwrittenBy new (insertEntry e es)

inductive TrackerCall where
  | recordAllocation (offset : ℕ) (size : UInt32)
  | markDead (offset : ℕ)
  | updateOffset (oldOffset newOffset : ℕ)
  | rebuild (entries : List AllocationEntry)
  | clear
  deriving DecidableEq, Repr

namespace AllocationTracker

/-- The `u64` totals: a sum that wraps around is the residue of the sum that does not. -/
def allocatedCounter (t : AllocationTracker) : UInt64 := .ofNat t.totalAllocated

def deadCounter (t : AllocationTracker) : UInt64 := .ofNat t.totalDead

def next (t : AllocationTracker) : TrackerCall → AllocationTracker
  | .recordAllocation offset size => t.recordAllocation offset size
  | .markDead offset => t.markDead offset
  | .updateOffset oldOffset newOffset => t.updateOffset oldOffset newOffset
  | .rebuild entries => t.rebuild entries
  | .clear => t.clear

/-- The entries that a call replaces in the map. -/
def overwritten (t : AllocationTracker) : TrackerCall → List AllocationEntry
  | .recordAllocation offset size => overwrittenBy [⟨offset, size, t.generation, true⟩] t.allocations
  | .updateOffset oldOffset newOffset =>
    match t.allocations.find? fun e => e.offset = oldOffset with
    | none => []
    | some entry =>
      overwrittenBy [{ entry with offset := newOffset }] (t.allocations.filter fun e => e.offset ≠ oldOffset)
  | .rebuild entries => overwrittenBy entries []
  | _ => []

/-- The entries that a call finds in the map and keeps or moves, and those that it brings. -/
def carried (t : AllocationTracker) : TrackerCall → List AllocationEntry
  | .recordAllocation offset size => ⟨offset, size, t.generation, true⟩ :: t.allocations
  | .rebuild entries => entries
  | .clear => []
  | _ => t.allocations

/-- The totals are those of the entries, and `total_live` does not underflow. -/
structure Accounted (t : AllocationTracker) : Prop where
  allocated : t.allocatedCounter.toNat = weigh AllocationEntry.bytes t.allocations
  dead : t.deadCounter.toNat = weigh AllocationEntry.deadBytes t.allocations
  live : t.deadCounter ≤ t.allocatedCounter

/-- The call replaces no bytes, up to what a `u64` cannot tell from none, and what is not replaced fits a `u64`. -/
structure KeepsTotals (t : AllocationTracker) (call : TrackerCall) : Prop where
  bytes : 2 ^ 64 ∣ weigh AllocationEntry.bytes (t.overwritten call)
  deadBytes : 2 ^ 64 ∣ weigh AllocationEntry.deadBytes (t.overwritten call)
  fits : weigh AllocationEntry.bytes (t.carried call) < 2 ^ 64 + weigh AllocationEntry.bytes (t.overwritten call)

end AllocationTracker

/-! ### Sums over entries -/

section Weigh
variable (w : AllocationEntry → ℕ)

theorem weigh_cons (e : AllocationEntry) (es : List AllocationEntry) : weigh w (e :: es) = w e + weigh w es := by
  simp [weigh]

theorem weigh_append (es es' : List AllocationEntry) : weigh w (es ++ es') = weigh w es + weigh w es' := by
  simp [weigh]

theorem weigh_filter (p : AllocationEntry → Bool) (es : List AllocationEntry) :
    weigh w (es.filter p) + weigh w (es.filter fun e => !p e) = weigh w es := by
  induction es with
  | nil => rfl
  | cons e es ih =>
    rw [weigh_cons, List.filter_cons, List.filter_cons]
    cases hp : p e with
    | false =>
      simp only [Bool.false_eq_true, if_false, Bool.not_false, if_true, weigh_cons]
      omega
    | true =>
      simp only [if_true, Bool.not_true, Bool.false_eq_true, if_false, weigh_cons]
      omega

theorem weigh_insertEntry (e : AllocationEntry) (es : List AllocationEntry) :
    weigh w (insertEntry e es) + weigh w (es.filter fun x => x.offset = e.offset) = w e + weigh w es := by
  have hsplit := weigh_filter w (fun x => x.offset = e.offset) es
  unfold insertEntry
  simp only [← decide_not, weigh_cons, ne_eq] at hsplit ⊢
  omega

/-- What insertions add is in the map or replaced. -/
theorem weigh_insertions (new es : List AllocationEntry) :
    weigh w (new.foldl (fun acc e => insertEntry e acc) es) + weigh w (overwrittenBy new es) =
      weigh w new + weigh w es := by
  induction new generalizing es with
  | nil => simp [overwrittenBy, weigh]
  | cons e new ih =>
    have hrest := ih (insertEntry e es)
    have hinsert := weigh_insertEntry w e es
    rw [List.foldl_cons, overwrittenBy, weigh_append, weigh_cons]
    omega

end Weigh

/-! ### One call -/

namespace AllocationTracker
variable (t : AllocationTracker)

theorem killAt_bytes (offset : ℕ) (e : AllocationEntry) : (killAt offset e).bytes = e.bytes := by
  unfold killAt
  split <;> rfl

theorem weigh_killAt_bytes (offset : ℕ) (es : List AllocationEntry) :
    weigh AllocationEntry.bytes (es.map (killAt offset)) = weigh AllocationEntry.bytes es := by
  unfold weigh
  rw [List.map_map]
  exact congrArg List.sum (List.map_congr_left fun e _ => killAt_bytes offset e)

theorem weigh_killAt_deadBytes (offset : ℕ) (es : List AllocationEntry)
    (hdistinct : (es.map AllocationEntry.offset).Nodup) :
    weigh AllocationEntry.deadBytes (es.map (killAt offset)) = weigh AllocationEntry.deadBytes es +
      ((es.find? fun e => e.offset = offset && e.live).map fun e => e.size.toNat).getD 0 := by
  induction es with
  | nil => rfl
  | cons e es ih =>
    obtain ⟨hnotin, htail⟩ := List.nodup_cons.mp hdistinct
    rw [List.map_cons, weigh_cons, weigh_cons, List.find?_cons]
    by_cases hoffset : e.offset = offset
    · have hnone : es.find? (fun x => x.offset = offset && x.live) = none := by
        refine List.find?_eq_none.mpr fun x hx hfound => hnotin ?_
        have hx' := (Bool.and_eq_true_iff.mp hfound).1
        rw [hoffset, ← of_decide_eq_true hx']
        exact List.mem_map_of_mem hx
      rw [ih htail, hnone]
      cases hlive : e.live with
      | false => simp [killAt, hoffset, hlive, AllocationEntry.deadBytes]
      | true =>
        simp [killAt, hoffset, hlive, AllocationEntry.deadBytes]
        omega
    · rw [ih htail]
      simp [killAt, hoffset]
      omega

theorem filter_offset {offset : ℕ} {entry : AllocationEntry} {es : List AllocationEntry}
    (hdistinct : (es.map AllocationEntry.offset).Nodup)
    (hfind : (es.find? fun e => e.offset = offset) = some entry) :
    (es.filter fun e => e.offset = offset) = [entry] := by
  induction es with
  | nil => cases hfind
  | cons e es ih =>
    obtain ⟨hnotin, htail⟩ := List.nodup_cons.mp hdistinct
    rw [List.find?_cons] at hfind
    by_cases hoffset : e.offset = offset
    · simp only [hoffset, decide_true, Option.some.injEq] at hfind
      subst hfind
      have hnone : (es.filter fun x => x.offset = offset) = [] := by
        refine List.filter_eq_nil_iff.mpr fun x hx hfound => hnotin ?_
        rw [hoffset, ← of_decide_eq_true hfound]
        exact List.mem_map_of_mem hx
      rw [List.filter_cons, if_pos (decide_eq_true hoffset), hnone]
    · simp only [hoffset, decide_false] at hfind
      rw [List.filter_cons, if_neg (by simpa using hoffset), ih htail hfind]

theorem weigh_updateOffset (w : AllocationEntry → ℕ) (hmove : ∀ e offset, w { e with offset := offset } = w e)
    (oldOffset newOffset : ℕ) : weigh w (t.updateOffset oldOffset newOffset).allocations +
      weigh w (t.overwritten (.updateOffset oldOffset newOffset)) = weigh w t.allocations := by
  cases hfind : t.allocations.find? fun e => e.offset = oldOffset with
  | none =>
    simp only [updateOffset, overwritten, hfind]
    rfl
  | some entry =>
    have hinsert := weigh_insertions w [{ entry with offset := newOffset }]
      (t.allocations.filter fun e => e.offset ≠ oldOffset)
    have hsplit := weigh_filter w (fun e => e.offset = oldOffset) t.allocations
    rw [filter_offset t.distinct hfind] at hsplit
    rw [weigh_cons, hmove] at hinsert
    rw [weigh_cons] at hsplit
    simp only [updateOffset, overwritten, hfind]
    simp only [← decide_not, ne_eq] at hsplit hinsert ⊢
    exact hinsert.trans hsplit

theorem weigh_deadBytes (es : List AllocationEntry) :
    ((es.filter fun e => !e.live).map fun e => e.size.toNat).sum = weigh AllocationEntry.deadBytes es := by
  induction es with
  | nil => rfl
  | cons e es ih =>
    rw [weigh_cons, List.filter_cons, ← ih]
    cases hlive : e.live with
    | false => simp [AllocationEntry.deadBytes, hlive]
    | true => simp [AllocationEntry.deadBytes, hlive]

theorem weigh_record (w : AllocationEntry → ℕ) (offset : ℕ) (size : UInt32) :
    weigh w (t.next (.recordAllocation offset size)).allocations +
      weigh w (t.overwritten (.recordAllocation offset size)) =
        w ⟨offset, size, t.generation, true⟩ + weigh w t.allocations :=
  weigh_insertions w [⟨offset, size, t.generation, true⟩] t.allocations

theorem weigh_rebuild (w : AllocationEntry → ℕ) (entries : List AllocationEntry) :
    weigh w (t.next (.rebuild entries)).allocations + weigh w (t.overwritten (.rebuild entries)) = weigh w entries :=
  weigh_insertions w entries []

theorem updateOffset_totals (oldOffset newOffset : ℕ) :
    (t.updateOffset oldOffset newOffset).totalAllocated = t.totalAllocated ∧
      (t.updateOffset oldOffset newOffset).totalDead = t.totalDead := by
  unfold updateOffset
  split
  · exact ⟨rfl, rfl⟩
  · exact ⟨rfl, rfl⟩

/-- What a call finds or brings is in the map behind it or replaced. -/
theorem weigh_next (call : TrackerCall) : weigh AllocationEntry.bytes (t.next call).allocations +
    weigh AllocationEntry.bytes (t.overwritten call) = weigh AllocationEntry.bytes (t.carried call) := by
  cases call with
  | recordAllocation offset size => rw [weigh_record, carried, weigh_cons]
  | markDead offset => exact weigh_killAt_bytes offset t.allocations
  | updateOffset oldOffset newOffset => exact weigh_updateOffset t _ (fun _ _ => rfl) oldOffset newOffset
  | rebuild entries => exact weigh_rebuild t _ entries
  | clear => rfl

/-- Behind a call, `total_allocated` counts the entries and those that the call has replaced. -/
theorem next_allocated (call : TrackerCall)
    (h : t.totalAllocated ≡ weigh AllocationEntry.bytes t.allocations [MOD 2 ^ 64]) :
    (t.next call).totalAllocated ≡ weigh AllocationEntry.bytes (t.next call).allocations +
      weigh AllocationEntry.bytes (t.overwritten call) [MOD 2 ^ 64] := by
  rw [weigh_next]
  cases call with
  | recordAllocation offset size =>
    rw [carried, weigh_cons, Nat.add_comm]
    exact h.add_right size.toNat
  | markDead offset => exact h
  | updateOffset oldOffset newOffset =>
    change (t.updateOffset oldOffset newOffset).totalAllocated ≡ _ [MOD _]
    rw [(updateOffset_totals t oldOffset newOffset).1]
    exact h
  | rebuild entries => rfl
  | clear => rfl

theorem next_dead (call : TrackerCall)
    (h : t.totalDead ≡ weigh AllocationEntry.deadBytes t.allocations [MOD 2 ^ 64]) :
    (t.next call).totalDead ≡ weigh AllocationEntry.deadBytes (t.next call).allocations +
      weigh AllocationEntry.deadBytes (t.overwritten call) [MOD 2 ^ 64] := by
  cases call with
  | recordAllocation offset size =>
    have hlive : AllocationEntry.deadBytes ⟨offset, size, t.generation, true⟩ = 0 := rfl
    rw [weigh_record, hlive, Nat.zero_add]
    exact h
  | markDead offset =>
    change t.totalDead + _ ≡ weigh _ (t.allocations.map (killAt offset)) + 0 [MOD _]
    rw [weigh_killAt_deadBytes offset t.allocations t.distinct]
    exact h.add_right _
  | updateOffset oldOffset newOffset =>
    have hmove := weigh_updateOffset t AllocationEntry.deadBytes (fun _ _ => rfl) oldOffset newOffset
    change (t.updateOffset oldOffset newOffset).totalDead ≡
      weigh _ (t.updateOffset oldOffset newOffset).allocations + _ [MOD _]
    rw [hmove, (updateOffset_totals t oldOffset newOffset).2]
    exact h
  | rebuild entries =>
    rw [weigh_rebuild, ← weigh_deadBytes]
    rfl
  | clear => rfl

theorem weigh_deadBytes_le (es : List AllocationEntry) :
    weigh AllocationEntry.deadBytes es ≤ weigh AllocationEntry.bytes es := by
  refine List.sum_le_sum fun e _ => ?_
  unfold AllocationEntry.deadBytes
  split
  · exact Nat.zero_le _
  · exact Nat.le_refl _

theorem weigh_bytes (es : List AllocationEntry) : weigh AllocationEntry.bytes es =
    weigh AllocationEntry.liveBytes es + weigh AllocationEntry.deadBytes es := by
  induction es with
  | nil => rfl
  | cons e es ih =>
    have hentry : e.bytes = e.liveBytes + e.deadBytes := by
      cases hlive : e.live with
      | false => simp [AllocationEntry.bytes, AllocationEntry.liveBytes, AllocationEntry.deadBytes, hlive]
      | true => simp [AllocationEntry.bytes, AllocationEntry.liveBytes, AllocationEntry.deadBytes, hlive]
    simp only [weigh_cons]
    omega

theorem next_live (call : TrackerCall)
    (h : t.totalDead + weigh AllocationEntry.liveBytes t.allocations ≤ t.totalAllocated) :
    (t.next call).totalDead + weigh AllocationEntry.liveBytes (t.next call).allocations ≤
      (t.next call).totalAllocated := by
  cases call with
  | recordAllocation offset size =>
    have hrecord := weigh_record t AllocationEntry.liveBytes offset size
    have hlive : AllocationEntry.liveBytes ⟨offset, size, t.generation, true⟩ = size.toNat := rfl
    have htotals : (t.next (.recordAllocation offset size)).totalAllocated = t.totalAllocated + size.toNat ∧
        (t.next (.recordAllocation offset size)).totalDead = t.totalDead := ⟨rfl, rfl⟩
    omega
  | markDead offset =>
    have hbytes := weigh_killAt_bytes offset t.allocations
    have hdead := weigh_killAt_deadBytes offset t.allocations t.distinct
    rw [weigh_bytes, weigh_bytes] at hbytes
    change t.totalDead + _ + weigh _ (t.allocations.map (killAt offset)) ≤ t.totalAllocated
    omega
  | updateOffset oldOffset newOffset =>
    have hmove := weigh_updateOffset t AllocationEntry.liveBytes (fun _ _ => rfl) oldOffset newOffset
    obtain ⟨hallocated, hdead⟩ := updateOffset_totals t oldOffset newOffset
    simp only [next]
    omega
  | rebuild entries =>
    have hrebuild := weigh_rebuild t AllocationEntry.liveBytes entries
    have hbytes := weigh_bytes entries
    rw [← weigh_deadBytes] at hbytes
    have htotals : (t.next (.rebuild entries)).totalAllocated = weigh AllocationEntry.bytes entries ∧
        (t.next (.rebuild entries)).totalDead =
          ((entries.filter fun e => !e.live).map fun e => e.size.toNat).sum := ⟨rfl, rfl⟩
    omega
  | clear => exact Nat.le_refl 0

theorem residue_eq_iff {count kept lost : ℕ} (h : count ≡ kept + lost [MOD 2 ^ 64]) :
    (UInt64.ofNat count).toNat = kept ↔ 2 ^ 64 ∣ lost ∧ kept < 2 ^ 64 := by
  have hcount : count % 2 ^ 64 = (kept + lost) % 2 ^ 64 := h
  rw [UInt64.toNat_ofNat', hcount]
  omega

/-- The totals stay those of the entries exactly where the call replaces no bytes and what is left fits. -/
theorem Accounted.next_iff {t : AllocationTracker} (h : t.Accounted) (call : TrackerCall) :
    (t.next call).Accounted ↔ t.KeepsTotals call := by
  have hresidue {count kept : ℕ} (hcount : (UInt64.ofNat count).toNat = kept) : count ≡ kept [MOD 2 ^ 64] := by
    rw [UInt64.toNat_ofNat'] at hcount
    rw [← hcount]
    exact (Nat.mod_modEq _ _).symm
  have hallocated := residue_eq_iff (t.next_allocated call (hresidue h.allocated))
  have hdead := residue_eq_iff (t.next_dead call (hresidue h.dead))
  have hnext := t.weigh_next call
  constructor
  · intro haccounted
    obtain ⟨hbytes, hfits⟩ := hallocated.mp haccounted.allocated
    exact ⟨hbytes, (hdead.mp haccounted.dead).1, by omega⟩
  · intro hkeeps
    have hfits : weigh AllocationEntry.bytes (t.next call).allocations < 2 ^ 64 := by
      have := hkeeps.fits
      omega
    have hle := weigh_deadBytes_le (t.next call).allocations
    have hcounted := hallocated.mpr ⟨hkeeps.bytes, hfits⟩
    have hdied := hdead.mpr ⟨hkeeps.deadBytes, Nat.lt_of_le_of_lt hle hfits⟩
    refine ⟨hcounted, hdied, UInt64.le_iff_toNat_le.mpr ?_⟩
    exact hdied.trans_le (hle.trans_eq hcounted.symm)

end AllocationTracker

/-- Over any history of calls, the totals are those of the tracked entries in every state reached if and only if no
call replaces entries that have bytes and what is not replaced fits a `u64`. -/
theorem accounted_iff (calls : List TrackerCall) :
    (∀ before, before <+: calls → (before.foldl AllocationTracker.next .new).Accounted) ↔
      ∀ before call, before ++ [call] <+: calls →
        (before.foldl AllocationTracker.next .new).KeepsTotals call :=
  foldl_throughout _ _ _ (fun _ call h => h.next_iff call) calls ⟨rfl, rfl, by decide⟩

/-- As long as no sum has wrapped around, `total_live` does not underflow, whatever is replaced. -/
theorem dead_le_allocated (calls : List TrackerCall) : (calls.foldl AllocationTracker.next .new).totalDead ≤
    (calls.foldl AllocationTracker.next .new).totalAllocated := by
  suffices h : (calls.foldl AllocationTracker.next .new).totalDead +
      weigh AllocationEntry.liveBytes (calls.foldl AllocationTracker.next .new).allocations ≤
        (calls.foldl AllocationTracker.next .new).totalAllocated from (Nat.le_add_right _ _).trans h
  induction calls using List.reverseRecOn with
  | nil => exact Nat.le_refl 0
  | append_singleton calls call ih =>
    rw [foldl_concat]
    exact AllocationTracker.next_live _ call ih

/-- An offset that is recorded twice counts twice; one that is recorded again after its death stays dead as well. -/
theorem recorded_twice :
    ¬ ([.recordAllocation 0 8, .recordAllocation 0 8].foldl AllocationTracker.next .new).Accounted ∧
    ¬ ([.recordAllocation 0 8, .markDead 0, .recordAllocation 0 8].foldl AllocationTracker.next .new).Accounted :=
  ⟨fun h => absurd h.allocated (by decide), fun h => absurd h.dead (by decide)⟩

end Xerv.Arena
