import Mathlib.Algebra.Order.BigOperators.Group.List
import Xerv.Arena.Compaction

/-!
# Compaction planning (`xerv-core/src/arena/compaction.rs`)

What `plan` promises of live allocations that lie apart, and what becomes of it where the sum in
`align_size` wraps around, or where an empty allocation lies inside another one.
-/

namespace Xerv.Arena
open Xerv.Lib

def roundedSize (size : UInt32) : ℕ := alignOffset size.toNat

/-- The offset after the moves of a plan; what is not moved keeps its own. -/
def CompactionPlan.newOffset (p : CompactionPlan) (e : AllocationEntry) : ℕ :=
  ((p.moves.find? fun move => move.1.offset = e.offset).map Prod.snd).getD e.offset

def AllocationTracker.spaceBelow (t : AllocationTracker) (offset : ℕ) : ℕ :=
  ((t.getLiveAllocations.filter fun a => a.offset < offset).map fun a => roundedSize a.size).sum

/-- The live allocations are aligned, lie behind an aligned data start, and no two of them share a byte, with
their rounded sizes. -/
structure Packable (t : AllocationTracker) (dataOffset : ℕ) : Prop where
  start : 8 ∣ dataOffset
  aligned : ∀ e ∈ t.getLiveAllocations, 8 ∣ e.offset
  above : ∀ e ∈ t.getLiveAllocations, dataOffset ≤ e.offset
  apart : ∀ a ∈ t.getLiveAllocations, ∀ b ∈ t.getLiveAllocations, a ≠ b →
    rangesDisjoint a.offset (roundedSize a.size) b.offset (roundedSize b.size)

/-- The new regions are aligned, apart and in the old order, none lies above its old one, and together they take no
more than the rounded sizes and no more than the old ones. -/
structure Packed (t : AllocationTracker) (dataOffset : ℕ) : Prop where
  aligned : ∀ e ∈ t.getLiveAllocations, 8 ∣ (plan t dataOffset).newOffset e
  ordered : ∀ a ∈ t.getLiveAllocations, ∀ b ∈ t.getLiveAllocations, a.offset < b.offset →
    (plan t dataOffset).newOffset a + roundedSize a.size ≤ (plan t dataOffset).newOffset b
  lower : ∀ e ∈ t.getLiveAllocations, (plan t dataOffset).newOffset e ≤ e.offset
  writePos : (plan t dataOffset).newWritePos =
    dataOffset + (t.getLiveAllocations.map fun e => roundedSize e.size).sum
  bounded : ∀ last ∈ t.getLiveAllocations.getLast?,
    (plan t dataOffset).newWritePos ≤ alignOffset (last.offset + last.size.toNat)

/-- No size is too large for its sum, and what lies below an empty allocation fits between the data start and it. -/
structure PlanFits (t : AllocationTracker) (dataOffset : ℕ) : Prop where
  sizes : ∀ e ∈ t.getLiveAllocations, e.size.toNat ≤ 2 ^ 32 - 8
  empty : ∀ e ∈ t.getLiveAllocations, e.size = 0 → dataOffset + t.spaceBelow e.offset ≤ e.offset

/-! ### Sizes -/

theorem alignSize_eq {size : UInt32} (h : size.toNat ≤ 2 ^ 32 - 8) : alignSize size = roundedSize size := by
  unfold alignSize roundedSize alignOffset
  omega

theorem alignSize_lt {size : UInt32} (h : ¬ size.toNat ≤ 2 ^ 32 - 8) : alignSize size < roundedSize size := by
  have hsize := size.toNat_lt
  unfold alignSize roundedSize alignOffset
  omega

theorem alignSize_le (size : UInt32) : alignSize size ≤ roundedSize size := by
  by_cases h : size.toNat ≤ 2 ^ 32 - 8
  · exact Nat.le_of_eq (alignSize_eq h)
  · exact Nat.le_of_lt (alignSize_lt h)

theorem size_eq_zero_iff (size : UInt32) : size = 0 ↔ roundedSize size = 0 := by
  rw [← UInt32.toNat_inj]
  unfold roundedSize alignOffset
  show size.toNat = 0 ↔ _
  omega

theorem alignOffset_end {offset : ℕ} (h : 8 ∣ offset) (size : UInt32) :
    alignOffset (offset + size.toNat) = offset + roundedSize size := by
  unfold roundedSize alignOffset
  omega

/-! ### Offsets -/

section Offsets
variable {live : List AllocationEntry} {pos : ℕ}

theorem planLoop_final (hpos : 8 ∣ pos) :
    (planLoop pos live).2 = pos + (live.map fun e => alignSize e.size).sum := by
  induction live generalizing pos with
  | nil => rfl
  | cons a rest ih =>
    rw [planLoop, alignOffset_of_dvd pos hpos]
    dsimp only
    rw [ih (Nat.dvd_add hpos (alignSize_dvd a.size)), List.map_cons, List.sum_cons, Nat.add_assoc]

theorem sizeBelow_step (hsorted : live.Pairwise fun a b => a.offset < b.offset) {a b : AllocationEntry}
    (ha : a ∈ live) (hb : b ∈ live) (hlt : a.offset < b.offset) :
    sizeBelow live a + alignSize a.size ≤ sizeBelow live b := by
  induction live with
  | nil => exact absurd ha List.not_mem_nil
  | cons x rest ih =>
    obtain ⟨hhead, htail⟩ := List.pairwise_cons.mp hsorted
    have hbrest : b ∈ rest := by
      rcases List.mem_cons.mp hb with rfl | hbrest
      · rcases List.mem_cons.mp ha with rfl | harest
        · exact absurd hlt (Nat.lt_irrefl _)
        · exact absurd (hhead a harest) (Nat.lt_asymm hlt)
      · exact hbrest
    rw [sizeBelow_tail hhead hbrest]
    rcases List.mem_cons.mp ha with rfl | harest
    · rw [sizeBelow_head hhead]
      omega
    · rw [sizeBelow_tail hhead harest]
      have hstep := ih htail harest hbrest
      omega

/-- Blocks that lie apart fit below each other's old offsets. An empty one takes no space, and has none of its own. -/
theorem sizeBelow_fits (hsorted : live.Pairwise fun a b => a.offset < b.offset)
    (hapart : live.Pairwise fun a b =>
      alignSize a.size = 0 ∨ alignSize b.size = 0 ∨ a.offset + alignSize a.size ≤ b.offset)
    (hpos : ∀ e ∈ live, alignSize e.size ≠ 0 → pos ≤ e.offset) :
    ∀ b ∈ live, alignSize b.size ≠ 0 → pos + sizeBelow live b ≤ b.offset := by
  induction live generalizing pos with
  | nil => exact fun b hb => absurd hb List.not_mem_nil
  | cons a rest ih =>
    obtain ⟨hhead, htail⟩ := List.pairwise_cons.mp hsorted
    obtain ⟨hends, happart'⟩ := List.pairwise_cons.mp hapart
    intro b hb hsize
    rcases List.mem_cons.mp hb with rfl | hbrest
    · rw [sizeBelow_head hhead]
      exact hpos b List.mem_cons_self hsize
    · rw [sizeBelow_tail hhead hbrest]
      by_cases hempty : alignSize a.size = 0
      · have hrest := ih htail happart' (fun e he => hpos e (List.mem_cons_of_mem _ he)) b hbrest hsize
        omega
      · have ha := hpos a List.mem_cons_self hempty
        have hrest : a.offset + alignSize a.size + sizeBelow rest b ≤ b.offset :=
          ih htail happart' (fun e he he' => ((hends e he).resolve_left hempty).resolve_left he') b hbrest hsize
        omega

theorem sizeBelow_last (hsorted : live.Pairwise fun a b => a.offset < b.offset) :
    ∀ last ∈ live.getLast?, (live.map fun e => alignSize e.size).sum = sizeBelow live last + alignSize last.size := by
  induction live with
  | nil => exact fun last hlast => absurd hlast (by simp)
  | cons a rest ih =>
    obtain ⟨hhead, htail⟩ := List.pairwise_cons.mp hsorted
    intro last hlast
    rw [List.map_cons, List.sum_cons]
    cases rest with
    | nil =>
      rw [List.getLast?_singleton] at hlast
      obtain rfl := Option.some.inj hlast
      rw [sizeBelow_head hhead]
      simp
    | cons b rest =>
      rw [List.getLast?_cons_cons] at hlast
      rw [sizeBelow_tail hhead (List.mem_of_getLast? hlast), ih htail last hlast]
      omega

end Offsets

section Plan
variable {t : AllocationTracker} {dataOffset : ℕ}

theorem plan_newOffset (e : AllocationEntry) (he : e ∈ t.getLiveAllocations) :
    (plan t dataOffset).newOffset e = planned t dataOffset e := by
  have hmoves (b : AllocationEntry) (q : ℕ) : (b, q) ∈ (plan t dataOffset).moves ↔
      b ∈ t.getLiveAllocations ∧ q = planned t dataOffset b ∧ b.offset ≠ q :=
    mem_planLoop dataOffset _ t.getLiveAllocations_sorted b q
  unfold CompactionPlan.newOffset
  cases hfind : (plan t dataOffset).moves.find? fun move => move.1.offset = e.offset with
  | none =>
    by_contra hmoved
    have hmove := (hmoves e _).mpr ⟨he, rfl, hmoved⟩
    exact absurd rfl (of_decide_eq_false (Bool.eq_false_iff.mpr (List.find?_eq_none.mp hfind _ hmove)))
  | some move =>
    obtain ⟨b, q⟩ := move
    obtain ⟨hb, hq, -⟩ := (hmoves b q).mp (List.mem_of_find?_eq_some hfind)
    have hsame := List.find?_some hfind
    have hoffset : b.offset = e.offset := of_decide_eq_true hsame
    obtain rfl := t.eq_of_offset b e ((t.mem_getLiveAllocations b).mp hb).1 ((t.mem_getLiveAllocations e).mp he).1
      hoffset
    exact hq

theorem plan_writePos (h : Packable t dataOffset) : (plan t dataOffset).newWritePos =
    dataOffset + (t.getLiveAllocations.map fun e => alignSize e.size).sum :=
  planLoop_final h.start

theorem planned_eq (h : Packable t dataOffset) (e : AllocationEntry) :
    planned t dataOffset e = dataOffset + sizeBelow t.getLiveAllocations e := by
  rw [planned, alignOffset_of_dvd _ h.start]

theorem sizeBelow_eq (hsizes : ∀ e ∈ t.getLiveAllocations, e.size.toNat ≤ 2 ^ 32 - 8) (e : AllocationEntry) :
    sizeBelow t.getLiveAllocations e = t.spaceBelow e.offset :=
  congrArg List.sum (List.map_congr_left fun a ha => alignSize_eq (hsizes a (List.mem_filter.mp ha).1))

theorem Packable.lower (h : Packable t dataOffset) (hfits : PlanFits t dataOffset) {e : AllocationEntry}
    (he : e ∈ t.getLiveAllocations) : planned t dataOffset e ≤ e.offset := by
  have hsorted := t.getLiveAllocations_sorted
  have hapart : t.getLiveAllocations.Pairwise fun a b =>
      alignSize a.size = 0 ∨ alignSize b.size = 0 ∨ a.offset + alignSize a.size ≤ b.offset := by
    refine hsorted.imp_of_mem fun ha hb hlt => ?_
    have hranges := h.apart _ ha _ hb fun hab => by
      rw [hab] at hlt
      exact Nat.lt_irrefl _ hlt
    rw [alignSize_eq (hfits.sizes _ ha), alignSize_eq (hfits.sizes _ hb)]
    unfold rangesDisjoint at hranges
    omega
  rw [planned_eq h]
  by_cases hsize : alignSize e.size = 0
  · rw [alignSize_eq (hfits.sizes e he)] at hsize
    rw [sizeBelow_eq hfits.sizes]
    exact hfits.empty e he ((size_eq_zero_iff e.size).mpr hsize)
  · exact sizeBelow_fits hsorted hapart (fun a ha _ => h.above a ha) e he hsize

theorem Packable.packed (h : Packable t dataOffset) (hfits : PlanFits t dataOffset) : Packed t dataOffset := by
  have hsorted := t.getLiveAllocations_sorted
  have hsum : (t.getLiveAllocations.map fun e => alignSize e.size) =
      t.getLiveAllocations.map fun e => roundedSize e.size :=
    List.map_congr_left fun e he => alignSize_eq (hfits.sizes e he)
  refine ⟨?_, ?_, ?_, ?_, ?_⟩
  · intro e he
    rw [plan_newOffset e he, planned_eq h]
    refine Nat.dvd_add h.start (List.dvd_sum fun size hsize => ?_)
    obtain ⟨a, -, rfl⟩ := List.mem_map.mp hsize
    exact alignSize_dvd a.size
  · intro a ha b hb hlt
    have hstep := sizeBelow_step hsorted ha hb hlt
    rw [plan_newOffset a ha, plan_newOffset b hb, planned_eq h, planned_eq h, ← alignSize_eq (hfits.sizes a ha)]
    omega
  · intro e he
    rw [plan_newOffset e he]
    exact h.lower hfits he
  · rw [plan_writePos h, hsum]
  · intro last hlast
    have hmem := List.mem_of_getLast? hlast
    have hlower := h.lower hfits hmem
    rw [planned_eq h] at hlower
    rw [alignOffset_end (h.aligned last hmem), plan_writePos h, ← alignSize_eq (hfits.sizes last hmem),
      sizeBelow_last hsorted last hlast]
    omega

/-- For live allocations that lie apart, `plan` packs them in their order, none of them upwards, if and only if no
live allocation is larger than `2^32 - 8` bytes, behind which `align_size` wraps around, and no empty one has less
space below it than the plan puts there. -/
theorem plan_packed_iff (t : AllocationTracker) (dataOffset : ℕ) (h : Packable t dataOffset) :
    Packed t dataOffset ↔ PlanFits t dataOffset := by
  constructor
  · intro hpacked
    have hsizes : ∀ e ∈ t.getLiveAllocations, e.size.toNat ≤ 2 ^ 32 - 8 := by
      intro e he
      by_contra hlarge
      have hless : (t.getLiveAllocations.map fun e => alignSize e.size).sum <
          (t.getLiveAllocations.map fun e => roundedSize e.size).sum :=
        List.sum_lt_sum _ _ (fun a _ => alignSize_le a.size) ⟨e, he, alignSize_lt hlarge⟩
      have hwrite := hpacked.writePos
      rw [plan_writePos h] at hwrite
      omega
    refine ⟨hsizes, fun e he _ => ?_⟩
    have hlower := hpacked.lower e he
    rw [plan_newOffset e he, planned_eq h, sizeBelow_eq hsizes] at hlower
    exact hlower
  · exact h.packed

theorem plan_packs_gap : Packed gapLayout 0 :=
  (plan_packed_iff gapLayout 0 ⟨by decide, by decide, by decide, by decide⟩).mpr ⟨by decide, by decide⟩

/-- A block of `2^32 - 1` bytes, and one of 8 bytes right behind its rounded size. -/
def largeLayout : AllocationTracker :=
  (AllocationTracker.new.recordAllocation 0 4294967295).recordAllocation 4294967296 8

def nestedLayout : AllocationTracker := (AllocationTracker.new.recordAllocation 0 16).recordAllocation 8 0

/-- The large block takes no space in the plan, and the small one is moved onto it. The empty block is planned
behind the block that it lies in. -/
theorem largeLayout_overlaps :
    (Packable largeLayout 0 ∧ ¬ Packed largeLayout 0 ∧ (plan largeLayout 0).newWritePos = 8 ∧
      ∀ e ∈ largeLayout.getLiveAllocations, (plan largeLayout 0).newOffset e = 0) ∧
    Packable nestedLayout 0 ∧ ¬ Packed nestedLayout 0 := by
  refine ⟨⟨⟨by decide, by decide, by decide, by decide⟩, fun hpacked => ?_, by decide, by decide⟩,
    ⟨by decide, by decide, by decide, by decide⟩, fun hpacked => ?_⟩
  · have hwrite := hpacked.writePos
    revert hwrite
    decide
  · have hlower := hpacked.lower
    revert hlower
    decide

end Plan

end Xerv.Arena
