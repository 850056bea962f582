import Mathlib.Data.List.Nodup
import Mathlib.Data.List.Sort
import Xerv.Core.Types

/-!
# Allocation tracking (`xerv-core/src/arena/allocation.rs`)

The tracker's hash map is keyed by the offset of the entry it holds, so it is a
list of entries with distinct offsets; the list order is the map's iteration
order. Offsets and byte totals are natural numbers: an arena is smaller than
`2^63` bytes.

Fragmentation is a quotient of two totals compared with a threshold. The number
type `F` stands for `f64`.
-/

namespace Xerv.Arena

structure AllocationEntry where
  offset : ℕ
  size : UInt32
  generation : UInt32
  live : Bool
  deriving DecidableEq, Repr

structure AllocationTracker where
  allocations : List AllocationEntry
  distinct : (allocations.map AllocationEntry.offset).Nodup
  generation : UInt32
  totalAllocated : ℕ
  totalDead : ℕ

/-- `HashMap::insert` under the entry's own offset. -/
def insertEntry (e : AllocationEntry) (es : List AllocationEntry) : List AllocationEntry :=
  e :: es.filter fun x => x.offset ≠ e.offset

theorem insertEntry_distinct (e : AllocationEntry) (es : List AllocationEntry)
    (h : (es.map AllocationEntry.offset).Nodup) :
    ((insertEntry e es).map AllocationEntry.offset).Nodup := by
  unfold insertEntry
  rw [List.map_cons, List.nodup_cons]
  refine ⟨?_, h.sublist (List.filter_sublist.map _)⟩
  intro hmem
  obtain ⟨x, hx, hoff⟩ := List.mem_map.mp hmem
  simp [hoff] at hx

namespace AllocationTracker

def new : AllocationTracker := ⟨[], List.nodup_nil, 1, 0, 0⟩

def recordAllocation (t : AllocationTracker) (offset : ℕ) (size : UInt32) : AllocationTracker where
  allocations := insertEntry ⟨offset, size, t.generation, true⟩ t.allocations
  distinct := insertEntry_distinct _ _ t.distinct
  generation := t.generation
  totalAllocated := t.totalAllocated + size.toNat
  totalDead := t.totalDead

def killAt (offset : ℕ) (e : AllocationEntry) : AllocationEntry :=
  if e.offset = offset then { e with live := false } else e

theorem killAt_offset (offset : ℕ) (e : AllocationEntry) : (killAt offset e).offset = e.offset := by
  unfold killAt
  split <;> rfl

def markDead (t : AllocationTracker) (offset : ℕ) : AllocationTracker where
  allocations := t.allocations.map (killAt offset)
  distinct := by
    have hmap : AllocationEntry.offset ∘ killAt offset = AllocationEntry.offset :=
      funext (killAt_offset offset)
    rw [List.map_map, hmap]
    exact t.distinct
  generation := t.generation
  totalAllocated := t.totalAllocated
  totalDead := t.totalDead +
    ((t.allocations.find? fun e => e.offset = offset && e.live).map fun e => e.size.toNat).getD 0

/-- `get_live_allocations`, sorted by offset. -/
def getLiveAllocations (t : AllocationTracker) : List AllocationEntry :=
  (t.allocations.filter (·.live)).insertionSort fun a b => a.offset ≤ b.offset

/-- `increment_generation`: the counter wraps. -/
def incrementGeneration (t : AllocationTracker) : AllocationTracker :=
  { t with generation := t.generation + 1 }

def totalLive (t : AllocationTracker) : ℕ := t.totalAllocated - t.totalDead

section Fragmentation
variable {F : Type} [NatCast F] [Div F] [Zero F]

def fragmentationRatio (t : AllocationTracker) : F :=
  if t.totalAllocated = 0 then 0 else (t.totalDead : F) / (t.totalAllocated : F)

end Fragmentation

theorem foldl_insertEntry_distinct (new es : List AllocationEntry)
    (h : (es.map AllocationEntry.offset).Nodup) :
    ((new.foldl (fun acc e => insertEntry e acc) es).map AllocationEntry.offset).Nodup := by
  induction new generalizing es with
  | nil => exact h
  | cons e new ih => exact ih _ (insertEntry_distinct e es h)

def rebuild (t : AllocationTracker) (entries : List AllocationEntry) : AllocationTracker where
  allocations := entries.foldl (fun acc e => insertEntry e acc) []
  distinct := foldl_insertEntry_distinct entries [] List.nodup_nil
  generation := t.generation
  totalAllocated := (entries.map fun e => e.size.toNat).sum
  totalDead := ((entries.filter fun e => !e.live).map fun e => e.size.toNat).sum

/-- `clear`: the generation stays. -/
def clear (t : AllocationTracker) : AllocationTracker := ⟨[], List.nodup_nil, t.generation, 0, 0⟩

def updateOffset (t : AllocationTracker) (oldOffset newOffset : ℕ) : AllocationTracker :=
  match t.allocations.find? fun e => e.offset = oldOffset with
  | none => t
  | some entry =>
    { t with
      allocations := insertEntry { entry with offset := newOffset } (t.allocations.filter fun e => e.offset ≠ oldOffset)
      distinct := insertEntry_distinct _ _ (t.distinct.sublist (List.filter_sublist.map _)) }

theorem mem_getLiveAllocations (t : AllocationTracker) (e : AllocationEntry) :
    e ∈ t.getLiveAllocations ↔ e ∈ t.allocations ∧ e.live = true := by
  rw [getLiveAllocations, List.mem_insertionSort, List.mem_filter]

theorem getLiveAllocations_sorted (t : AllocationTracker) :
    t.getLiveAllocations.Pairwise fun a b => a.offset < b.offset := by
  have htotal : Std.Total fun a b : AllocationEntry => a.offset ≤ b.offset :=
    ⟨fun a b => le_total a.offset b.offset⟩
  have htrans : IsTrans AllocationEntry fun a b => a.offset ≤ b.offset := ⟨fun _ _ _ => le_trans⟩
  have hle : t.getLiveAllocations.Pairwise fun a b => a.offset ≤ b.offset :=
    List.pairwise_insertionSort _ _
  have hperm : (t.getLiveAllocations.map AllocationEntry.offset).Nodup := by
    unfold getLiveAllocations
    rw [((List.perm_insertionSort _ _).map _).nodup_iff]
    exact t.distinct.sublist (List.filter_sublist.map _)
  have hne : t.getLiveAllocations.Pairwise fun a b => a.offset ≠ b.offset :=
    List.pairwise_map.mp hperm
  exact hle.imp₂ (fun _ _ h1 h2 => lt_of_le_of_ne h1 h2) hne

theorem eq_of_offset (t : AllocationTracker) (a b : AllocationEntry) (ha : a ∈ t.allocations)
    (hb : b ∈ t.allocations) (h : a.offset = b.offset) : a = b :=
  List.inj_on_of_nodup_map t.distinct ha hb h

end AllocationTracker

end Xerv.Arena
