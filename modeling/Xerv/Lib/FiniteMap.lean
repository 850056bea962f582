import Mathlib.Data.Finmap
import Mathlib.Data.Finset.Card

/-!
# Finite hash maps

A hash map whose size, or the number of its values of some kind, matters. Two maps are
equal when they hold the same values, so no iteration order is fixed. `get_mut` followed
by an assignment is `insert` of the changed value.
-/

namespace Xerv.Lib

abbrev FiniteMap (K V : Type) := Finmap fun _ : K => V

namespace FiniteMap
variable {K V : Type} [DecidableEq K] (m : FiniteMap K V)

def get (k : K) : Option V := m.lookup k

def insert (k : K) (v : V) : FiniteMap K V := Finmap.insert k v m

def remove (k : K) : FiniteMap K V := Finmap.erase k m

def contains (k : K) : Bool := (m.get k).isSome

def size : ℕ := m.keys.card

def countWhere (p : V → Bool) : ℕ := (m.keys.filter fun k => (m.get k).any p).card

@[simp] theorem get_empty (k : K) : get (∅ : FiniteMap K V) k = none := Finmap.lookup_empty k

@[simp] theorem get_insert_self (k : K) (v : V) : (m.insert k v).get k = some v := Finmap.lookup_insert m

@[simp] theorem get_insert_ne (v : V) {j k : K} (h : j ≠ k) : (m.insert k v).get j = m.get j :=
  Finmap.lookup_insert_of_ne m h

@[simp] theorem get_remove_self (k : K) : (m.remove k).get k = none := Finmap.lookup_erase k m

@[simp] theorem get_remove_ne {j k : K} (h : j ≠ k) : (m.remove k).get j = m.get j :=
  Finmap.lookup_erase_ne h

theorem mem_keys (k : K) : k ∈ m.keys ↔ (m.get k).isSome = true := by
  rw [Finmap.mem_keys, ← Finmap.lookup_isSome]
  rfl

theorem exists_of_mem_keys {k : K} (h : k ∈ m.keys) : ∃ v, m.get k = some v :=
  Option.isSome_iff_exists.mp ((m.mem_keys k).mp h)

theorem contains_of_get {k : K} {v : V} (h : m.get k = some v) : m.contains k = true := Option.isSome_of_eq_some h

theorem contains_eq_false (k : K) : m.contains k = false ↔ m.get k = none := by
  rw [contains, Option.isSome_eq_false_iff, Option.isNone_iff_eq_none]

theorem get_insert (v : V) (j k : K) : (m.insert k v).get j = if j = k then some v else m.get j := by
  split
  · rename_i h
    rw [h, get_insert_self]
  · rename_i h
    rw [get_insert_ne m v h]

theorem get_insert_some {v w : V} {j k : K} (h : (m.insert k v).get j = some w) :
    (j = k ∧ w = v) ∨ (j ≠ k ∧ m.get j = some w) := by
  rw [get_insert] at h
  split at h
  · rename_i hj
    cases h
    exact .inl ⟨hj, rfl⟩
  · rename_i hj
    exact .inr ⟨hj, h⟩

theorem get_remove_some {v : V} {j k : K} (h : (m.remove k).get j = some v) : j ≠ k ∧ m.get j = some v := by
  by_cases hj : j = k
  · rw [hj, get_remove_self] at h
    cases h
  · rw [get_remove_ne m hj] at h
    exact ⟨hj, h⟩

theorem contains_insert (v : V) (j k : K) :
    (m.insert k v).contains j = (decide (j = k) || m.contains j) := by
  unfold contains
  by_cases h : j = k
  · simp [h]
  · simp [h]

theorem contains_remove (j k : K) : (m.remove k).contains j = (decide (j ≠ k) && m.contains j) := by
  unfold contains
  by_cases h : j = k
  · simp [h]
  · simp [h]

/-- The entries in an order in which the map may be iterated. -/
structure Enumerates (entries : List (K × V)) : Prop where
  nodup : (entries.map Prod.fst).Nodup
  mem_iff : ∀ k v, (k, v) ∈ entries ↔ m.get k = some v

theorem Enumerates.perm {m : FiniteMap K V} {entries entries' : List (K × V)} (h : m.Enumerates entries)
    (hperm : entries.Perm entries') : m.Enumerates entries' where
  nodup := (hperm.map Prod.fst).nodup_iff.mp h.nodup
  mem_iff k v := hperm.mem_iff.symm.trans (h.mem_iff k v)

theorem exists_enumerates : ∃ entries, m.Enumerates entries := by
  refine ⟨m.keys.toList.filterMap fun k => (m.get k).map (Prod.mk k), ?_, fun k v => ?_⟩
  · rw [List.map_filterMap]
    refine List.Nodup.filterMap ?_ m.keys.nodup_toList
    intro j k i hj hk
    simp only [Option.map_map, Option.mem_def, Option.map_eq_some_iff] at hj hk
    obtain ⟨_, -, hj⟩ := hj
    obtain ⟨_, -, hk⟩ := hk
    exact hj.trans hk.symm
  · rw [List.mem_filterMap]
    constructor
    · rintro ⟨j, -, hj⟩
      obtain ⟨w, hw, heq⟩ := Option.map_eq_some_iff.mp hj
      cases heq
      exact hw
    · intro h
      refine ⟨k, Finset.mem_toList.mpr ((m.mem_keys k).mpr ?_), ?_⟩
      · rw [h]
        rfl
      · rw [h]
        rfl

/-- A map collected from pairs, where a later pair replaces an earlier one with its key. -/
def collect (entries : List (K × V)) : FiniteMap K V := entries.foldl (fun m e => m.insert e.1 e.2) ∅

theorem collect_concat (entries : List (K × V)) (e : K × V) :
    collect (entries ++ [e]) = (collect entries).insert e.1 e.2 := by
  unfold collect
  rw [List.foldl_append, List.foldl_cons, List.foldl_nil]

theorem mem_of_get_collect {entries : List (K × V)} {k : K} {v : V} (h : (collect entries).get k = some v) :
    (k, v) ∈ entries := by
  induction entries using List.reverseRecOn with
  | nil => cases h
  | append_singleton entries e ih =>
    rw [collect_concat] at h
    rw [List.mem_append, List.mem_singleton]
    rcases get_insert_some _ h with ⟨rfl, rfl⟩ | ⟨-, h⟩
    · exact .inr rfl
    · exact .inl (ih h)

theorem collect_enumerates {entries : List (K × V)} (hkeys : (entries.map Prod.fst).Nodup) :
    (collect entries).Enumerates entries := by
  refine ⟨hkeys, fun k v => ⟨fun h => ?_, mem_of_get_collect⟩⟩
  induction entries using List.reverseRecOn with
  | nil => cases h
  | append_singleton entries e ih =>
    rw [List.map_append, List.nodup_append] at hkeys
    rw [collect_concat]
    rcases List.mem_append.mp h with h | h
    · have hne : k ≠ e.1 := hkeys.2.2 k (List.mem_map_of_mem h) e.1 List.mem_cons_self
      rw [get_insert_ne _ _ hne]
      exact ih hkeys.1 h
    · obtain rfl := List.mem_singleton.mp h
      exact get_insert_self _ _ _

theorem remove_of_get_none {k : K} (h : m.get k = none) : m.remove k = m := by
  apply Finmap.ext_lookup
  intro j
  change (m.remove k).get j = m.get j
  by_cases hj : j = k
  · rw [hj, get_remove_self, h]
  · rw [get_remove_ne m hj]

theorem remove_ne_self {k : K} (h : m.contains k = true) : m.remove k ≠ m := by
  intro heq
  have hnone := m.get_remove_self k
  rw [heq] at hnone
  rw [contains, hnone] at h
  cases h

theorem keys_insert (k : K) (v : V) : (m.insert k v).keys = Insert.insert k m.keys := by
  ext j
  rw [mem_keys, Finset.mem_insert, mem_keys]
  by_cases h : j = k
  · simp [h]
  · simp [h]

theorem keys_remove (k : K) : (m.remove k).keys = m.keys.erase k := Finmap.keys_erase k m

/-! ### Size -/

theorem size_insert (k : K) (v : V) :
    (m.insert k v).size = if m.contains k then m.size else m.size + 1 := by
  unfold size contains
  rw [keys_insert]
  split
  · rename_i h
    rw [Finset.insert_eq_of_mem ((m.mem_keys k).mpr h)]
  · rename_i h
    exact Finset.card_insert_of_notMem fun hk => h ((m.mem_keys k).mp hk)

theorem size_pos {k : K} {v : V} (h : m.get k = some v) : 0 < m.size :=
  Finset.card_pos.mpr ⟨k, (m.mem_keys k).mpr (by rw [h]; rfl)⟩

theorem size_remove_le (k : K) : (m.remove k).size ≤ m.size := by
  unfold size
  rw [keys_remove]
  exact Finset.card_erase_le

theorem size_remove_add_one {k : K} (h : m.contains k = true) : (m.remove k).size + 1 = m.size := by
  unfold size
  rw [keys_remove]
  exact Finset.card_erase_add_one ((m.mem_keys k).mpr h)

/-! ### Counting -/

variable (p : V → Bool)

theorem mem_counted (k : K) : k ∈ (m.keys.filter fun k => (m.get k).any p) ↔ (m.get k).any p = true := by
  rw [Finset.mem_filter, mem_keys]
  constructor
  · exact And.right
  · intro h
    obtain ⟨v, hv, -⟩ := (Option.any_eq_true _ _).mp h
    exact ⟨by rw [hv]; rfl, h⟩

theorem counted_erase (k : K) (v : V) :
    ((m.insert k v).keys.filter fun j => ((m.insert k v).get j).any p).erase k =
      (m.keys.filter fun j => (m.get j).any p).erase k := by
  ext j
  rw [Finset.mem_erase, Finset.mem_erase, mem_counted, mem_counted]
  by_cases h : j = k
  · simp [h]
  · simp [h]

theorem countWhere_split (k : K) :
    m.countWhere p =
      ((m.keys.filter fun j => (m.get j).any p).erase k).card + if (m.get k).any p then 1 else 0 := by
  unfold countWhere
  split
  · rename_i h
    rw [Finset.card_erase_add_one ((m.mem_counted p k).mpr h)]
  · rename_i h
    rw [Finset.erase_eq_of_notMem fun hk => h ((m.mem_counted p k).mp hk), Nat.add_zero]

theorem countWhere_insert (k : K) (v : V) :
    (m.insert k v).countWhere p + (if (m.get k).any p then 1 else 0) =
      m.countWhere p + (if p v then 1 else 0) := by
  rw [countWhere_split (m.insert k v) p k, countWhere_split m p k, counted_erase, get_insert_self,
    Option.any_some]
  omega

theorem countWhere_insert_eq (k : K) (v : V) (h : (m.get k).any p = p v) :
    (m.insert k v).countWhere p = m.countWhere p := by
  have hcount := m.countWhere_insert p k v
  rw [h] at hcount
  omega

end FiniteMap
end Xerv.Lib
