import Mathlib.Data.List.Pairwise
import Mathlib.Data.List.Nodup

/-!
# Ordered maps with natural keys

The entries of a `BTreeMap<u64, V>` in key order. Lookups are described by
membership in the entry list, which has at most one entry per key.
-/

namespace Xerv.Lib

structure SortedMap (V : Type) where
  entries : List (ℕ × V)
  sorted : entries.Pairwise fun a b => a.1 < b.1

namespace SortedMap
variable {V : Type}

def empty : SortedMap V := ⟨[], List.Pairwise.nil⟩

def get (m : SortedMap V) (k : ℕ) : Option V := (m.entries.find? fun p => p.1 = k).map Prod.snd

def keys (m : SortedMap V) : List ℕ := m.entries.map Prod.fst

def values (m : SortedMap V) : List V := m.entries.map Prod.snd

def retain (m : SortedMap V) (p : ℕ → Bool) : SortedMap V where
  entries := m.entries.filter fun e => p e.1
  sorted := m.sorted.filter _

def insert (m : SortedMap V) (k : ℕ) (v : V) : SortedMap V where
  entries := m.entries.filter (fun e => e.1 < k) ++ (k, v) :: m.entries.filter fun e => k < e.1
  sorted := by
    rw [List.pairwise_append, List.pairwise_cons]
    refine ⟨m.sorted.filter _, ⟨?_, m.sorted.filter _⟩, ?_⟩
    · intro e he
      simpa using (List.mem_filter.mp he).2
    · intro a ha b hb
      have hak : a.1 < k := by simpa using (List.mem_filter.mp ha).2
      rcases List.mem_cons.mp hb with hbk | hbr
      · rw [hbk]
        exact hak
      · have hkb : k < b.1 := by simpa using (List.mem_filter.mp hbr).2
        exact Nat.lt_trans hak hkb

def remove (m : SortedMap V) (k : ℕ) : SortedMap V := m.retain fun j => j ≠ k

def lastKey? (m : SortedMap V) : Option ℕ := m.keys.getLast?

theorem keys_nodup (m : SortedMap V) : m.keys.Nodup :=
  List.pairwise_map.mpr (m.sorted.imp fun h => Nat.ne_of_lt h)

theorem get_eq_some_iff (m : SortedMap V) (k : ℕ) (v : V) :
    m.get k = some v ↔ (k, v) ∈ m.entries := by
  unfold get
  constructor
  · intro h
    obtain ⟨p, hp, hv⟩ := Option.map_eq_some_iff.mp h
    have hk : p.1 = k := by simpa using List.find?_some hp
    have hmem := List.mem_of_find?_eq_some hp
    rwa [← hk, ← hv]
  · intro h
    cases hf : m.entries.find? fun p => p.1 = k with
    | none =>
      have hno := List.find?_eq_none.mp hf (k, v) h
      simp at hno
    | some p =>
      have hk : p.1 = k := by simpa using List.find?_some hf
      have hmem := List.mem_of_find?_eq_some hf
      have hp : p = (k, v) := List.inj_on_of_nodup_map m.keys_nodup hmem h hk
      rw [hp]
      rfl

theorem mem_keys_iff (m : SortedMap V) (k : ℕ) : k ∈ m.keys ↔ ∃ v, m.get k = some v := by
  unfold keys
  rw [List.mem_map]
  constructor
  · intro h
    obtain ⟨⟨j, v⟩, hmem, rfl⟩ := h
    exact ⟨v, (m.get_eq_some_iff j v).mpr hmem⟩
  · intro h
    obtain ⟨v, hv⟩ := h
    exact ⟨(k, v), (m.get_eq_some_iff k v).mp hv, rfl⟩

@[simp] theorem get_empty (k : ℕ) : (empty : SortedMap V).get k = none := rfl

@[simp] theorem get_insert_self (m : SortedMap V) (k : ℕ) (v : V) :
    (m.insert k v).get k = some v := by
  rw [get_eq_some_iff]
  exact List.mem_append_right _ List.mem_cons_self

@[simp] theorem get_insert_ne (m : SortedMap V) (j k : ℕ) (v : V) (h : j ≠ k) :
    (m.insert k v).get j = m.get j := by
  apply Option.ext
  intro w
  rw [get_eq_some_iff, get_eq_some_iff, insert, List.mem_append, List.mem_cons, List.mem_filter,
    List.mem_filter]
  simp only [Prod.mk.injEq, h, false_and, decide_eq_true_eq, false_or]
  constructor
  · intro hm
    rcases hm with hm | hm
    · exact hm.1
    · exact hm.1
  · intro hm
    rcases Nat.lt_or_gt_of_ne h with hlt | hgt
    · exact .inl ⟨hm, hlt⟩
    · exact .inr ⟨hm, hgt⟩

theorem get_retain (m : SortedMap V) (p : ℕ → Bool) (k : ℕ) :
    (m.retain p).get k = if p k then m.get k else none := by
  apply Option.ext
  intro v
  rw [get_eq_some_iff, retain, List.mem_filter]
  by_cases hp : p k = true
  · simp only [hp, if_true, and_true]
    exact (m.get_eq_some_iff k v).symm
  · simp [hp]

@[simp] theorem get_remove_self (m : SortedMap V) (k : ℕ) : (m.remove k).get k = none := by
  simp [remove, get_retain]

@[simp] theorem get_remove_ne (m : SortedMap V) (j k : ℕ) (h : j ≠ k) :
    (m.remove k).get j = m.get j := by
  simp [remove, get_retain, h]

theorem mem_keys_insert (m : SortedMap V) (j k : ℕ) (v : V) :
    j ∈ (m.insert k v).keys ↔ j = k ∨ j ∈ m.keys := by
  rw [mem_keys_iff, mem_keys_iff]
  by_cases h : j = k
  · subst h
    simp
  · simp [h]

theorem mem_keys_retain (m : SortedMap V) (p : ℕ → Bool) (k : ℕ) :
    k ∈ (m.retain p).keys ↔ k ∈ m.keys ∧ p k = true := by
  rw [mem_keys_iff, mem_keys_iff]
  by_cases h : p k = true
  · simp [get_retain, h]
  · simp [get_retain, h]

theorem mem_keys_remove (m : SortedMap V) (j k : ℕ) :
    j ∈ (m.remove k).keys ↔ j ∈ m.keys ∧ j ≠ k := by
  unfold remove
  rw [mem_keys_retain]
  simp

theorem keys_sorted (m : SortedMap V) : m.keys.Pairwise (· < ·) := List.pairwise_map.mpr m.sorted

theorem lastKey?_eq_some_iff (m : SortedMap V) (k : ℕ) :
    m.lastKey? = some k ↔ k ∈ m.keys ∧ ∀ j ∈ m.keys, j ≤ k := by
  unfold lastKey?
  have hs := m.keys_sorted
  cases hk : m.keys.getLast? with
  | none =>
    rw [List.getLast?_eq_none_iff] at hk
    simp [hk]
  | some l =>
    obtain ⟨init, hinit⟩ := List.getLast?_eq_some_iff.mp hk
    rw [hinit] at hs ⊢
    have hlt := (List.pairwise_append.mp hs).2.2
    constructor
    · intro h
      have hl : l = k := Option.some.inj h
      subst hl
      refine ⟨by simp, fun j hj => ?_⟩
      rcases List.mem_append.mp hj with hj | hj
      · exact Nat.le_of_lt (hlt j hj l (by simp))
      · exact Nat.le_of_eq (List.mem_singleton.mp hj)
    · intro h
      obtain ⟨hmem, hmax⟩ := h
      have hlk : l ≤ k := hmax l (by simp)
      rcases List.mem_append.mp hmem with hj | hj
      · have := hlt k hj l (by simp)
        omega
      · rw [List.mem_singleton.mp hj]

theorem lastKey?_eq_none_iff (m : SortedMap V) : m.lastKey? = none ↔ m.keys = [] :=
  List.getLast?_eq_none_iff

theorem mem_values_iff (m : SortedMap V) (v : V) : v ∈ m.values ↔ ∃ k, m.get k = some v := by
  unfold values
  rw [List.mem_map]
  constructor
  · intro h
    obtain ⟨⟨k, w⟩, hmem, rfl⟩ := h
    exact ⟨k, (m.get_eq_some_iff k w).mpr hmem⟩
  · intro h
    obtain ⟨k, hk⟩ := h
    exact ⟨(k, v), (m.get_eq_some_iff k v).mp hk, rfl⟩

theorem ext_get {m m' : SortedMap V} (h : ∀ k, m.get k = m'.get k) : m = m' := by
  have hmem : ∀ p, p ∈ m.entries ↔ p ∈ m'.entries := by
    intro p
    obtain ⟨k, v⟩ := p
    rw [← get_eq_some_iff, ← get_eq_some_iff, h k]
  have hnodup : ∀ n : SortedMap V, n.entries.Nodup := fun n => n.keys_nodup.of_map _
  have hperm : m.entries.Perm m'.entries :=
    (List.perm_ext_iff_of_nodup (hnodup m) (hnodup m')).mpr hmem
  have heq : m.entries = m'.entries := by
    refine hperm.eq_of_pairwise ?_ m.sorted m'.sorted
    intro a b _ _ hab hba
    exact absurd hab (Nat.lt_asymm hba)
  cases m
  cases m'
  simpa using heq

theorem retain_eq_self_iff (m : SortedMap V) (p : ℕ → Bool) :
    m.retain p = m ↔ ∀ k ∈ m.keys, p k = true := by
  constructor
  · intro h k hk
    rw [← h] at hk
    exact ((m.mem_keys_retain p k).mp hk).2
  · intro h
    refine ext_get fun k => ?_
    rw [get_retain]
    split_ifs with hp
    · rfl
    · cases hk : m.get k with
      | none => rfl
      | some v => exact absurd (h k ((m.mem_keys_iff k).mpr ⟨v, hk⟩)) hp

theorem insert_insert (m : SortedMap V) (k : ℕ) (v w : V) :
    (m.insert k v).insert k w = m.insert k w := by
  refine ext_get fun j => ?_
  by_cases hj : j = k
  · subst hj
    rw [get_insert_self, get_insert_self]
  · rw [get_insert_ne _ _ _ _ hj, get_insert_ne _ _ _ _ hj, get_insert_ne _ _ _ _ hj]

def filterMap (m : SortedMap V) (f : ℕ → V → Option V) : SortedMap V where
  entries := m.entries.filterMap fun p => (f p.1 p.2).map fun v => (p.1, v)
  sorted := by
    refine List.Pairwise.filterMap _ ?_ m.sorted
    intro a a' hlt b hb b' hb'
    obtain ⟨_, _, rfl⟩ := Option.map_eq_some_iff.mp hb
    obtain ⟨_, _, rfl⟩ := Option.map_eq_some_iff.mp hb'
    exact hlt

theorem get_filterMap (m : SortedMap V) (f : ℕ → V → Option V) (k : ℕ) :
    (m.filterMap f).get k = (m.get k).bind (f k) := by
  apply Option.ext
  intro v
  rw [get_eq_some_iff, filterMap, List.mem_filterMap, Option.bind_eq_some_iff]
  constructor
  · intro h
    obtain ⟨⟨j, w⟩, hmem, hf⟩ := h
    obtain ⟨u, hu, he⟩ := Option.map_eq_some_iff.mp hf
    obtain ⟨rfl, rfl⟩ := Prod.mk.inj he
    exact ⟨w, (m.get_eq_some_iff _ w).mpr hmem, hu⟩
  · intro h
    obtain ⟨w, hw, hf⟩ := h
    exact ⟨(k, w), (m.get_eq_some_iff k w).mp hw, by rw [hf]; rfl⟩

theorem values_insert_last (m : SortedMap V) (k : ℕ) (v : V) (h : ∀ j ∈ m.keys, j ≤ k) :
    (m.insert k v).values = (m.retain fun j => j < k).values ++ [v] := by
  have hnone : m.entries.filter (fun e => k < e.1) = [] := by
    rw [List.filter_eq_nil_iff]
    intro e he
    have hle := h e.1 (List.mem_map_of_mem he)
    simpa using hle
  unfold values insert retain
  simp [hnone]

theorem values_split_last (m : SortedMap V) (k : ℕ) (h : ∀ j ∈ m.keys, j ≤ k) :
    m.values = (m.retain fun j => j < k).values ++ (m.get k).toList := by
  cases hk : m.get k with
  | none =>
    have heq : m = m.retain fun j => j < k := by
      refine ext_get fun j => ?_
      rw [get_retain]
      by_cases hj : j < k
      · simp [hj]
      · simp only [hj, decide_false, Bool.false_eq_true, if_false]
        cases hm : m.get j with
        | none => rfl
        | some v =>
          have hle := h j ((m.mem_keys_iff j).mpr ⟨v, hm⟩)
          rw [show j = k by omega, hk] at hm
          exact absurd hm (by simp)
    rw [← heq]
    simp
  | some v =>
    have heq : m = m.insert k v := by
      refine ext_get fun j => ?_
      by_cases hj : j = k
      · subst hj
        rw [hk, get_insert_self]
      · rw [get_insert_ne _ _ _ _ hj]
    have hval := m.values_insert_last k v h
    rw [← heq] at hval
    exact hval

end SortedMap

end Xerv.Lib
