import Mathlib.Logic.Function.Basic
import Mathlib.Tactic.SplitIfs

/-!
# Hash tables and hash sets

A hash table is modelled by the partial function it denotes and a hash set by
its membership test. Nothing here depends on an iteration order; code that
iterates over a table in order to build another one is written with `mapValues`
or `keys`.
-/

namespace Xerv.Lib

/-- Hash table: key to value, `none` where the key is absent. -/
abbrev Table (K V : Type*) := K → Option V

/-- Hash set: the membership test. -/
abbrev Keys (K : Type*) := K → Bool

namespace Table
variable {K V W : Type*} [DecidableEq K]

def empty : Table K V := fun _ => none

def insert (t : Table K V) (k : K) (v : V) : Table K V :=
  fun j => if j = k then some v else t j

def remove (t : Table K V) (k : K) : Table K V :=
  fun j => if j = k then none else t j

/-- `entry(k).or_default().push(v)`. -/
def push (t : Table K (List V)) (k : K) (v : V) : Table K (List V) := t.insert k ((t k).getD [] ++ [v])

/-- Apply `f` in place to the value at `k` (`if let Some(v) = t.get_mut(k)`). -/
def modify (t : Table K V) (k : K) (f : V → V) : Table K V :=
  fun j => if j = k then (t j).map f else t j

def mapValues (f : V → W) (t : Table K V) : Table K W := fun k => (t k).map f

def keys (t : Table K V) : Keys K := fun k => (t k).isSome

omit [DecidableEq K] in
@[simp] theorem empty_apply (k : K) : (empty : Table K V) k = none := rfl

@[simp] theorem insert_self (t : Table K V) (k : K) (v : V) : t.insert k v k = some v := by
  simp [insert]

@[simp] theorem insert_ne (t : Table K V) {j k : K} (v : V) (h : j ≠ k) :
    t.insert k v j = t j := by
  simp [insert, h]

theorem insert_some {t : Table K V} {v w : V} {j k : K} (h : t.insert k v j = some w) :
    (j = k ∧ w = v) ∨ (j ≠ k ∧ t j = some w) := by
  by_cases hj : j = k
  · subst hj
    rw [insert_self] at h
    cases h
    exact .inl ⟨rfl, rfl⟩
  · rw [insert_ne t v hj] at h
    exact .inr ⟨hj, h⟩

theorem insert_eq_none (t : Table K V) (v : V) (j k : K) : t.insert k v j = none ↔ j ≠ k ∧ t j = none := by
  by_cases hj : j = k
  · subst hj
    simp
  · simp [hj]

theorem insert_of_new {t : Table K V} {v w : V} {j k : K} (hnew : t k = none) (h : t j = some w) :
    t.insert k v j = some w := by
  have hj : j ≠ k := by
    rintro rfl
    cases hnew.symm.trans h
  rw [insert_ne t v hj, h]

@[simp] theorem remove_self (t : Table K V) (k : K) : t.remove k k = none := by
  simp [remove]

@[simp] theorem remove_ne (t : Table K V) {j k : K} (h : j ≠ k) : t.remove k j = t j := by
  simp [remove, h]

@[simp] theorem modify_self (t : Table K V) (k : K) (f : V → V) :
    t.modify k f k = (t k).map f := by
  simp [modify]

@[simp] theorem modify_ne (t : Table K V) {j k : K} (f : V → V) (h : j ≠ k) :
    t.modify k f j = t j := by
  simp [modify, h]

theorem push_getD (t : Table K (List V)) (k j : K) (v : V) :
    (t.push k v j).getD [] = (t j).getD [] ++ if k = j then [v] else [] := by
  unfold push
  by_cases h : j = k
  · subst h
    simp
  · have h' : k ≠ j := fun he => h he.symm
    simp [h, h']

theorem foldl_push_getD {X : Type*} (key : X → K) (value : X → V) (xs : List X) (t : Table K (List V)) (k : K) :
    (xs.foldl (fun t x => t.push (key x) (value x)) t k).getD [] =
      (t k).getD [] ++ (xs.filter fun x => key x = k).map value := by
  induction xs generalizing t with
  | nil => exact (List.append_nil _).symm
  | cons x xs ih =>
    rw [List.foldl_cons, ih, push_getD, List.append_assoc]
    by_cases h : key x = k
    · simp [h]
    · simp [h]

omit [DecidableEq K] in
@[simp] theorem mapValues_apply (f : V → W) (t : Table K V) (k : K) :
    t.mapValues f k = (t k).map f := rfl

omit [DecidableEq K] in
@[simp] theorem keys_apply (t : Table K V) (k : K) : t.keys k = (t k).isSome := rfl

end Table

namespace Keys
variable {K : Type*} [DecidableEq K]

def empty : Keys K := fun _ => false

def insert (s : Keys K) (k : K) : Keys K := fun j => if j = k then true else s j

def remove (s : Keys K) (k : K) : Keys K := fun j => if j = k then false else s j

omit [DecidableEq K] in
@[simp] theorem empty_apply (k : K) : (empty : Keys K) k = false := rfl

@[simp] theorem insert_self (s : Keys K) (k : K) : s.insert k k = true := by
  simp [insert]

@[simp] theorem insert_ne (s : Keys K) {j k : K} (h : j ≠ k) : s.insert k j = s j := by
  simp [insert, h]

theorem insert_true_iff (s : Keys K) (j k : K) : s.insert k j = true ↔ j = k ∨ s j = true := by
  unfold insert
  split_ifs with h
  · simp [h]
  · simp [h]

@[simp] theorem remove_self (s : Keys K) (k : K) : s.remove k k = false := by
  simp [remove]

@[simp] theorem remove_ne (s : Keys K) {j k : K} (h : j ≠ k) : s.remove k j = s j := by
  simp [remove, h]

end Keys

end Xerv.Lib
