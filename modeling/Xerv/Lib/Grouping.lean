import Mathlib.Data.List.Nodup
import Mathlib.Data.List.Pairwise
import Mathlib.Order.Nat
import Mathlib.Tactic.Common

/-!
# Groups and ends of sorted lists

A loop that collects elements as long as their key stays the same and puts the group out when it changes: on a
list that is sorted by the key every key has one group, with all of its elements. And what is left of a sorted list
when all but its last elements are taken away.
-/

namespace Xerv.Lib
variable {α : Type} (key : α → ℕ)

def closeGroup (current : Option ℕ) (taken : List α) : List (ℕ × List α) :=
  match current with
  | some k => if taken.isEmpty then [] else [(k, taken)]
  | none => []

/-- The key and the elements of the group under way are the loop's two variables. -/
def collectGroups (current : Option ℕ) (taken : List α) : List α → List (ℕ × List α)
  | [] => closeGroup current taken
  | x :: xs =>
    if current ≠ some (key x) then closeGroup current taken ++ collectGroups (some (key x)) [x] xs
    else collectGroups current (taken ++ [x]) xs

/-- The groups from the key `low` on are in the order of their keys and are the elements with one key each. -/
structure Grouped (low : ℕ) (l : List α) (groups : List (ℕ × List α)) : Prop where
  sorted : groups.Pairwise fun a b => a.1 < b.1
  low : ∀ g ∈ groups, low ≤ g.1
  all : ∀ g ∈ groups, g.2 = l.filter (key · = g.1) ∧ g.2 ≠ []
  covers : ∀ x ∈ l, ∃ g ∈ groups, g.1 = key x

variable {key}

theorem grouped_single {k : ℕ} {taken : List α} (hkey : ∀ x ∈ taken, key x = k) (hne : taken ≠ []) :
    Grouped key k taken [(k, taken)] where
  sorted := List.pairwise_singleton _ _
  low g hg := by simp [List.mem_singleton.mp hg]
  all g hg := by
    obtain rfl := List.mem_singleton.mp hg
    exact ⟨(List.filter_eq_self.mpr fun x hx => decide_eq_true (hkey x hx)).symm, hne⟩
  covers x hx := ⟨_, List.mem_singleton_self _, (hkey x hx).symm⟩

theorem Grouped.cons {k low : ℕ} {taken l : List α} {groups : List (ℕ × List α)} (h : Grouped key low l groups)
    (hlow : k < low) (hkey : ∀ x ∈ taken, key x = k) (hne : taken ≠ []) (hl : ∀ x ∈ l, key x ≠ k) :
    Grouped key k (taken ++ l) ((k, taken) :: groups) := by
  have hfirst : (taken ++ l).filter (key · = k) = taken := by
    rw [List.filter_append, List.filter_eq_self.mpr fun x hx => decide_eq_true (hkey x hx),
      List.filter_eq_nil_iff.mpr fun x hx => by simp [hl x hx], List.append_nil]
  refine ⟨List.pairwise_cons.mpr ⟨fun g hg => lt_of_lt_of_le hlow (h.low g hg), h.sorted⟩, ?_, ?_, ?_⟩
  · intro g hg
    rcases List.mem_cons.mp hg with rfl | hg
    · simp
    · exact le_of_lt (lt_of_lt_of_le hlow (h.low g hg))
  · intro g hg
    rcases List.mem_cons.mp hg with rfl | hg
    · exact ⟨hfirst.symm, hne⟩
    · have hk : k ≠ g.1 := ne_of_lt (lt_of_lt_of_le hlow (h.low g hg))
      have hnone : taken.filter (key · = g.1) = [] :=
        List.filter_eq_nil_iff.mpr fun x hx => by simp [hkey x hx, hk]
      rw [List.filter_append, hnone, List.nil_append]
      exact h.all g hg
  · intro x hx
    rcases List.mem_append.mp hx with hx | hx
    · exact ⟨_, List.mem_cons_self, (hkey x hx).symm⟩
    · obtain ⟨g, hg, hgx⟩ := h.covers x hx
      exact ⟨g, List.mem_cons_of_mem _ hg, hgx⟩

theorem grouped_collect (k : ℕ) (taken l : List α) (hkey : ∀ x ∈ taken, key x = k) (hne : taken ≠ [])
    (hl : l.Pairwise fun x y => key x ≤ key y) (hlow : ∀ x ∈ l, k ≤ key x) :
    Grouped key k (taken ++ l) (collectGroups key (some k) taken l) := by
  induction l generalizing k taken with
  | nil =>
    rw [List.append_nil, collectGroups, closeGroup, if_neg (by simpa using hne)]
    exact grouped_single hkey hne
  | cons x l ih =>
    obtain ⟨hx, hl⟩ := List.pairwise_cons.mp hl
    rw [collectGroups]
    by_cases hk : k = key x
    · rw [if_neg (by simp [hk]), List.append_cons]
      refine ih k (taken ++ [x]) ?_ (by simp) hl fun y hy => hk ▸ hx y hy
      intro y hy
      rcases List.mem_append.mp hy with hy | hy
      · exact hkey y hy
      · rw [List.mem_singleton.mp hy, hk]
    · have hlt : k < key x := lt_of_le_of_ne (hlow x List.mem_cons_self) hk
      have hrest : Grouped key (key x) (x :: l) (collectGroups key (some (key x)) [x] l) :=
        ih (key x) [x] (by simp) (by simp) hl hx
      rw [if_pos (by simpa using hk), closeGroup, if_neg (by simpa using hne)]
      refine hrest.cons hlt hkey hne fun y hy => ?_
      rcases List.mem_cons.mp hy with rfl | hy
      · exact fun h => hk h.symm
      · exact fun h => absurd (hx y hy) (by omega)

/-- Of a list that is sorted by the key. -/
theorem collectGroups_grouped (l : List α) (hl : l.Pairwise fun x y => key x ≤ key y) :
    Grouped key 0 l (collectGroups key none [] l) := by
  cases l with
  | nil => exact ⟨List.Pairwise.nil, by simp [collectGroups, closeGroup], by simp [collectGroups, closeGroup], by simp⟩
  | cons x l =>
    obtain ⟨hx, hl⟩ := List.pairwise_cons.mp hl
    rw [collectGroups, if_pos (by simp), closeGroup, List.nil_append]
    have h := grouped_collect (key x) [x] l (by simp) (by simp) hl hx
    exact ⟨h.sorted, fun _ _ => Nat.zero_le _, h.all, h.covers⟩

/-! ### All but the last -/

/-- Behind an element that is not among the last `k` there are `k` larger ones. -/
theorem add_le_of_mem_take {l : List ℕ} {i k n : ℕ} (hsorted : l.Pairwise (· < ·)) (hle : ∀ j ∈ l, j ≤ n)
    (h : i ∈ l.take (l.length - k)) : i + k ≤ n := by
  have hk : k ≤ l.length := by
    by_contra hlarge
    rw [Nat.sub_eq_zero_of_le (by omega)] at h
    exact absurd h List.not_mem_nil
  have hsplit := List.take_append_drop (l.length - k) l
  have hbehind : ∀ j ∈ l.drop (l.length - k), j ∈ List.range' (i + 1) (n - i) := by
    intro j hj
    have hlt := (List.pairwise_append.mp (hsplit.symm ▸ hsorted)).2.2 i h j hj
    have hjn := hle j (List.mem_of_mem_drop hj)
    rw [List.mem_range'_1]
    omega
  have hnodup : (l.drop (l.length - k)).Nodup := (hsorted.imp fun h => Nat.ne_of_lt h).sublist (List.drop_sublist _ _)
  have hlength := List.Nodup.length_le_of_subset hnodup hbehind
  rw [List.length_drop, List.length_range'] at hlength
  have hi := hle i (List.mem_of_mem_take h)
  omega

theorem mem_take_of_lt {l : List ℕ} {i j m : ℕ} (hsorted : l.Pairwise (· < ·)) (hj : j ∈ l.take m) (hi : i ∈ l)
    (hlt : i < j) : i ∈ l.take m := by
  have hsplit := List.take_append_drop m l
  rw [← hsplit] at hi
  rcases List.mem_append.mp hi with hi | hi
  · exact hi
  · have hji := (List.pairwise_append.mp (hsplit.symm ▸ hsorted)).2.2 j hj i hi
    omega

theorem key_le_last {l : List α} {a b : α} (h : l.Pairwise fun x y => key x < key y) (hlast : l.getLast? = some a)
    (hb : b ∈ l) : key b ≤ key a := by
  obtain ⟨front, rfl⟩ := List.getLast?_eq_some_iff.mp hlast
  rcases List.mem_append.mp hb with hb | hb
  · exact le_of_lt ((List.pairwise_append.mp h).2.2 b hb a (List.mem_singleton_self a))
  · rw [List.mem_singleton.mp hb]

theorem getLast_of_sorted {l : List ℕ} {i : ℕ} (h : l.Pairwise (· < ·)) (hi : i ∈ l) (hle : ∀ j ∈ l, j ≤ i) :
    l.getLast? = some i := by
  have hne : l ≠ [] := List.ne_nil_of_mem hi
  have hlast := List.getLast?_eq_some_getLast hne
  have hge : i ≤ l.getLast hne := @key_le_last ℕ (fun n => n) l _ i h hlast hi
  rw [hlast, Nat.le_antisymm (hle _ (List.getLast_mem hne)) hge]

theorem filter_not_append {α : Type} (p : α → Bool) (l : List α) (h : l.Pairwise fun a b => p a = true → p b = true) :
    (l.filter fun a => !p a) ++ l.filter p = l := by
  induction l with
  | nil => rfl
  | cons a l ih =>
    obtain ⟨ha, hl⟩ := List.pairwise_cons.mp h
    by_cases hp : p a = true
    · have hnone : l.filter (fun a => !p a) = [] :=
        List.filter_eq_nil_iff.mpr fun b hb => by simp [ha b hb hp]
      have hall : l.filter p = l := List.filter_eq_self.mpr fun b hb => ha b hb hp
      simp [hp, hnone, hall]
    · have htail := ih hl
      simp only [Bool.not_eq_true] at hp
      simp only [List.filter_cons, hp, Bool.not_false, if_true, Bool.false_eq_true, if_false, List.cons_append, htail]

end Xerv.Lib
