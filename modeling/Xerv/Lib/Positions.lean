import Mathlib.Data.List.Forall2
import Mathlib.Data.List.Nodup
import Mathlib.Data.List.Infix
import Mathlib.Logic.Relation

/-!
# Positions in lists

In a list that grows at its end, what stands at a position stays there while entries are added, and an
added entry is at the position that the length was before. A separator that is at no earlier position
splits a list in one way, the parts between separators have none, and a predicate that holds at the front
only splits a list into two filters. Where every entry comes after those related to it, the relation has no
cycle.
-/

namespace Xerv.Lib

variable {α : Type*} {xs ys : List α} {i : ℕ} {x a : α}

theorem getElem?_of_prefix (h : xs <+: ys) (hx : xs[i]? = some x) : ys[i]? = some x := by
  obtain ⟨hi, rfl⟩ := List.getElem?_eq_some_iff.mp hx
  exact List.prefix_iff_getElem?.mp h i hi

theorem getElem?_concat_cases (h : (xs ++ [a])[i]? = some x) :
    (i < xs.length ∧ xs[i]? = some x) ∨ (i = xs.length ∧ a = x) := by
  by_cases hi : i < xs.length
  · rw [List.getElem?_append_left hi] at h
    exact .inl ⟨hi, h⟩
  · have hlen := (List.getElem?_eq_some_iff.mp h).1
    rw [List.length_append, List.length_singleton] at hlen
    obtain rfl : i = xs.length := by omega
    rw [List.getElem?_concat_length] at h
    exact .inr ⟨rfl, Option.some.inj h⟩

theorem concat_prefix_singleton (h : xs ++ [a] <+: [x]) : xs = [] ∧ a = x := by
  cases xs with
  | nil =>
    obtain ⟨rest, hrest⟩ := h
    cases hrest
    exact ⟨rfl, rfl⟩
  | cons y xs =>
    have hlen := h.length_le
    simp at hlen

section Earlier
variable {p : List α → α → Prop}

theorem forall_split_concat (h : ∀ before y after, xs = before ++ y :: after → p before y) (ha : p xs a) :
    ∀ before y after, xs ++ [a] = before ++ y :: after → p before y := by
  intro before y after heq
  rcases List.eq_nil_or_concat' after with rfl | ⟨rest, last, rfl⟩
  · obtain ⟨rfl, hlast⟩ := List.append_inj' heq rfl
    cases hlast
    exact ha
  · rw [← List.cons_append, ← List.append_assoc] at heq
    exact h before y rest (List.append_inj' heq rfl).1

theorem forall_split_nil : ∀ before y after, ([] : List α) = before ++ y :: after → p before y :=
  fun _ _ _ heq => absurd heq.symm (List.append_ne_nil_of_right_ne_nil _ (List.cons_ne_nil _ _))

variable {r : α → α → Prop}

theorem forall_split_path (h : ∀ before y after, xs = before ++ y :: after → ∀ u, r u y → u ∈ before) {u v : α}
    (hpath : Relation.TransGen r u v) : ∀ before after, xs = before ++ v :: after → u ∈ before := by
  induction hpath with
  | single huv => exact fun before after heq => h before _ after heq u huv
  | tail _ hwv ih =>
    intro before after heq
    obtain ⟨front, back, rfl⟩ := List.append_of_mem (h before _ after heq _ hwv)
    rw [List.append_assoc, List.cons_append] at heq
    exact List.mem_append_left _ (ih front _ heq)

theorem forall_split_irrefl (h : ∀ before y after, xs = before ++ y :: after → ∀ u, r u y → u ∈ before)
    (hr : ∀ u v, r u v → v ∈ xs) (v : α) : ¬ Relation.TransGen r v v := by
  intro hcycle
  obtain ⟨u, -, huv⟩ := Relation.TransGen.tail'_iff.mp hcycle
  obtain ⟨before, after, heq, hfirst⟩ := List.eq_append_cons_of_mem (hr u v huv)
  exact hfirst (forall_split_path h hcycle before after heq)

end Earlier

theorem append_cons_inj {before before' after after' : List α} (h : x ∉ before) (h' : x ∉ before')
    (heq : before ++ x :: after = before' ++ x :: after') : before = before' ∧ after = after' := by
  induction before generalizing before' with
  | nil =>
    cases before' with
    | nil => exact ⟨rfl, (List.cons.inj heq).2⟩
    | cons d before' => exact absurd ((List.cons.inj heq).1 ▸ List.mem_cons_self) h'
  | cons d before ih =>
    cases before' with
    | nil => exact absurd ((List.cons.inj heq).1 ▸ List.mem_cons_self) h
    | cons d' before' =>
      obtain ⟨rfl, htail⟩ := List.cons.inj heq
      obtain ⟨rfl, hafter⟩ :=
        ih (fun hm => h (List.mem_cons_of_mem _ hm)) (fun hm => h' (List.mem_cons_of_mem _ hm)) htail
      exact ⟨rfl, hafter⟩

theorem flatten_splitOn [BEq α] [LawfulBEq α] : (xs.splitOn x).flatten = xs.filter fun a => !(a == x) := by
  induction xs with
  | nil => rw [List.splitOn_nil, List.flatten_singleton, List.filter_nil]
  | cons y xs ih =>
    rw [List.splitOn_cons_eq_if_modifyHead]
    by_cases hy : (y == x) = true
    · rw [if_pos hy, List.flatten_cons, List.nil_append, ih, List.filter_cons_of_neg (by simp [hy])]
    · rw [if_neg hy, List.filter_cons_of_pos (by simp [hy]), ← ih]
      cases hsplit : xs.splitOn x with
      | nil => exact absurd hsplit (List.splitOn_ne_nil x xs)
      | cons first rest => rfl

theorem mem_part_of_splitOn_iff [BEq α] [LawfulBEq α] : (∃ part ∈ xs.splitOn x, a ∈ part) ↔ a ∈ xs ∧ a ≠ x := by
  rw [← List.mem_flatten, flatten_splitOn, List.mem_filter]
  simp

theorem nodup_zipIdx (xs : List α) (k : ℕ) : (xs.zipIdx k).Nodup := by
  refine List.Nodup.of_map Prod.snd ?_
  rw [List.zipIdx_map_snd]
  exact List.nodup_range'

theorem dropWhile_eq_filter {p : α → Bool} (h : xs.Pairwise fun x y => p y = true → p x = true) :
    xs.dropWhile p = xs.filter fun x => !p x := by
  induction xs with
  | nil => rfl
  | cons x xs ih =>
    obtain ⟨hfirst, hrest⟩ := List.pairwise_cons.mp h
    by_cases hx : p x = true
    · rw [List.dropWhile_cons_of_pos hx, List.filter_cons_of_neg (by simp [hx]), ih hrest]
    · rw [List.dropWhile_cons_of_neg hx]
      refine (List.filter_eq_self.mpr fun y hy => ?_).symm
      have hne : p y ≠ true := (List.mem_cons.mp hy).elim (fun heq => heq ▸ hx) fun hy hpy => hx (hfirst y hy hpy)
      rw [Bool.eq_false_iff.mpr hne]
      rfl

/-! ### Patterns at the front -/

section Front
variable {β γ δ : Type*}

/-- The entries of the pattern stand for those at the front of the list, one for one. -/
def MatchesFront (R : α → β → Prop) (pattern : List α) (ys : List β) : Prop :=
  ∃ front, front <+: ys ∧ List.Forall₂ R pattern front

variable {R S : α → β → Prop} {pattern : List α} {ys : List β} {p : α} {y : β}

theorem matchesFront_nil : MatchesFront R [] ys := ⟨[], List.nil_prefix, .nil⟩

theorem not_matchesFront_nil : ¬ MatchesFront R (p :: pattern) [] := by
  rintro ⟨front, hfront, hall⟩
  rw [List.prefix_nil.mp hfront] at hall
  cases hall

theorem matchesFront_cons : MatchesFront R (p :: pattern) (y :: ys) ↔ R p y ∧ MatchesFront R pattern ys := by
  constructor
  · rintro ⟨front, hfront, hall⟩
    cases hall with
    | cons hp hrest =>
      obtain ⟨rfl, hpre⟩ := List.cons_prefix_cons.mp hfront
      exact ⟨hp, _, hpre, hrest⟩
  · rintro ⟨hp, front, hfront, hall⟩
    exact ⟨y :: front, List.cons_prefix_cons.mpr ⟨rfl, hfront⟩, .cons hp hall⟩

instance decidableMatchesFront [∀ p y, Decidable (R p y)] :
    (pattern : List α) → (ys : List β) → Decidable (MatchesFront R pattern ys)
  | [], _ => .isTrue matchesFront_nil
  | _ :: _, [] => .isFalse not_matchesFront_nil
  | _ :: pattern, _ :: ys =>
    have := decidableMatchesFront pattern ys
    decidable_of_iff _ matchesFront_cons.symm

theorem matchesFront_eq {pattern xs : List α} : MatchesFront (· = ·) pattern xs ↔ pattern <+: xs := by
  unfold MatchesFront
  rw [List.forall₂_eq_eq_eq]
  exact ⟨fun ⟨_, h, heq⟩ => heq ▸ h, fun h => ⟨pattern, h, rfl⟩⟩

theorem matchesFront_map (f : γ → α) (g : δ → β) (pattern : List γ) (ys : List δ) :
    MatchesFront R (pattern.map f) (ys.map g) ↔ MatchesFront (fun p y => R (f p) (g y)) pattern ys := by
  induction pattern generalizing ys with
  | nil => exact iff_of_true matchesFront_nil matchesFront_nil
  | cons p pattern ih =>
    cases ys with
    | nil => exact iff_of_false not_matchesFront_nil not_matchesFront_nil
    | cons y ys => rw [List.map_cons, List.map_cons, matchesFront_cons, matchesFront_cons, ih ys]

theorem matchesFront_congr (h : ∀ p ∈ pattern, ∀ y ∈ ys, R p y ↔ S p y) :
    MatchesFront R pattern ys ↔ MatchesFront S pattern ys := by
  induction pattern generalizing ys with
  | nil => exact iff_of_true matchesFront_nil matchesFront_nil
  | cons p pattern ih =>
    cases ys with
    | nil => exact iff_of_false not_matchesFront_nil not_matchesFront_nil
    | cons y ys =>
      rw [matchesFront_cons, matchesFront_cons, h p List.mem_cons_self y List.mem_cons_self,
        ih fun q hq z hz => h q (List.mem_cons_of_mem _ hq) z (List.mem_cons_of_mem _ hz)]

end Front

end Xerv.Lib
