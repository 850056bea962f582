import Mathlib.Data.List.Infix

/-!
# A limit on going on

Decisions in a row, each to stop (`true`) or to go on, with the count of those to go on since the last
stop. Where the count has reached the limit, the decision is to stop.
-/

namespace Xerv.Lib

def afterDecision (count : ℕ) (stop : Bool) : ℕ := if stop then 0 else count + 1

def counted (count : ℕ) (stops : List Bool) : ℕ := stops.foldl afterDecision count

def Limited (limit : ℕ) : ℕ → List Bool → Prop
  | _, [] => True
  | count, stop :: stops => (limit ≤ count → stop = true) ∧ Limited limit (afterDecision count stop) stops

theorem counted_of_not_mem (count : ℕ) {stops : List Bool} (h : true ∉ stops) :
    counted count stops = count + stops.length := by
  induction stops generalizing count with
  | nil => rfl
  | cons stop stops ih =>
    have hstop : stop = false := by
      cases stop with
      | false => rfl
      | true => exact absurd (List.mem_cons_self ..) h
    have hrest : true ∉ stops := fun hmem => h (List.mem_cons_of_mem _ hmem)
    calc counted count (stop :: stops) = counted (count + 1) stops := by rw [hstop]; rfl
      _ = count + 1 + stops.length := ih (count + 1) hrest
      _ = count + (stop :: stops).length := by rw [List.length_cons]; omega

/-- Only the decisions since the last stop are counted. -/
theorem counted_since_stop (count : ℕ) (before : List Bool) {since : List Bool} (h : true ∉ since) :
    counted count (before ++ true :: since) = since.length := by
  calc counted count (before ++ true :: since) = counted 0 since := by
        rw [counted, List.foldl_append]
        rfl
    _ = 0 + since.length := counted_of_not_mem 0 h
    _ = since.length := Nat.zero_add _

theorem limited_append {limit count : ℕ} {stops rest : List Bool} :
    Limited limit count (stops ++ rest) ↔
      Limited limit count stops ∧ Limited limit (counted count stops) rest := by
  induction stops generalizing count with
  | nil => exact ⟨fun h => ⟨trivial, h⟩, fun h => h.2⟩
  | cons stop stops ih =>
    rw [List.cons_append, Limited, Limited, ih, and_assoc]
    rfl

theorem Limited.length_le {limit count : ℕ} {stops : List Bool} (h : Limited limit count stops)
    (hgoes : true ∉ stops) : stops.length ≤ limit := by
  rcases List.eq_nil_or_concat' stops with rfl | ⟨before, last, rfl⟩
  · exact Nat.zero_le _
  · have hbefore : true ∉ before := fun hmem => hgoes (List.mem_append_left _ hmem)
    have hlast : (limit ≤ counted count before → last = true) ∧ True := (limited_append.mp h).2
    rw [counted_of_not_mem count hbefore] at hlast
    by_contra hlong
    rw [List.length_append, List.length_singleton] at hlong
    have hstop : last = true := hlast.1 (by omega)
    exact hgoes (hstop ▸ List.mem_append_right _ (List.mem_singleton_self _))

theorem Limited.infix_of {limit count : ℕ} {stops part : List Bool} (h : Limited limit count stops)
    (hpart : part <:+: stops) : ∃ count', Limited limit count' part := by
  obtain ⟨before, after, rfl⟩ := hpart
  exact ⟨counted count before, (limited_append.mp (limited_append.mp h).1).2⟩

/-- Anywhere in the row, there is no way to go on longer than the limit. -/
theorem Limited.part_length_le {limit count : ℕ} {stops part : List Bool} (h : Limited limit count stops)
    (hpart : part <:+: stops) (hgoes : true ∉ part) : part.length ≤ limit := by
  obtain ⟨count', h'⟩ := h.infix_of hpart
  exact h'.length_le hgoes

end Xerv.Lib
