import Xerv.Lib.Table
import Mathlib.Data.Nat.Notation
import Mathlib.Logic.Relation

/-!
# Closing a set under successors

A queue of vertices to visit: one that was seen is skipped, another is marked and its
successors join the queue, each as often as it is listed. Where only vertices of a list
have successors the loop ends, whatever cycles there are, and marks what can be
reached from the first queue.
-/

namespace Xerv.Lib

section
variable {V : Type*} [DecidableEq V] (adj : V → List V)

/-- The loop; `none` where the fuel runs out. -/
def closeLoop : ℕ → List V → Keys V → Option (Keys V)
  | _, [], seen => some seen
  | 0, _ :: _, _ => none
  | fuel + 1, v :: queue, seen =>
    if seen v then closeLoop fuel queue seen
    else closeLoop fuel (queue ++ adj v) (seen.insert v)

/-- `v` can be reached from one of `start`. -/
def ReachedFrom (start : List V) (v : V) : Prop :=
  ∃ s ∈ start, Relation.ReflTransGen (fun u w => w ∈ adj u) s v

/-- What holds in every round: nothing is lost, and nothing is marked or waits that cannot be reached. -/
structure Closing (start queue : List V) (seen : Keys V) : Prop where
  started : ∀ v ∈ start, seen v = true ∨ v ∈ queue
  closed : ∀ v, seen v = true → ∀ w ∈ adj v, seen w = true ∨ w ∈ queue
  sound : ∀ v, seen v = true ∨ v ∈ queue → ReachedFrom adj start v

variable {adj} {start : List V}

omit [DecidableEq V] in
theorem closing_start : Closing adj start start Keys.empty where
  started _ hv := .inr hv
  closed _ hv := absurd hv Bool.false_ne_true
  sound v hv := by
    rcases hv with hv | hv
    · exact absurd hv Bool.false_ne_true
    · exact ⟨v, hv, .refl⟩

omit [DecidableEq V] in
theorem Closing.skip {queue : List V} {seen : Keys V} {v : V} (h : Closing adj start (v :: queue) seen)
    (hv : seen v = true) : Closing adj start queue seen := by
  have hkeep (w : V) (hw : seen w = true ∨ w ∈ v :: queue) : seen w = true ∨ w ∈ queue := by
    rcases hw with hw | hw
    · exact .inl hw
    · rcases List.mem_cons.mp hw with rfl | hw
      · exact .inl hv
      · exact .inr hw
  exact ⟨fun w hw => hkeep w (h.started w hw), fun u hu w hw => hkeep w (h.closed u hu w hw),
    fun w hw => h.sound w (hw.imp_right (List.mem_cons_of_mem v))⟩

theorem Closing.visit {queue : List V} {seen : Keys V} {v : V} (h : Closing adj start (v :: queue) seen) :
    Closing adj start (queue ++ adj v) (seen.insert v) := by
  have hkeep (w : V) (hw : seen w = true ∨ w ∈ v :: queue) :
      seen.insert v w = true ∨ w ∈ queue ++ adj v := by
    rw [Keys.insert_true_iff]
    rcases hw with hw | hw
    · exact .inl (.inr hw)
    · rcases List.mem_cons.mp hw with rfl | hw
      · exact .inl (.inl rfl)
      · exact .inr (List.mem_append_left _ hw)
  refine ⟨fun w hw => hkeep w (h.started w hw), fun u hu w hw => ?_, fun w hw => ?_⟩
  · rcases (Keys.insert_true_iff _ _ _).mp hu with rfl | hu
    · exact .inr (List.mem_append_right _ hw)
    · exact hkeep w (h.closed u hu w hw)
  · obtain ⟨s, hs, hsv⟩ := h.sound v (.inr List.mem_cons_self)
    rcases hw with hw | hw
    · rcases (Keys.insert_true_iff _ _ _).mp hw with rfl | hw
      · exact ⟨s, hs, hsv⟩
      · exact h.sound w (.inl hw)
    · rcases List.mem_append.mp hw with hw | hw
      · exact h.sound w (.inr (List.mem_cons_of_mem v hw))
      · exact ⟨s, hs, hsv.tail hw⟩

theorem closeLoop_closing (fuel : ℕ) {queue : List V} {seen seen' : Keys V}
    (h : Closing adj start queue seen) (hloop : closeLoop adj fuel queue seen = some seen') :
    Closing adj start [] seen' := by
  induction fuel generalizing queue seen with
  | zero =>
    cases queue with
    | nil =>
      obtain rfl := Option.some.inj hloop
      exact h
    | cons v queue => cases hloop
  | succ fuel ih =>
    cases queue with
    | nil =>
      obtain rfl := Option.some.inj hloop
      exact h
    | cons v queue =>
      unfold closeLoop at hloop
      split at hloop
      · rename_i hv
        exact ih (h.skip hv) hloop
      · exact ih h.visit hloop

omit [DecidableEq V] in
theorem Closing.exact {seen : Keys V} (h : Closing adj start [] seen) (v : V) :
    seen v = true ↔ ReachedFrom adj start v := by
  constructor
  · exact fun hv => h.sound v (.inl hv)
  · rintro ⟨s, hs, hsv⟩
    induction hsv with
    | refl => exact (h.started s hs).resolve_right List.not_mem_nil
    | tail _ hstep ih => exact (h.closed _ ih _ hstep).resolve_right List.not_mem_nil

theorem closeLoop_fuel (fuel more : ℕ) (queue : List V) (seen seen' : Keys V)
    (h : closeLoop adj fuel queue seen = some seen') :
    closeLoop adj (fuel + more) queue seen = some seen' := by
  induction fuel generalizing queue seen with
  | zero =>
    cases queue with
    | nil =>
      obtain rfl := Option.some.inj h
      rw [closeLoop]
    | cons v queue => cases h
  | succ fuel ih =>
    cases queue with
    | nil =>
      obtain rfl := Option.some.inj h
      rw [closeLoop]
    | cons v queue =>
      rw [Nat.succ_add]
      unfold closeLoop at h ⊢
      split at h
      · rename_i hv
        rw [if_pos hv]
        exact ih _ _ h
      · rename_i hv
        rw [if_neg hv]
        exact ih _ _ h

/-! ### The loop ends -/

variable (adj)

def unqueued : List V → Keys V → ℕ
  | [], _ => 0
  | v :: vs, seen => (if seen v then 0 else (adj v).length) + unqueued vs seen

theorem unqueued_insert_le (vs : List V) (seen : Keys V) (v : V) :
    unqueued adj vs (seen.insert v) ≤ unqueued adj vs seen := by
  induction vs with
  | nil => exact Nat.le_refl _
  | cons w vs ih =>
    refine Nat.add_le_add ?_ ih
    by_cases hw : w = v
    · simp [hw]
    · simp [hw]

theorem unqueued_visit (vs : List V) (seen : Keys V) (v : V) (hv : v ∈ vs) (hnew : ¬seen v = true) :
    unqueued adj vs (seen.insert v) + (adj v).length ≤ unqueued adj vs seen := by
  induction vs with
  | nil => exact absurd hv List.not_mem_nil
  | cons w vs ih =>
    unfold unqueued
    by_cases hw : w = v
    · subst hw
      have hrest := unqueued_insert_le adj vs seen w
      rw [if_pos (Keys.insert_self seen w), if_neg hnew]
      omega
    · have hrest := ih ((List.mem_cons.mp hv).resolve_left fun h => hw h.symm)
      rw [Keys.insert_ne seen hw]
      omega

/-- Every round takes one vertex off the queue, and a vertex is visited once. -/
theorem closeLoop_enough (vs : List V) (hvs : ∀ v, v ∉ vs → adj v = []) (fuel : ℕ) (queue : List V)
    (seen : Keys V) (hfuel : queue.length + unqueued adj vs seen ≤ fuel) :
    ∃ seen', closeLoop adj fuel queue seen = some seen' := by
  induction fuel generalizing queue seen with
  | zero =>
    obtain rfl := List.length_eq_zero_iff.mp (Nat.eq_zero_of_add_eq_zero_right (Nat.le_zero.mp hfuel))
    exact ⟨seen, by rw [closeLoop]⟩
  | succ fuel ih =>
    cases queue with
    | nil => exact ⟨seen, by rw [closeLoop]⟩
    | cons v queue =>
      rw [List.length_cons] at hfuel
      unfold closeLoop
      split
      · exact ih queue seen (by omega)
      · rename_i hnew
        have hvisit : unqueued adj vs (seen.insert v) + (adj v).length ≤ unqueued adj vs seen := by
          by_cases hv : v ∈ vs
          · exact unqueued_visit adj vs seen v hv hnew
          · rw [hvs v hv]
            exact unqueued_insert_le adj vs seen v
        refine ih (queue ++ adj v) (seen.insert v) ?_
        rw [List.length_append]
        omega

/-- The loop ends, with the same result for all fuel from some on, and marks what can be reached. -/
theorem closeLoop_total (vs : List V) (hvs : ∀ v, v ∉ vs → adj v = []) (start : List V) :
    ∃ fuel seen, (∀ more, closeLoop adj (fuel + more) start Keys.empty = some seen) ∧
      ∀ v, seen v = true ↔ ReachedFrom adj start v := by
  obtain ⟨seen, hloop⟩ := closeLoop_enough adj vs hvs _ start Keys.empty (Nat.le_refl _)
  exact ⟨_, seen, fun more => closeLoop_fuel _ more start Keys.empty seen hloop,
    (closeLoop_closing _ closing_start hloop).exact⟩

end

end Xerv.Lib
