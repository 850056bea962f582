import Mathlib.Data.List.Pairwise

/-!
# Replaying a log into a state machine that answers

`replay` folds a transition with an answer over a log. The rules say what a longer log adds to a replay, and
which part of a log with increasing positions lies after the position that a prefix of it ends at.
-/

namespace Xerv.Lib

section Replay
variable {S E R : Type*} (step : S → E → S × R)

def replay (s : S) : List E → S × List R
  | [] => (s, [])
  | e :: log => ((replay (step s e).1 log).1, (step s e).2 :: (replay (step s e).1 log).2)

theorem replay_append (s : S) (first rest : List E) :
    replay step s (first ++ rest) =
      ((replay step (replay step s first).1 rest).1,
        (replay step s first).2 ++ (replay step (replay step s first).1 rest).2) := by
  induction first generalizing s with
  | nil => rfl
  | cons e first ih =>
    have hrest := ih (step s e).1
    simp only [List.cons_append, replay, hrest]

theorem replay_answers_length (s : S) (log : List E) : (replay step s log).2.length = log.length := by
  induction log generalizing s with
  | nil => rfl
  | cons e log ih => simp [replay, ih]

theorem replay_take_drop (s : S) (log : List E) (k : ℕ) :
    (replay step (replay step s (log.take k)).1 (log.drop k)).1 = (replay step s log).1 := by
  have h := replay_append step s (log.take k) (log.drop k)
  rw [List.take_append_drop] at h
  rw [h]

theorem replay_drop_answer (s : S) (log : List E) (k i : ℕ) (hk : k ≤ log.length) :
    (replay step (replay step s (log.take k)).1 (log.drop k)).2[i]? = (replay step s log).2[k + i]? := by
  have h := replay_append step s (log.take k) (log.drop k)
  rw [List.take_append_drop] at h
  have hlength : (replay step s (log.take k)).2.length = k := by
    rw [replay_answers_length, List.length_take, Nat.min_eq_left hk]
  rw [h, List.getElem?_append_right (by omega), hlength, Nat.add_sub_cancel_left]

theorem replay_answer_kept (s : S) (log more : List E) (i : ℕ) (r : R) (h : (replay step s log).2[i]? = some r) :
    (replay step s (log ++ more)).2[i]? = some r := by
  have hi : i < (replay step s log).2.length := (List.getElem?_eq_some_iff.mp h).1
  rw [replay_append, List.getElem?_append_left hi, h]

theorem replay_segment_answer (s : S) (log : List E) (k count i : ℕ) (r : R) (hk : k ≤ log.length)
    (h : (replay step (replay step s (log.take k)).1 ((log.drop k).take count)).2[i]? = some r) :
    (replay step s log).2[k + i]? = some r := by
  have hkept := replay_answer_kept step _ _ ((log.drop k).drop count) i r h
  rw [List.take_append_drop] at hkept
  rw [← replay_drop_answer step s log k i hk, hkept]

end Replay

section Positions
variable {E : Type*} (pos : E → ℕ)

/-- The entries after a position, all of them if there is none. -/
def after (position : Option ℕ) (log : List E) : List E := log.filter fun e => position.all (· < pos e)

def Increasing (log : List E) : Prop := log.Pairwise fun a b => pos a < pos b

variable {pos} {log : List E}

theorem Increasing.position_injective (h : Increasing pos log) {i j : ℕ} {a b : E} (hi : log[i]? = some a)
    (hj : log[j]? = some b) (hpos : pos a = pos b) : i = j := by
  obtain ⟨hilt, rfl⟩ := List.getElem?_eq_some_iff.mp hi
  obtain ⟨hjlt, rfl⟩ := List.getElem?_eq_some_iff.mp hj
  rcases Nat.lt_trichotomy i j with hij | hij | hij
  · have := List.pairwise_iff_getElem.mp h i j hilt hjlt hij
    omega
  · exact hij
  · have := List.pairwise_iff_getElem.mp h j i hjlt hilt hij
    omega

theorem Increasing.split (h : Increasing pos log) (k : ℕ) :
    Increasing pos (log.take k) ∧ ∀ a ∈ log.take k, ∀ b ∈ log.drop k, pos a < pos b := by
  unfold Increasing at h ⊢
  rw [← List.take_append_drop k log, List.pairwise_append] at h
  exact ⟨h.1, h.2.2⟩

theorem Increasing.le_getLast (h : Increasing pos log) (hne : log ≠ []) {a : E} (ha : a ∈ log) :
    pos a ≤ pos (log.getLast hne) := by
  rw [← List.dropLast_concat_getLast hne] at ha
  rcases List.mem_append.mp ha with hinit | hlast
  · have hpairs := h
    unfold Increasing at hpairs
    rw [← List.dropLast_concat_getLast hne] at hpairs
    exact Nat.le_of_lt ((List.pairwise_append.mp hpairs).2.2 a hinit _ (List.mem_singleton_self _))
  · exact Nat.le_of_eq (congrArg pos (List.mem_singleton.mp hlast))

theorem Increasing.after_take (h : Increasing pos log) (k : ℕ) :
    after pos ((log.take k).getLast?.map pos) log = log.drop k := by
  by_cases hempty : log.take k = []
  · rcases List.take_eq_nil_iff.mp hempty with rfl | rfl
    · simp [after]
    · simp [after]
  · rw [List.getLast?_eq_some_getLast hempty]
    obtain ⟨hfirst, hsplit⟩ := h.split k
    have hdropped : after pos (some (pos ((log.take k).getLast hempty))) (log.take k) = [] := by
      unfold after
      rw [List.filter_eq_nil_iff]
      intro a ha
      have := hfirst.le_getLast hempty ha
      simp
      omega
    have hkept : after pos (some (pos ((log.take k).getLast hempty))) (log.drop k) = log.drop k := by
      unfold after
      rw [List.filter_eq_self]
      intro b hb
      simpa using hsplit _ (List.getLast_mem hempty) b hb
    calc after pos (some (pos ((log.take k).getLast hempty))) log
        = after pos (some (pos ((log.take k).getLast hempty))) (log.take k ++ log.drop k) := by
          rw [List.take_append_drop]
      _ = log.drop k := by
          rw [after, List.filter_append]
          exact congrArg₂ (· ++ ·) hdropped hkept

theorem Increasing.append (h : Increasing pos log) (e : E) (hnew : ∀ a ∈ log, pos a < pos e) :
    Increasing pos (log ++ [e]) := by
  unfold Increasing
  rw [List.pairwise_append]
  refine ⟨h, List.pairwise_singleton _ _, ?_⟩
  intro a ha b hb
  rw [List.mem_singleton.mp hb]
  exact hnew a ha

end Positions

end Xerv.Lib
