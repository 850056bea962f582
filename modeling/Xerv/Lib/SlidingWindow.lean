import Mathlib.Data.List.TakeWhile
import Xerv.Lib.Positions

/-!
# Queues of the instants in a window

A queue of instants from which the front is dropped while it is older than the window. `Remembers` says what the
queue is of all instants that were ever put in: those behind some that are too old by now.
-/

namespace Xerv.Lib

/-- `while queue.front() is older than window { queue.pop_front() }`. The age is `duration_since`. -/
def dropAged (window now : ℕ) (queue : List ℕ) : List ℕ := queue.dropWhile fun t => decide (window < now - t)

theorem dropAged_eq_filter (window now : ℕ) {queue : List ℕ} (h : queue.Pairwise (· ≤ ·)) :
    dropAged window now queue = queue.filter fun t => now - t ≤ window := by
  have hmono : queue.Pairwise fun t u => decide (window < now - u) = true → decide (window < now - t) = true := by
    refine h.imp fun {t u} hle hu => ?_
    rw [decide_eq_true_eq] at hu ⊢
    omega
  unfold dropAged
  rw [dropWhile_eq_filter hmono]
  refine List.filter_congr fun t _ => ?_
  rw [← decide_not]
  exact decide_eq_decide.mpr Nat.not_lt

/-- The queue is what is left of the instants `times` at `last`. -/
structure Remembers (window : ℕ) (times queue : List ℕ) (last : ℕ) : Prop where
  sorted : times.Pairwise (· ≤ ·)
  past : ∀ t ∈ times, t ≤ last
  dropped : ∃ old, times = old ++ queue ∧ ∀ t ∈ old, window < last - t

namespace Remembers
variable {window last now : ℕ} {times queue : List ℕ}

theorem nil (window last : ℕ) : Remembers window [] [] last :=
  ⟨.nil, fun _ ht => absurd ht List.not_mem_nil, [], rfl, fun _ ht => absurd ht List.not_mem_nil⟩

theorem later (h : Remembers window times queue last) (hle : last ≤ now) : Remembers window times queue now := by
  obtain ⟨hsorted, hpast, old, htimes, hold⟩ := h
  refine ⟨hsorted, fun t ht => (hpast t ht).trans hle, old, htimes, fun t ht => ?_⟩
  have hage := hold t ht
  omega

theorem dropAged_eq (h : Remembers window times queue last) (hle : last ≤ now) :
    dropAged window now queue = times.filter fun t => now - t ≤ window := by
  obtain ⟨hsorted, -, old, htimes, hold⟩ := h
  subst htimes
  have hnone : old.filter (fun t => decide (now - t ≤ window)) = [] := by
    refine List.filter_eq_nil_iff.mpr fun t ht => ?_
    have hage := hold t ht
    rw [decide_eq_true_eq]
    omega
  rw [dropAged_eq_filter window now (hsorted.sublist (List.sublist_append_right _ _)), List.filter_append, hnone,
    List.nil_append]

theorem drop (h : Remembers window times queue last) (hle : last ≤ now) :
    Remembers window times (dropAged window now queue) now := by
  obtain ⟨hsorted, hpast, old, htimes, hold⟩ := h.later hle
  refine ⟨hsorted, hpast, old ++ queue.takeWhile fun t => decide (window < now - t), ?_, fun t ht => ?_⟩
  · unfold dropAged
    rw [List.append_assoc, List.takeWhile_append_dropWhile, htimes]
  · rcases List.mem_append.mp ht with hgone | hfront
    · exact hold t hgone
    · have haged := List.mem_takeWhile_imp hfront
      exact of_decide_eq_true haged

theorem push (h : Remembers window times queue now) : Remembers window (times ++ [now]) (queue ++ [now]) now := by
  obtain ⟨hsorted, hpast, old, htimes, hold⟩ := h
  refine ⟨List.pairwise_append.mpr ⟨hsorted, List.pairwise_singleton _ _, fun t ht u hu => ?_⟩, fun t ht => ?_, old,
    by rw [htimes, List.append_assoc], hold⟩
  · rw [List.mem_singleton.mp hu]
    exact hpast t ht
  · rcases List.mem_append.mp ht with hbefore | hlast
    · exact hpast t hbefore
    · exact (List.mem_singleton.mp hlast).le

end Remembers

def countFrom (start window : ℕ) (times : List ℕ) : ℕ := times.countP fun t => start ≤ t ∧ t ≤ start + window

theorem countFrom_concat_le {start window now : ℕ} {times : List ℕ} (limit : ℕ)
    (h : countFrom start window times ≤ limit)
    (hroom : (times.filter fun t => now - t ≤ window).length < limit) :
    countFrom start window (times ++ [now]) ≤ limit := by
  unfold countFrom at h ⊢
  rw [List.countP_append, List.countP_singleton]
  split_ifs with hnow
  · rw [decide_eq_true_eq] at hnow
    have hfewer : times.countP (fun t => decide (start ≤ t ∧ t ≤ start + window)) ≤
        times.countP fun t => decide (now - t ≤ window) := by
      refine List.countP_mono_left fun t _ ht => ?_
      rw [decide_eq_true_eq] at ht ⊢
      omega
    rw [← List.countP_eq_length_filter] at hroom
    omega
  · exact h

end Xerv.Lib
