import Xerv.Lib.FiniteMap

/-!
# Work queues with redelivery

Items wait in a queue, are handed out under their key, and are dropped or put back. To follow one
item through its copies, the items of a queue are numbered as they are accepted: the numbered queue
makes the same moves, `Covers` says that it is the queue itself once the numbers are forgotten, and
`Distinct` that no number is in two places.
-/

namespace Xerv.Lib

structure WorkQueue (K R : Type) where
  waiting : List R
  held : FiniteMap K R

namespace WorkQueue

inductive Move (K R : Type) where
  | stay
  | accept (r : R)
  | take (i : ℕ)
  | drop (k : K)
  | giveBack (k : K)

section Moves
variable {K R : Type} [DecidableEq K] (key : R → K) (touch : R → R)

def empty : WorkQueue K R := ⟨[], ∅⟩

/-- An item that is taken is touched and held under its key; what was held there before is gone. -/
def apply (q : WorkQueue K R) : Move K R → WorkQueue K R
  | .stay => q
  | .accept r => { q with waiting := q.waiting ++ [r] }
  | .take i =>
    match q.waiting[i]? with
    | none => q
    | some r => ⟨q.waiting.eraseIdx i, q.held.insert (key r) (touch r)⟩
  | .drop k => { q with held := q.held.remove k }
  | .giveBack k =>
    match q.held.get k with
    | none => q
    | some r => ⟨q.waiting ++ [r], q.held.remove k⟩

variable {key touch}

theorem apply_take {q : WorkQueue K R} {i : ℕ} {r : R} (h : q.waiting[i]? = some r) :
    q.apply key touch (.take i) = ⟨q.waiting.eraseIdx i, q.held.insert (key r) (touch r)⟩ := by
  rw [apply, h]

theorem apply_giveBack {q : WorkQueue K R} {k : K} {r : R} (h : q.held.get k = some r) :
    q.apply key touch (.giveBack k) = ⟨q.waiting ++ [r], q.held.remove k⟩ := by
  rw [apply, h]

end Moves

section Numbered
variable {K R : Type} [DecidableEq K] (key : R → K) (touch : R → R)

def applyNumbered (q : WorkQueue K (R × ℕ)) (next : ℕ) : Move K R → WorkQueue K (R × ℕ)
  | .stay => q
  | .accept r => q.apply (key ∘ Prod.fst) (Prod.map touch id) (.accept (r, next))
  | .take i => q.apply (key ∘ Prod.fst) (Prod.map touch id) (.take i)
  | .drop k => q.apply (key ∘ Prod.fst) (Prod.map touch id) (.drop k)
  | .giveBack k => q.apply (key ∘ Prod.fst) (Prod.map touch id) (.giveBack k)

/-- Without its numbers, `q` is `plain`. -/
structure Covers (q : WorkQueue K (R × ℕ)) (plain : WorkQueue K R) : Prop where
  waiting : q.waiting.map Prod.fst = plain.waiting
  held : ∀ k, (q.held.get k).map Prod.fst = plain.held.get k

/-- No number is in two places. -/
structure Distinct (q : WorkQueue K (R × ℕ)) : Prop where
  waiting : (q.waiting.map Prod.snd).Nodup
  apart : ∀ k p, q.held.get k = some p → p.2 ∉ q.waiting.map Prod.snd
  held : ∀ k k' p p', q.held.get k = some p → q.held.get k' = some p' → p.2 = p'.2 → k = k'

/-- Every number is below `next`. -/
structure Below (q : WorkQueue K (R × ℕ)) (next : ℕ) : Prop where
  waiting : ∀ p ∈ q.waiting, p.2 < next
  held : ∀ k p, q.held.get k = some p → p.2 < next

variable {key touch} {q : WorkQueue K (R × ℕ)} {plain : WorkQueue K R} {next : ℕ}

theorem Covers.waiting_at (h : q.Covers plain) {i : ℕ} {r : R} (hr : plain.waiting[i]? = some r) :
    ∃ n, q.waiting[i]? = some (r, n) := by
  rw [← h.waiting, List.getElem?_map] at hr
  obtain ⟨p, hp, rfl⟩ := Option.map_eq_some_iff.mp hr
  exact ⟨p.2, hp⟩

theorem Covers.held_at (h : q.Covers plain) {k : K} {r : R} (hr : plain.held.get k = some r) :
    ∃ n, q.held.get k = some (r, n) := by
  rw [← h.held] at hr
  obtain ⟨p, hp, rfl⟩ := Option.map_eq_some_iff.mp hr
  exact ⟨p.2, hp⟩

theorem covers_remove (h : ∀ k, (q.held.get k).map Prod.fst = plain.held.get k) (k j : K) :
    ((q.held.remove k).get j).map Prod.fst = (plain.held.remove k).get j := by
  by_cases hj : j = k
  · rw [hj, FiniteMap.get_remove_self, FiniteMap.get_remove_self]
    rfl
  · rw [FiniteMap.get_remove_ne _ hj, FiniteMap.get_remove_ne _ hj, h]

theorem Covers.applyNumbered (h : q.Covers plain) (move : Move K R) :
    (q.applyNumbered key touch next move).Covers (plain.apply key touch move) := by
  cases move with
  | stay => exact h
  | accept r =>
    refine ⟨?_, h.held⟩
    change (q.waiting ++ [(r, next)]).map Prod.fst = plain.waiting ++ [r]
    rw [List.map_append, h.waiting]
    rfl
  | take i =>
    cases hr : plain.waiting[i]? with
    | none =>
      have hnone : q.waiting[i]? = none := by
        rw [← h.waiting, List.getElem?_map, Option.map_eq_none_iff] at hr
        exact hr
      simpa only [WorkQueue.applyNumbered, apply, hr, hnone] using h
    | some r =>
      obtain ⟨n, hn⟩ := h.waiting_at hr
      simp only [WorkQueue.applyNumbered, apply, hr, hn]
      constructor
      · rw [← h.waiting]
        exact (List.eraseIdx_map ..).symm
      · intro k
        rw [FiniteMap.get_insert, FiniteMap.get_insert]
        change (if k = key r then some (touch r, n) else q.held.get k).map Prod.fst = _
        split
        · rfl
        · exact h.held k
  | drop k => exact ⟨h.waiting, covers_remove h.held k⟩
  | giveBack k =>
    cases hr : plain.held.get k with
    | none =>
      have hnone : q.held.get k = none := by
        rw [← h.held, Option.map_eq_none_iff] at hr
        exact hr
      simpa only [WorkQueue.applyNumbered, apply, hr, hnone] using h
    | some r =>
      obtain ⟨n, hn⟩ := h.held_at hr
      simp only [WorkQueue.applyNumbered, apply, hr, hn]
      refine ⟨?_, covers_remove h.held k⟩
      rw [List.map_append, h.waiting]
      rfl

theorem Distinct.taken_gone (h : q.Distinct) {i : ℕ} {p : R × ℕ} (hp : q.waiting[i]? = some p) :
    p.2 ∉ (q.waiting.eraseIdx i).map Prod.snd := by
  obtain ⟨hi, rfl⟩ := List.getElem?_eq_some_iff.mp hp
  have hperm := (List.getElem_cons_eraseIdx_perm hi).map Prod.snd
  have hnodup := hperm.nodup_iff.mpr h.waiting
  exact (List.nodup_cons.mp hnodup).1

theorem Distinct.remove (h : q.Distinct) (k : K) : Distinct ⟨q.waiting, q.held.remove k⟩ := by
  refine ⟨h.waiting, fun j p hp => h.apart j p (FiniteMap.get_remove_some _ hp).2, ?_⟩
  intro j j' p p' hp hp' hn
  exact h.held j j' p p' (FiniteMap.get_remove_some _ hp).2 (FiniteMap.get_remove_some _ hp').2 hn

theorem Distinct.append (h : q.Distinct) (p : R × ℕ) (hwaiting : p.2 ∉ q.waiting.map Prod.snd)
    (hheld : ∀ k p', q.held.get k = some p' → p'.2 ≠ p.2) : Distinct ⟨q.waiting ++ [p], q.held⟩ := by
  refine ⟨?_, ?_, h.held⟩
  · rw [List.map_append]
    refine List.nodup_append.mpr ⟨h.waiting, List.nodup_singleton _, ?_⟩
    intro n hn n' hn' hnn'
    rw [List.mem_singleton.mp hn'] at hnn'
    exact hwaiting (hnn' ▸ hn)
  · intro k p' hp'
    rw [List.map_append, List.mem_append]
    rintro (hmem | hmem)
    · exact h.apart k p' hp' hmem
    · exact hheld k p' hp' (List.mem_singleton.mp hmem)

theorem Distinct.take (h : q.Distinct) {i : ℕ} {p : R × ℕ} (hp : q.waiting[i]? = some p) (k : K) (r : R) :
    Distinct ⟨q.waiting.eraseIdx i, q.held.insert k (r, p.2)⟩ := by
  have hsub : ((q.waiting.eraseIdx i).map Prod.snd).Sublist (q.waiting.map Prod.snd) :=
    (List.eraseIdx_sublist _ _).map _
  have hmem : p.2 ∈ q.waiting.map Prod.snd := List.mem_map_of_mem (List.mem_of_getElem? hp)
  have hgone := h.taken_gone hp
  refine ⟨h.waiting.sublist hsub, ?_, ?_⟩
  · intro j p' hp'
    rcases FiniteMap.get_insert_some _ hp' with ⟨-, rfl⟩ | ⟨-, hold⟩
    · exact hgone
    · exact fun hin => h.apart j p' hold (hsub.subset hin)
  · intro j j' p₁ p₂ hp₁ hp₂ hn
    rcases FiniteMap.get_insert_some _ hp₁ with ⟨hj, rfl⟩ | ⟨-, hold₁⟩
    · rcases FiniteMap.get_insert_some _ hp₂ with ⟨hj', rfl⟩ | ⟨-, hold₂⟩
      · rw [hj, hj']
      · exact absurd (hn ▸ hmem) (h.apart j' p₂ hold₂)
    · rcases FiniteMap.get_insert_some _ hp₂ with ⟨-, rfl⟩ | ⟨-, hold₂⟩
      · exact absurd (hn ▸ hmem) (h.apart j p₁ hold₁)
      · exact h.held j j' p₁ p₂ hold₁ hold₂ hn

theorem Distinct.applyNumbered (h : q.Distinct) (hbelow : q.Below next) (move : Move K R) :
    (q.applyNumbered key touch next move).Distinct := by
  cases move with
  | stay => exact h
  | accept r =>
    refine h.append (r, next) ?_ fun k p hp => (hbelow.held k p hp).ne
    intro hmem
    obtain ⟨p, hp, hn⟩ := List.mem_map.mp hmem
    exact (hbelow.waiting p hp).ne hn
  | take i =>
    cases hp : q.waiting[i]? with
    | none => simpa only [WorkQueue.applyNumbered, apply, hp] using h
    | some p =>
      simp only [WorkQueue.applyNumbered, apply, hp]
      exact h.take hp _ _
  | drop k => exact h.remove k
  | giveBack k =>
    cases hp : q.held.get k with
    | none => simpa only [WorkQueue.applyNumbered, apply, hp] using h
    | some p =>
      simp only [WorkQueue.applyNumbered, apply, hp]
      refine (h.remove k).append p (h.apart k p hp) ?_
      intro j p' hp' hn
      obtain ⟨hj, hold⟩ := FiniteMap.get_remove_some _ hp'
      exact hj (h.held j k p' p hold hp hn)

theorem Below.mono (h : q.Below next) {later : ℕ} (hle : next ≤ later) : q.Below later :=
  ⟨fun p hp => (h.waiting p hp).trans_le hle, fun k p hp => (h.held k p hp).trans_le hle⟩

theorem Below.applyNumbered (h : q.Below next) (move : Move K R) {later : ℕ} (hle : next ≤ later)
    (hnew : ∀ r, move = .accept r → next < later) :
    (q.applyNumbered key touch next move).Below later := by
  have hlater := h.mono hle
  cases move with
  | stay => exact hlater
  | accept r =>
    refine ⟨?_, hlater.held⟩
    intro p hp
    rcases List.mem_append.mp hp with hold | hlast
    · exact hlater.waiting p hold
    · rw [List.mem_singleton.mp hlast]
      exact hnew r rfl
  | take i =>
    cases hp : q.waiting[i]? with
    | none => simpa only [WorkQueue.applyNumbered, apply, hp] using hlater
    | some p =>
      simp only [WorkQueue.applyNumbered, apply, hp]
      refine ⟨fun p' hp' => hlater.waiting p' ((List.eraseIdx_sublist _ _).subset hp'), ?_⟩
      intro k p' hp'
      rcases FiniteMap.get_insert_some _ hp' with ⟨-, rfl⟩ | ⟨-, hold⟩
      · exact hlater.waiting p (List.mem_of_getElem? hp)
      · exact hlater.held k p' hold
  | drop k => exact ⟨hlater.waiting, fun j p hp => hlater.held j p (FiniteMap.get_remove_some _ hp).2⟩
  | giveBack k =>
    cases hp : q.held.get k with
    | none => simpa only [WorkQueue.applyNumbered, apply, hp] using hlater
    | some p =>
      simp only [WorkQueue.applyNumbered, apply, hp]
      refine ⟨?_, fun j p' hp' => hlater.held j p' (FiniteMap.get_remove_some _ hp').2⟩
      intro p' hp'
      rcases List.mem_append.mp hp' with hold | hlast
      · exact hlater.waiting p' hold
      · rw [List.mem_singleton.mp hlast]
        exact hlater.held k p hp

end Numbered
end WorkQueue
end Xerv.Lib
