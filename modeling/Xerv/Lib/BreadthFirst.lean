import Mathlib.Data.List.Pairwise
import Mathlib.Data.Nat.Notation
import Xerv.Lib.Table

/-!
# Breadth-first search

A search keeps a route for every vertex that it has seen and a queue of vertices that it has
still to expand. `Searching` is what holds of the two between any two steps; its rules follow
the steps of a search: start, see a new neighbour of the first vertex in the queue, and take
that vertex off when all its neighbours are seen. The routes are then shortest ones.
-/

namespace Xerv.Lib

section
variable {V E : Type*} (adj : V → List (V × E)) (start : V)

/-- The labels of the edges along a path. -/
inductive Trail : V → List E → Prop where
  | nil : Trail start []
  | snoc {u w e p} (hroute : Trail u p) (hedge : (w, e) ∈ adj u) : Trail w (p ++ [e])

/-- The state of a search with routes `route`, of which `queue` is to be expanded. -/
structure Searching (route : V → Option (List E)) (queue : List V) : Prop where
  started : route start = some []
  sound : ∀ v p, route v = some p → Trail adj start v p
  queued : ∀ v ∈ queue, ∃ p, route v = some p
  expanded : ∀ v p, route v = some p → v ∉ queue → ∀ x ∈ adj v, ∃ q, route x.1 = some q ∧ q.length ≤ p.length + 1
  ordered : queue.Pairwise fun v w => ∀ p q, route v = some p → route w = some q → p.length ≤ q.length
  near : ∀ u p, queue.head? = some u → route u = some p → ∀ w q, route w = some q → q.length ≤ p.length + 1
  shortest : ∀ u p, queue.head? = some u → route u = some p → ∀ w p', Trail adj start w p' →
    p'.length ≤ p.length → ∃ q, route w = some q ∧ q.length ≤ p'.length

variable {adj start}

theorem searching_start [DecidableEq V] :
    Searching adj start (Table.empty.insert start []) [start] where
  started := Table.insert_self _ _ _
  sound v p h := by
    rcases Table.insert_some h with ⟨rfl, rfl⟩ | ⟨-, h⟩
    · exact .nil
    · cases h
  queued v hv := by
    rw [List.mem_singleton.mp hv]
    exact ⟨[], Table.insert_self _ _ _⟩
  expanded v p h hv := by
    rcases Table.insert_some h with ⟨heq, -⟩ | ⟨-, h⟩
    · exact absurd (List.mem_singleton.mpr heq) hv
    · cases h
  ordered := List.pairwise_singleton _ _
  near u p _ _ w q h := by
    rcases Table.insert_some h with ⟨-, rfl⟩ | ⟨-, h⟩
    · exact Nat.zero_le _
    · cases h
  shortest u p hu hp w p' hroute hlen := by
    cases hu
    rw [Table.insert_self] at hp
    cases hp
    obtain rfl := List.length_eq_zero_iff.mp (Nat.le_zero.mp hlen)
    generalize hnil : ([] : List E) = p' at hroute
    cases hroute with
    | nil => exact ⟨[], Table.insert_self _ _ _, Nat.le_refl _⟩
    | snoc _ _ => simp at hnil

variable {route : Table V (List E)} {queue : List V} {u w : V} {e : E} {p : List E}

/-- A new neighbour joins the queue. -/
theorem Searching.see [DecidableEq V] (h : Searching adj start route (u :: queue)) (hu : route u = some p)
    (hedge : (w, e) ∈ adj u) (hnew : route w = none) :
    Searching adj start (route.insert w (p ++ [e])) (u :: queue ++ [w]) := by
  have hlen : (p ++ [e]).length = p.length + 1 := List.length_append
  have hqueued (v : V) (hv : v ∈ u :: queue) : route.insert w (p ++ [e]) v = route v := by
    obtain ⟨q, hq⟩ := h.queued v hv
    rw [Table.insert_of_new hnew hq, hq]
  have hfirst := (hqueued u List.mem_cons_self).trans hu
  refine ⟨Table.insert_of_new hnew h.started, ?_, ?_, ?_, ?_, ?_, ?_⟩
  · intro v q hv
    rcases Table.insert_some hv with ⟨rfl, rfl⟩ | ⟨-, hv⟩
    · exact .snoc (h.sound u p hu) hedge
    · exact h.sound v q hv
  · intro v hv
    rcases List.mem_append.mp hv with hv | hv
    · rw [hqueued v hv]
      exact h.queued v hv
    · rw [List.mem_singleton.mp hv]
      exact ⟨p ++ [e], Table.insert_self _ _ _⟩
  · intro v q hv hout x hx
    rw [List.mem_append, not_or, List.mem_singleton] at hout
    rw [Table.insert_ne route _ hout.2] at hv
    obtain ⟨q', hq', hle⟩ := h.expanded v q hv hout.1 x hx
    exact ⟨q', Table.insert_of_new hnew hq', hle⟩
  · rw [List.pairwise_append]
    refine ⟨?_, List.pairwise_singleton _ _, ?_⟩
    · refine h.ordered.imp_of_mem fun {v v'} hv hv' hle q q' hq hq' => ?_
      rw [hqueued v hv] at hq
      rw [hqueued v' hv'] at hq'
      exact hle q q' hq hq'
    · intro v hv v' hv' q q' hq hq'
      rw [hqueued v hv] at hq
      rw [List.mem_singleton.mp hv', Table.insert_self] at hq'
      cases hq'
      rw [hlen]
      exact h.near u p rfl hu v q hq
  · intro u' p₁ hu' hp₁ v q hv
    cases hu'
    cases hp₁.symm.trans hfirst
    rcases Table.insert_some hv with ⟨-, rfl⟩ | ⟨-, hv⟩
    · exact Nat.le_of_eq hlen
    · exact h.near u p rfl hu v q hv
  · intro u' p₁ hu' hp₁ v p' hroute hle
    cases hu'
    cases hp₁.symm.trans hfirst
    obtain ⟨q, hq, hshort⟩ := h.shortest u p rfl hu v p' hroute hle
    exact ⟨q, Table.insert_of_new hnew hq, hshort⟩

/-- The first vertex of the queue is done when all its neighbours are seen. -/
theorem Searching.leave (h : Searching adj start route (u :: queue)) (hall : ∀ x ∈ adj u, route x.1 ≠ none) :
    Searching adj start route queue := by
  obtain ⟨p, hu⟩ := h.queued u List.mem_cons_self
  obtain ⟨hfirst, hordered⟩ := List.pairwise_cons.mp h.ordered
  have hexpanded : ∀ v q, route v = some q → v ∉ queue →
      ∀ x ∈ adj v, ∃ q', route x.1 = some q' ∧ q'.length ≤ q.length + 1 := by
    intro v q hv hout x hx
    by_cases hvu : v = u
    · subst hvu
      obtain ⟨q', hq'⟩ := Option.ne_none_iff_exists'.mp (hall x hx)
      exact ⟨q', hq', h.near v q rfl hv x.1 q' hq'⟩
    · exact h.expanded v q hv (fun hmem => (List.mem_cons.mp hmem).elim hvu hout) x hx
  refine ⟨h.started, h.sound, fun v hv => h.queued v (List.mem_cons_of_mem u hv), hexpanded, hordered, ?_, ?_⟩
  · intro u' p' hu' hp' v q hv
    have hmem : u' ∈ queue := List.mem_of_head? hu'
    have hle := hfirst u' hmem p p' hu hp'
    have hnear := h.near u p rfl hu v q hv
    omega
  · intro u' p' hu' hp' v r hroute hle
    have hmem : u' ∈ queue := List.mem_of_head? hu'
    have hup := hfirst u' hmem p p' hu hp'
    have hnear := h.near u p rfl hu u' p' hp'
    by_cases hshort : r.length ≤ p.length
    · exact h.shortest u p rfl hu v r hroute hshort
    -- the path is one longer than the route to `u`, so its last vertex but one was expanded
    cases hroute with
    | nil => exact absurd (Nat.zero_le _) hshort
    | @snoc x _ e r hroute hedge =>
      rw [List.length_append, List.length_singleton] at hle hshort ⊢
      obtain ⟨q, hq, hqlen⟩ := h.shortest u p rfl hu x r hroute (by omega)
      have hout : x ∉ queue := by
        intro hx
        obtain ⟨rest, rfl⟩ := List.head?_eq_some_iff.mp hu'
        rcases List.mem_cons.mp hx with rfl | hx
        · cases hq.symm.trans hp'
          omega
        · have hlater := (List.pairwise_cons.mp hordered).1 x hx p' q hp' hq
          omega
      obtain ⟨q', hq', hq'len⟩ := hexpanded x q hq hout _ hedge
      exact ⟨q', hq', by omega⟩

/-- What is not seen yet is farther away than the first vertex of the queue. -/
theorem Searching.farther (h : Searching adj start route (u :: queue)) (hu : route u = some p)
    (hnew : route w = none) {p' : List E} (hroute : Trail adj start w p') : p.length < p'.length := by
  by_contra hle
  obtain ⟨q, hq, -⟩ := h.shortest u p rfl hu w p' hroute (Nat.le_of_not_lt hle)
  rw [hnew] at hq
  cases hq

/-- A path that no path to the same vertex is shorter than. -/
structure Shortest (adj : V → List (V × E)) (start w : V) (p : List E) : Prop where
  trail : Trail adj start w p
  le : ∀ p', Trail adj start w p' → p.length ≤ p'.length

theorem Shortest.nil : Shortest adj start start [] := ⟨.nil, fun _ _ => Nat.zero_le _⟩

/-- The first edge by which the search would see a vertex is the last one of a shortest path. -/
theorem Searching.found (h : Searching adj start route (u :: queue)) (hu : route u = some p)
    (hedge : (w, e) ∈ adj u) (hnew : route w = none) : Shortest adj start w (p ++ [e]) where
  trail := .snoc (h.sound u p hu) hedge
  le p' hroute := by
    rw [List.length_append]
    exact h.farther hu hnew hroute

/-- A search that has expanded everything has seen all that can be reached. -/
theorem Searching.complete (h : Searching adj start route []) {p' : List E} (hroute : Trail adj start w p') :
    ∃ q, route w = some q := by
  induction hroute with
  | nil => exact ⟨[], h.started⟩
  | snoc _ hedge ih =>
    obtain ⟨q, hq⟩ := ih
    obtain ⟨q', hq', -⟩ := h.expanded _ q hq List.not_mem_nil _ hedge
    exact ⟨q', hq'⟩

/-! ### Routes by parents -/

/-- Going back from a vertex along the entries of its parents, up to a sentinel entry, gives the labels. -/
inductive LeadsBack (parents : V → Option (V × E)) (sentinel : E) : V → List E → Prop where
  | start {v u} (h : parents v = some (u, sentinel)) : LeadsBack parents sentinel v []
  | step {v u e p} (h : parents v = some (u, e)) (he : e ≠ sentinel) (hback : LeadsBack parents sentinel u p) :
    LeadsBack parents sentinel v (p ++ [e])

theorem LeadsBack.insert [DecidableEq V] {parents : Table V (V × E)} {sentinel : E} {v : V}
    (h : LeadsBack parents sentinel v p) (hnew : parents w = none) (x : V × E) :
    LeadsBack (parents.insert w x) sentinel v p := by
  induction h with
  | start hv => exact .start (Table.insert_of_new hnew hv)
  | step hv he _ ih => exact .step (Table.insert_of_new hnew hv) he ih

end

end Xerv.Lib
