import Xerv.Schema.Migration

/-!
# The search of the migration graph

The loops keep what a breadth-first search keeps: the parents of the visited hashes lead
back along the routes of the search, and every round uses up a hash of the queue or one
that is not visited yet.
-/

namespace Xerv.Schema.MigrationGraph
open Xerv.Lib

/-- No edge has the index that marks the start of a search. -/
def Bounded (g : MigrationGraph) : Prop := ∀ hash, ∀ e ∈ g.neighbors hash, e.2 ≠ usizeMax

theorem mem_targets (g : MigrationGraph) {hash w : UInt64} {index : ℕ} (h : (w, index) ∈ g.neighbors hash) :
    w ∈ g.targets := by
  refine Finset.mem_biUnion.mpr ⟨hash, ?_, List.mem_toFinset.mpr (List.mem_map_of_mem h)⟩
  rw [FiniteMap.mem_keys]
  unfold neighbors at h
  cases hget : g.edges.get hash with
  | none =>
    rw [hget] at h
    cases h
  | some edges => rfl

def unseen (g : MigrationGraph) (visited : Visited) : Finset UInt64 := g.targets.filter fun hash => visited hash = none

theorem unseen_insert (g : MigrationGraph) {visited : Visited} {hash w : UInt64} {index : ℕ}
    (hedge : (w, index) ∈ g.neighbors hash) (hnew : visited w = none) (x : UInt64 × ℕ) :
    (g.unseen (visited.insert w x)).card + 1 = (g.unseen visited).card := by
  have hmem : w ∈ g.unseen visited := Finset.mem_filter.mpr ⟨g.mem_targets hedge, hnew⟩
  have herase : g.unseen (visited.insert w x) = (g.unseen visited).erase w := by
    ext v
    rw [Finset.mem_erase]
    unfold unseen
    rw [Finset.mem_filter, Finset.mem_filter]
    by_cases hv : v = w
    · subst hv
      simp
    · simp [hv]
  rw [herase, Finset.card_erase_add_one hmem]

/-- The state of the loops, as the routes of a breadth-first search. -/
structure State (g : MigrationGraph) (start toHash : UInt64) (route : UInt64 → Option (List ℕ)) (queue : List UInt64)
    (visited : Visited) : Prop where
  searching : Searching g.neighbors start route queue
  seen : ∀ v, visited v = none ↔ route v = none
  back : ∀ v p, route v = some p → LeadsBack visited usizeMax v p
  short : ∀ v p, route v = some p → p.length + (g.unseen visited).card ≤ g.targets.card
  target : visited toHash = none

variable {g : MigrationGraph} {start toHash current : UInt64} {route : Table UInt64 (List ℕ)}
  {queue : List UInt64} {visited : Visited}

theorem State.initial (hne : start ≠ toHash) :
    State g start toHash (Table.empty.insert start []) [start] (Table.empty.insert start (0, usizeMax)) where
  searching := searching_start
  seen v := by
    rw [Table.insert_eq_none, Table.insert_eq_none]
    exact and_congr_right fun _ => iff_of_true rfl rfl
  back v p hv := by
    rcases Table.insert_some hv with ⟨rfl, rfl⟩ | ⟨-, hv⟩
    · exact .start (Table.insert_self _ _ _)
    · cases hv
  short v p hv := by
    rcases Table.insert_some hv with ⟨-, rfl⟩ | ⟨-, hv⟩
    · rw [List.length_nil, Nat.zero_add]
      exact Finset.card_filter_le _ _
    · cases hv
  target := Table.insert_ne _ _ hne.symm

/-- A neighbour that is not visited is queued. -/
theorem State.see (h : State g start toHash route (current :: queue) visited) {p : List ℕ}
    (hcurrent : route current = some p) (hg : g.Bounded) {w : UInt64} {index : ℕ}
    (hedge : (w, index) ∈ g.neighbors current) (hw : w ≠ toHash) (hnew : visited w = none) :
    State g start toHash (route.insert w (p ++ [index])) (current :: (queue ++ [w]))
      (visited.insert w (current, index)) where
  searching := h.searching.see hcurrent hedge ((h.seen w).mp hnew)
  seen v := by
    rw [Table.insert_eq_none, Table.insert_eq_none, h.seen v]
  back v q hv := by
    have hcurrentBack := (h.back current p hcurrent).insert hnew (current, index)
    rcases Table.insert_some hv with ⟨rfl, rfl⟩ | ⟨-, hv⟩
    · exact .step (Table.insert_self _ _ _) (hg current _ hedge) hcurrentBack
    · exact (h.back v q hv).insert hnew (current, index)
  short v q hv := by
    have hcard := g.unseen_insert hedge hnew (current, index)
    rcases Table.insert_some hv with ⟨-, rfl⟩ | ⟨-, hv⟩
    · have hshort := h.short current p hcurrent
      rw [List.length_append, List.length_singleton]
      omega
    · have hshort := h.short v q hv
      omega
  target := (Table.insert_ne _ _ hw.symm).trans h.target

/-- Going back collects the route, last migration first. -/
theorem walkBack_eq {v : UInt64} {p : List ℕ} (h : LeadsBack visited usizeMax v p) (fuel : ℕ)
    (hfuel : p.length < fuel) (path : List ℕ) : walkBack visited fuel v path = path ++ p.reverse := by
  induction h generalizing fuel path with
  | start hv =>
    obtain ⟨fuel, rfl⟩ := Nat.exists_eq_succ_of_ne_zero (Nat.ne_of_gt hfuel)
    rw [walkBack, hv]
    simp
  | @step v u index p hv hindex _ ih =>
    rw [List.length_append, List.length_singleton] at hfuel
    obtain ⟨fuel, rfl⟩ := Nat.exists_eq_succ_of_ne_zero (Nat.ne_of_gt (Nat.zero_lt_of_lt hfuel))
    rw [walkBack, hv]
    dsimp only
    rw [if_neg hindex, ih fuel (by omega), List.reverse_append, List.reverse_singleton, List.append_assoc]

theorem covered_tail {hash w : UInt64} {index : ℕ} {todo : List (UInt64 × ℕ)} {visited' : Visited}
    (hdone : ∀ e ∈ g.neighbors hash, e ∈ (w, index) :: todo ∨ visited e.1 ≠ none) (hw : visited' w ≠ none)
    (hkeep : ∀ v, visited v ≠ none → visited' v ≠ none) :
    ∀ e ∈ g.neighbors hash, e ∈ todo ∨ visited' e.1 ≠ none := by
  intro e he
  rcases hdone e he with hmem | hseen
  · rcases List.mem_cons.mp hmem with rfl | hmem
    · exact .inr hw
    · exact .inl hmem
  · exact .inr (hkeep e.1 hseen)

/-- The loop over the neighbours finds a shortest path or leaves the state of the next round. -/
theorem scan_spec (hg : g.Bounded) (todo : List (UInt64 × ℕ)) (route : Table UInt64 (List ℕ))
    (queue : List UInt64) (visited : Visited) (h : State g start toHash route (current :: queue) visited)
    (htodo : ∀ e ∈ todo, e ∈ g.neighbors current)
    (hdone : ∀ e ∈ g.neighbors current, e ∈ todo ∨ visited e.1 ≠ none) :
    (∃ path, scan g.rounds toHash current todo queue visited = .inl path ∧ Shortest g.neighbors start toHash path) ∨
    ∃ route' queue' visited', scan g.rounds toHash current todo queue visited = .inr (queue', visited') ∧
      State g start toHash route' queue' visited' ∧
      queue'.length + (g.unseen visited').card = queue.length + (g.unseen visited).card := by
  induction todo generalizing route queue visited with
  | nil =>
    refine .inr ⟨route, queue, visited, rfl, { h with searching := h.searching.leave fun e he => ?_ }, rfl⟩
    exact fun hroute => (hdone e he).elim (fun hnil => nomatch hnil) fun hseen => hseen ((h.seen e.1).mpr hroute)
  | cons e todo ih =>
    obtain ⟨w, index⟩ := e
    have hedge : (w, index) ∈ g.neighbors current := htodo _ List.mem_cons_self
    have htodo' : ∀ e ∈ todo, e ∈ g.neighbors current := fun e he => htodo e (List.mem_cons_of_mem _ he)
    obtain ⟨p, hcurrent⟩ := h.searching.queued current List.mem_cons_self
    rw [scan]
    by_cases hw : w = toHash
    · subst hw
      rw [if_pos rfl]
      refine .inl ⟨_, rfl, ?_⟩
      have hshort := h.short current p hcurrent
      rw [walkBack_eq (h.back current p hcurrent) g.rounds (by unfold rounds; omega), List.reverse_append,
        List.reverse_reverse, List.reverse_singleton]
      exact h.searching.found hcurrent hedge ((h.seen w).mp h.target)
    · rw [if_neg hw]
      cases hvisited : visited w with
      | none =>
        dsimp only
        have hcard := g.unseen_insert hedge hvisited (current, index)
        have hnext := ih _ (queue ++ [w]) _ (h.see hcurrent hg hedge hw hvisited) htodo' ?_
        · rw [List.length_append, List.length_singleton] at hnext
          refine hnext.imp_right fun ⟨route', queue', visited', heq, hstate, hlen⟩ => ?_
          exact ⟨route', queue', visited', heq, hstate, by omega⟩
        · refine covered_tail hdone ?_ fun v hv hnone => ?_
          · rw [Table.insert_self]
            exact Option.some_ne_none _
          · exact hv ((Table.insert_eq_none _ _ _ _).mp hnone).2
      | some x =>
        refine ih route queue visited h htodo' (covered_tail hdone ?_ fun _ hv => hv)
        rw [hvisited]
        exact Option.some_ne_none x

theorem State.no_trail (h : State g start toHash route [] visited) (path : List ℕ) :
    ¬ Trail g.neighbors start toHash path := by
  intro htrail
  obtain ⟨q, hq⟩ := h.searching.complete htrail
  cases ((h.seen toHash).mp h.target).symm.trans hq

/-- The loop over the queue finds a shortest path, or there is none. -/
theorem search_spec (hg : g.Bounded) (fuel : ℕ) (route : Table UInt64 (List ℕ)) (queue : List UInt64)
    (visited : Visited) (h : State g start toHash route queue visited)
    (hfuel : queue.length + (g.unseen visited).card ≤ fuel) :
    (∃ path, g.search toHash fuel queue visited = some path ∧ Shortest g.neighbors start toHash path) ∨
      (g.search toHash fuel queue visited = none ∧ ∀ path, ¬ Trail g.neighbors start toHash path) := by
  induction fuel generalizing route queue visited with
  | zero =>
    cases queue with
    | nil => exact .inr ⟨rfl, h.no_trail⟩
    | cons current queue => simp at hfuel
  | succ fuel ih =>
    cases queue with
    | nil => exact .inr ⟨rfl, h.no_trail⟩
    | cons current queue =>
      rw [search]
      obtain ⟨path, hscan, hpath⟩ | ⟨route', queue', visited', hscan, hstate, hlen⟩ :=
        scan_spec hg (g.neighbors current) route queue visited h (fun e he => he) fun e he => .inl he
      · rw [hscan]
        exact .inl ⟨path, rfl, hpath⟩
      · rw [hscan]
        rw [List.length_cons] at hfuel
        exact ih route' queue' visited' hstate (by omega)

theorem shortestPath_spec (hg : g.Bounded) (fromHash toHash : UInt64) :
    (∃ path, g.shortestPath fromHash toHash = some path ∧ Shortest g.neighbors fromHash toHash path) ∨
      (g.shortestPath fromHash toHash = none ∧ ∀ path, ¬ Trail g.neighbors fromHash toHash path) := by
  unfold shortestPath
  split
  · rename_i heq
    subst heq
    exact .inl ⟨[], rfl, .nil⟩
  · rename_i hne
    refine search_spec hg g.rounds _ [fromHash] _ (.initial hne) ?_
    have hcard : (g.unseen (Table.empty.insert fromHash (0, usizeMax))).card ≤ g.targets.card :=
      Finset.card_filter_le _ _
    unfold rounds
    rw [List.length_singleton]
    omega

end Xerv.Schema.MigrationGraph
