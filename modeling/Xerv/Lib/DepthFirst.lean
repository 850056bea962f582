import Mathlib.Data.List.Basic
import Mathlib.Logic.Relation
import Xerv.Lib.Positions
import Xerv.Lib.Table

/-!
# Depth-first search for a cycle

A search marks a vertex while it is under way and again when it is done with it. It ends at a vertex that is under
way, or else is done with every vertex it was asked for. The vertices that are done with lie in an order in which
every vertex comes after those it has an edge to; those under way all lead to the one that is searched.
-/

namespace Xerv.Lib

structure SearchMarks (V : Type*) where
  visiting : Keys V
  visited : Keys V

variable {V : Type*} [DecidableEq V]

/-- One search after another, up to the first that finds a cycle. `none`: out of fuel. -/
def searchAll (search : V → SearchMarks V → Option (Bool × SearchMarks V)) :
    List V → SearchMarks V → Option (Bool × SearchMarks V)
  | [], m => some (false, m)
  | v :: vs, m =>
    match search v m with
    | none => none
    | some (true, m) => some (true, m)
    | some (false, m) => searchAll search vs m

section Search
variable (adj : V → List V)

def search : ℕ → V → SearchMarks V → Option (Bool × SearchMarks V)
  | 0, _, _ => none
  | fuel + 1, v, m =>
    if m.visited v then some (false, m)
    else if m.visiting v then some (true, m)
    else
      match searchAll (search fuel) (adj v) { m with visiting := m.visiting.insert v } with
      | none => none
      | some (true, m) => some (true, m)
      | some (false, m) => some (false, ⟨m.visiting.remove v, m.visited.insert v⟩)

def Leads (u w : V) : Prop := w ∈ adj u

def HasCycle : Prop := ∃ v, Relation.TransGen (Leads adj) v v

def Settled (order : List V) : Prop :=
  ∀ before v after, order = before ++ v :: after → ∀ w ∈ adj v, w ∈ before

/-- Vertices that are done with, in an order of that kind. -/
structure Done (visited : Keys V) (order : List V) : Prop where
  mem : ∀ v, visited v = true ↔ v ∈ order
  settled : Settled adj order

/-- How many of the vertices are not under way. -/
def idle (vs : List V) (visiting : Keys V) : ℕ := vs.countP fun v => !visiting v

variable {adj}

/-! ### The order of the vertices that are done with -/

omit [DecidableEq V] in
theorem Settled.concat {order : List V} {v : V} (h : Settled adj order) (hv : ∀ w ∈ adj v, w ∈ order) :
    Settled adj (order ++ [v]) := forall_split_concat h hv

omit [DecidableEq V] in
theorem Settled.not_hasCycle {order : List V} (h : Settled adj order) (hall : ∀ u w, Leads adj u w → u ∈ order) :
    ¬ HasCycle adj := by
  rintro ⟨v, hcycle⟩
  have hlater : ∀ w u, Function.swap (Leads adj) w u → u ∈ order := fun w u huw => hall u w huw
  exact forall_split_irrefl h hlater v (Relation.transGen_swap.mpr hcycle)

theorem Done.insert {visited : Keys V} {order : List V} {v : V} (h : Done adj visited order)
    (hv : ∀ w ∈ adj v, visited w = true) : Done adj (visited.insert v) (order ++ [v]) := by
  refine ⟨fun u => ?_, h.settled.concat fun w hw => (h.mem w).mp (hv w hw)⟩
  rw [Keys.insert_true_iff, List.mem_append, List.mem_singleton, h.mem u, or_comm]

omit [DecidableEq V] in
theorem done_empty : Done adj Keys.empty [] :=
  ⟨fun _ => iff_of_false Bool.false_ne_true List.not_mem_nil, forall_split_nil⟩

/-! ### One search -/

theorem idle_insert {vs : List V} {visiting : Keys V} {v : V} (hv : v ∈ vs) (hidle : visiting v = false) :
    idle vs (visiting.insert v) < idle vs visiting := by
  have hle : ∀ u, (!visiting.insert v u) = true → (!visiting u) = true := by
    intro u hu
    by_contra hnot
    rw [Bool.not_eq_true, Bool.not_eq_false'] at hnot
    rw [(Keys.insert_true_iff visiting u v).mpr (.inr hnot)] at hu
    cases hu
  obtain ⟨before, after, rfl⟩ := List.append_of_mem hv
  have hbefore := List.countP_mono_left (l := before) fun u _ => hle u
  have hafter := List.countP_mono_left (l := after) fun u _ => hle u
  unfold idle
  rw [List.countP_append, List.countP_append, List.countP_cons_of_neg (by simp),
    List.countP_cons_of_pos (by simp [hidle])]
  omega

theorem remove_insert {visiting : Keys V} {v : V} (hidle : visiting v = false) :
    (visiting.insert v).remove v = visiting := by
  funext u
  by_cases hu : u = v
  · rw [hu, Keys.remove_self, hidle]
  · rw [Keys.remove_ne _ hu, Keys.insert_ne _ hu]

/-- What a search for these vertices leaves that finds no cycle: the marks of what is under way, and the vertices in
the order of those that are done with. -/
structure Searched (adj : V → List V) (m m' : SearchMarks V) (order targets : List V) : Prop where
  visiting : m'.visiting = m.visiting
  done : ∃ order', Done adj m'.visited order' ∧ order <+: order'
  targets : ∀ v ∈ targets, m'.visited v = true

def Returns (adj : V → List V) (m : SearchMarks V) (order targets : List V)
    (result : Option (Bool × SearchMarks V)) : Prop :=
  (∃ m', result = some (true, m') ∧ HasCycle adj) ∨ ∃ m', result = some (false, m') ∧ Searched adj m m' order targets

omit [DecidableEq V] in
theorem Searched.refl {m : SearchMarks V} {order : List V} (h : Done adj m.visited order) : Searched adj m m order [] :=
  ⟨rfl, ⟨order, h, List.prefix_refl _⟩, nofun⟩

omit [DecidableEq V] in
theorem searchAll_returns {find : V → SearchMarks V → Option (Bool × SearchMarks V)} (vs : List V) {visiting : Keys V}
    (hfind : ∀ v ∈ vs, ∀ m order, m.visiting = visiting → Done adj m.visited order → Returns adj m order [v] (find v m))
    {m : SearchMarks V} {order : List V} (hm : m.visiting = visiting) (hdone : Done adj m.visited order) :
    Returns adj m order vs (searchAll find vs m) := by
  induction vs generalizing m order with
  | nil => exact .inr ⟨m, rfl, .refl hdone⟩
  | cons v vs ih =>
    rw [searchAll]
    rcases hfind v List.mem_cons_self m order hm hdone with ⟨m', hresult, hcycle⟩ | ⟨m', hresult, hfirst⟩
    · rw [hresult]
      exact .inl ⟨m', rfl, hcycle⟩
    · rw [hresult]
      obtain ⟨order', hdone', hgrown⟩ := hfirst.done
      rcases ih (fun w hw => hfind w (List.mem_cons_of_mem v hw)) (hfirst.visiting.trans hm) hdone' with
        hcycle | ⟨m'', hresult', hrest⟩
      · exact .inl hcycle
      · obtain ⟨order'', hdone'', hgrown'⟩ := hrest.done
        refine .inr ⟨m'', hresult', hrest.visiting.trans hfirst.visiting, ⟨order'', hdone'', hgrown.trans hgrown'⟩, ?_⟩
        intro w hw
        rcases List.mem_cons.mp hw with rfl | hw
        · exact (hdone''.mem w).mpr (hgrown'.subset ((hdone'.mem w).mp (hfirst.targets w (List.mem_singleton_self w))))
        · exact hrest.targets w hw

/-- With more fuel than vertices that are not under way, where all that are under way lead to this one. -/
theorem search_returns {vs : List V} (hvs : ∀ v ∈ vs, ∀ w ∈ adj v, w ∈ vs) (fuel : ℕ) {v : V} (hv : v ∈ vs)
    {m : SearchMarks V} {order : List V} (hfuel : idle vs m.visiting < fuel) (hdone : Done adj m.visited order)
    (hlead : ∀ u, m.visiting u = true → Relation.TransGen (Leads adj) u v) :
    Returns adj m order [v] (search adj fuel v m) := by
  induction fuel generalizing v m order with
  | zero => exact absurd hfuel (Nat.not_lt_zero _)
  | succ fuel ih =>
    rw [search]
    by_cases hvisited : m.visited v = true
    · rw [if_pos hvisited]
      exact .inr ⟨m, rfl, rfl, ⟨order, hdone, List.prefix_refl _⟩, fun w hw => List.mem_singleton.mp hw ▸ hvisited⟩
    · rw [if_neg hvisited]
      by_cases hvisiting : m.visiting v = true
      · rw [if_pos hvisiting]
        exact .inl ⟨m, rfl, v, hlead v hvisiting⟩
      · have hidle := Bool.eq_false_iff.mpr hvisiting
        rw [if_neg hvisiting]
        -- every neighbour is searched for with `v` under way too
        have hall : Returns adj ⟨m.visiting.insert v, m.visited⟩ order (adj v)
            (searchAll (search adj fuel) (adj v) ⟨m.visiting.insert v, m.visited⟩) := by
          refine searchAll_returns (adj v) (fun w hw m' order' hm' hdone' => ?_) rfl hdone
          refine ih (hvs v hv w hw) ?_ hdone' fun u hu => ?_
          · rw [hm']
            exact Nat.lt_of_lt_of_le (idle_insert hv hidle) (Nat.le_of_lt_succ hfuel)
          · rw [hm', Keys.insert_true_iff] at hu
            rcases hu with rfl | hu
            · exact .single hw
            · exact (hlead u hu).tail hw
        rcases hall with ⟨m', hresult, hcycle⟩ | ⟨m', hresult, hsearched⟩
        · rw [hresult]
          exact .inl ⟨m', rfl, hcycle⟩
        · rw [hresult]
          obtain ⟨order', hdone', hgrown⟩ := hsearched.done
          refine .inr ⟨_, rfl, ?_, ⟨order' ++ [v], hdone'.insert hsearched.targets, ?_⟩, ?_⟩
          · exact (congrArg (Keys.remove · v) hsearched.visiting).trans (remove_insert hidle)
          · exact hgrown.trans (List.prefix_append _ _)
          · intro w hw
            rw [List.mem_singleton.mp hw]
            exact Keys.insert_self _ _

/-- The searches from all vertices together end with the answer to whether there is a cycle. -/
theorem searchAll_total {vs : List V} (hadj : ∀ v w, Leads adj v w → v ∈ vs ∧ w ∈ vs) (fuel : ℕ)
    (hfuel : vs.length < fuel) :
    ∃ found m, searchAll (search adj fuel) vs ⟨Keys.empty, Keys.empty⟩ = some (found, m) ∧
      (found = true ↔ HasCycle adj) := by
  have hreturns : Returns adj ⟨Keys.empty, Keys.empty⟩ [] vs
      (searchAll (search adj fuel) vs ⟨Keys.empty, Keys.empty⟩) := by
    refine searchAll_returns vs (fun v hv m order hm hdone => ?_) rfl done_empty
    refine search_returns (fun v _ w hw => (hadj v w hw).2) fuel hv ?_ hdone fun u hu => ?_
    · rw [hm]
      exact Nat.lt_of_le_of_lt List.countP_le_length hfuel
    · rw [hm] at hu
      cases hu
  rcases hreturns with ⟨m, hresult, hcycle⟩ | ⟨m, hresult, hsearched⟩
  · exact ⟨true, m, hresult, iff_of_true rfl hcycle⟩
  · obtain ⟨order, hdone, -⟩ := hsearched.done
    refine ⟨false, m, hresult, iff_of_false Bool.false_ne_true (hdone.settled.not_hasCycle fun u w huw => ?_)⟩
    exact (hdone.mem u).mp (hsearched.targets u (hadj u w huw).1)

end Search

end Xerv.Lib
