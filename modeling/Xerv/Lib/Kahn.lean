import Mathlib.Data.List.Induction
import Mathlib.Data.List.Perm.Subperm
import Mathlib.Data.List.Nodup
import Mathlib.Data.Set.Finite.List
import Xerv.Lib.Positions
import Xerv.Lib.Table

/-!
# Kahn's algorithm

Topological sorting of a list of edges with an in-degree table and a queue. The
invariant `Sorting` ties the table to the vertices sorted so far: the count of a
vertex is the number of its edges from vertices not yet sorted, and the vertices
with count zero are those sorted or queued. When the queue is empty, a vertex that is not
sorted has an edge from another such vertex, so that only a cycle stops the algorithm early.
-/

namespace Xerv.Lib

section Kahn
variable {V : Type*} [DecidableEq V]

def countIn (t : Table V ℕ) (v : V) : Table V ℕ := t.insert v ((t v).getD 0 + 1)

/-- The in-degree table: every vertex is present, every target counted. -/
def inDegree (vs : List V) (es : List (V × V)) : Table V ℕ :=
  es.foldl (fun t e => countIn t e.2) (vs.foldl (fun t v => t.insert v 0) Table.empty)

def relax (s : Table V ℕ × List V) (w : V) : Table V ℕ × List V :=
  match s.1 w with
  | none => s
  | some d => (s.1.insert w (d - 1), if d - 1 = 0 then s.2 ++ [w] else s.2)

def kahnLoop (es : List (V × V)) : ℕ → Table V ℕ → List V → List V → List V
  | 0, _, _, sorted => sorted
  | _ + 1, _, [], sorted => sorted
  | fuel + 1, deg, v :: queue, sorted =>
    let s := (es.filter fun e => e.1 = v).foldl (fun s e => relax s e.2) (deg, queue)
    kahnLoop es fuel s.1 s.2 (sorted ++ [v])

/-- Every vertex comes after the sources of its edges. -/
def Topological (es : List (V × V)) (order : List V) : Prop :=
  ∀ before v after, order = before ++ v :: after → ∀ u, (u, v) ∈ es → u ∈ before

/-! ### The in-degree table -/

theorem foldl_insert_zero (vs : List V) (t : Table V ℕ) (v : V) :
    (vs.foldl (fun t v => t.insert v 0) t) v = if v ∈ vs then some 0 else t v := by
  induction vs generalizing t with
  | nil => simp
  | cons u vs ih =>
    rw [List.foldl_cons, ih]
    by_cases hv : v ∈ vs
    · simp [hv]
    · by_cases hu : v = u
      · simp [hu]
      · simp [hv, hu]

theorem foldl_countIn (es : List (V × V)) (t : Table V ℕ) (v : V) :
    (es.foldl (fun t e => countIn t e.2) t) v =
      if es.countP (fun e => e.2 = v) = 0 then t v
      else some ((t v).getD 0 + es.countP fun e => e.2 = v) := by
  induction es generalizing t with
  | nil => simp
  | cons e es ih =>
    rw [List.foldl_cons, ih]
    by_cases he : e.2 = v
    · subst he
      rw [List.countP_cons_of_pos (by simp), countIn, Table.insert_self, Option.getD_some]
      split
      · rename_i h0
        rw [h0, if_neg (by omega)]
      · rw [if_neg (by omega)]
        congr 1
        omega
    · have hne : v ≠ e.2 := fun h => he h.symm
      rw [List.countP_cons_of_neg (by simpa using he), countIn, Table.insert_ne _ _ hne]

theorem inDegree_count (vs : List V) (es : List (V × V)) (v : V) :
    inDegree vs es v =
      if v ∈ vs ∨ v ∈ es.map Prod.snd then some (es.countP fun e => e.2 = v) else none := by
  have hcount : es.countP (fun e => e.2 = v) = 0 ↔ v ∉ es.map Prod.snd := by
    rw [List.countP_eq_zero, List.mem_map, not_exists]
    refine forall_congr' fun e => ?_
    rw [not_and, decide_eq_true_eq]
  unfold inDegree
  rw [foldl_countIn, foldl_insert_zero]
  by_cases htarget : v ∈ es.map Prod.snd
  · have hpos : ¬ es.countP (fun e => e.2 = v) = 0 := fun h0 => hcount.mp h0 htarget
    rw [if_neg hpos, if_pos (show v ∈ vs ∨ v ∈ es.map Prod.snd from .inr htarget)]
    split
    · rw [Option.getD_some, Nat.zero_add]
    · show some (0 + _) = _
      rw [Nat.zero_add]
  · have h0 := hcount.mpr htarget
    rw [if_pos h0, h0]
    by_cases hv : v ∈ vs
    · rw [if_pos hv, if_pos (.inl hv)]
    · rw [if_neg hv, if_neg (not_or.mpr ⟨hv, htarget⟩)]
      rfl

theorem inDegree_apply (vs : List V) (es : List (V × V)) (hes : ∀ e ∈ es, e.2 ∈ vs) (v : V) :
    inDegree vs es v = if v ∈ vs then some (es.countP fun e => e.2 = v) else none := by
  have hmem : (v ∈ vs ∨ v ∈ es.map Prod.snd) ↔ v ∈ vs := by
    refine or_iff_left_of_imp fun htarget => ?_
    obtain ⟨e, he, rfl⟩ := List.mem_map.mp htarget
    exact hes e he
  rw [inDegree_count]
  exact if_congr hmem rfl rfl

theorem inDegree_keys (vs keys : List V) (es : List (V × V))
    (hkeys : ∀ v, v ∈ keys ↔ (inDegree vs es v).isSome = true) : inDegree keys es = inDegree vs es := by
  funext v
  have hmem : (v ∈ keys ∨ v ∈ es.map Prod.snd) ↔ (v ∈ vs ∨ v ∈ es.map Prod.snd) := by
    rw [hkeys, inDegree_count]
    split_ifs with hv
    · exact iff_of_true (.inl rfl) hv
    · exact iff_of_false (fun h => h.elim Bool.noConfusion fun ht => hv (.inr ht)) hv
  rw [inDegree_count, inDegree_count]
  exact if_congr hmem rfl rfl

/-! ### The loop -/

def openIn (es : List (V × V)) (sorted : List V) (v : V) : ℕ :=
  es.countP fun e => e.2 = v && !sorted.contains e.1

/-- The state inside the loop, `rest` being the targets of the current vertex that are still to be
relaxed. -/
structure Sorting (vs : List V) (es : List (V × V)) (rest : List V) (deg : Table V ℕ)
    (queue sorted : List V) : Prop where
  degrees : ∀ v, deg v = if v ∈ vs then some (openIn es sorted v + rest.count v) else none
  nodup : (sorted ++ queue).Nodup
  zero : ∀ v ∈ vs, (v ∈ sorted ++ queue ↔ openIn es sorted v + rest.count v = 0)
  subset : ∀ v ∈ sorted ++ queue, v ∈ vs

variable {vs : List V} {es : List (V × V)}

theorem Sorting.relax {rest : List V} {deg : Table V ℕ} {queue sorted : List V} {w : V}
    (h : Sorting vs es (w :: rest) deg queue sorted) (hw : w ∈ vs) :
    Sorting vs es rest (relax (deg, queue) w).1 (relax (deg, queue) w).2 sorted := by
  have hdeg := h.degrees w
  rw [if_pos hw, List.count_cons_self] at hdeg
  have hnew : w ∉ sorted ++ queue := by
    intro hmem
    have h0 := (h.zero w hw).mp hmem
    rw [List.count_cons_self] at h0
    omega
  have hother : ∀ v, v ≠ w → (w :: rest).count v = rest.count v := fun v hv =>
    List.count_cons_of_ne (Ne.symm hv)
  have htable : ∀ v, (deg.insert w (openIn es sorted w + (rest.count w + 1) - 1)) v =
      if v ∈ vs then some (openIn es sorted v + rest.count v) else none := by
    intro v
    by_cases hv : v = w
    · subst hv
      rw [Table.insert_self, if_pos hw]
      rfl
    · rw [Table.insert_ne _ _ hv, h.degrees v, hother v hv]
  have hrelax : Lib.relax (deg, queue) w =
      (deg.insert w (openIn es sorted w + (rest.count w + 1) - 1),
        if openIn es sorted w + (rest.count w + 1) - 1 = 0 then queue ++ [w] else queue) := by
    show (match deg w with
      | none => (deg, queue)
      | some d => (deg.insert w (d - 1), if d - 1 = 0 then queue ++ [w] else queue)) = _
    rw [hdeg]
  rw [hrelax]
  dsimp only
  by_cases h0 : openIn es sorted w + rest.count w = 0
  · rw [if_pos (by omega)]
    refine ⟨htable, ?_, ?_, ?_⟩
    · rw [← List.append_assoc, List.nodup_append]
      refine ⟨h.nodup, List.nodup_singleton w, ?_⟩
      intro a ha b hb hab
      rw [List.mem_singleton.mp hb] at hab
      exact hnew (hab ▸ ha)
    · intro v hv
      rw [← List.append_assoc, List.mem_append, List.mem_singleton]
      by_cases hvw : v = w
      · subst hvw
        simp [h0]
      · rw [h.zero v hv, hother v hvw]
        simp [hvw]
    · intro v hv
      rw [← List.append_assoc, List.mem_append, List.mem_singleton] at hv
      rcases hv with hv | hv
      · exact h.subset v hv
      · exact hv ▸ hw
  · rw [if_neg (by omega)]
    refine ⟨htable, h.nodup, ?_, h.subset⟩
    intro v hv
    by_cases hvw : v = w
    · subst hvw
      exact ⟨fun hmem => absurd hmem hnew, fun hz => absurd hz h0⟩
    · rw [h.zero v hv, hother v hvw]

theorem Sorting.relaxAll {rest : List V} {deg : Table V ℕ} {queue sorted : List V}
    (h : Sorting vs es rest deg queue sorted) (hrest : ∀ w ∈ rest, w ∈ vs) :
    Sorting vs es [] (rest.foldl Lib.relax (deg, queue)).1 (rest.foldl Lib.relax (deg, queue)).2
      sorted := by
  induction rest generalizing deg queue with
  | nil => exact h
  | cons w rest ih =>
    exact ih (h.relax (hrest w List.mem_cons_self)) fun x hx => hrest x (List.mem_cons_of_mem _ hx)

theorem openIn_append (es : List (V × V)) (sorted : List V) (v w : V) (hv : v ∉ sorted) :
    openIn es sorted w =
      openIn es (sorted ++ [v]) w + ((es.filter fun e => e.1 = v).map Prod.snd).count w := by
  unfold openIn
  induction es with
  | nil => rfl
  | cons e es ih =>
    by_cases hev : e.1 = v
    · have hcontains : sorted.contains e.1 = false := by
        rw [hev]
        simpa using hv
      have hcontains' : (sorted ++ [v]).contains e.1 = true := by simp [hev]
      have hclosed : (e :: es).countP (fun e => e.2 = w && !(sorted ++ [v]).contains e.1) =
          es.countP fun e => e.2 = w && !(sorted ++ [v]).contains e.1 :=
        List.countP_cons_of_neg (by simp only [hcontains']; simp)
      rw [hclosed, List.filter_cons_of_pos (by simpa using hev), List.map_cons, List.count_cons]
      by_cases hw : e.2 = w
      · have hopen : (e :: es).countP (fun e => e.2 = w && !sorted.contains e.1) =
            (es.countP fun e => e.2 = w && !sorted.contains e.1) + 1 :=
          List.countP_cons_of_pos (by simp only [hcontains, hw]; simp)
        rw [hopen, ih, hw, beq_self_eq_true, if_pos rfl]
        omega
      · have hopen : (e :: es).countP (fun e => e.2 = w && !sorted.contains e.1) =
            es.countP fun e => e.2 = w && !sorted.contains e.1 :=
          List.countP_cons_of_neg (by simp [hw])
        rw [hopen, ih]
        simp [hw]
    · have hcontains : (sorted ++ [v]).contains e.1 = sorted.contains e.1 := by
        rw [List.contains_eq_mem, List.contains_eq_mem]
        simp [hev]
      rw [List.countP_cons, List.countP_cons, List.filter_cons_of_neg (by simpa using hev), hcontains, ih]
      omega

theorem Sorting.pop {deg : Table V ℕ} {v : V} {queue sorted : List V}
    (h : Sorting vs es [] deg (v :: queue) sorted) :
    Sorting vs es ((es.filter fun e => e.1 = v).map Prod.snd) deg queue (sorted ++ [v]) := by
  have hassoc : sorted ++ [v] ++ queue = sorted ++ v :: queue := by simp
  have hv : v ∉ sorted := by
    intro hmem
    exact (List.nodup_append.mp h.nodup).2.2 v hmem v List.mem_cons_self rfl
  have hopen : ∀ w, openIn es sorted w + [].count w =
      openIn es (sorted ++ [v]) w + ((es.filter fun e => e.1 = v).map Prod.snd).count w := by
    intro w
    rw [List.count_nil]
    exact openIn_append es sorted v w hv
  refine ⟨fun w => ?_, ?_, fun w hw => ?_, ?_⟩
  · rw [h.degrees w, hopen]
  · rw [hassoc]
    exact h.nodup
  · rw [hassoc, h.zero w hw, hopen]
  · rw [hassoc]
    exact h.subset

theorem Sorting.sources {deg : Table V ℕ} {v : V} {queue sorted : List V}
    (h : Sorting vs es [] deg (v :: queue) sorted) (u : V) (hu : (u, v) ∈ es) : u ∈ sorted := by
  have hmem : v ∈ sorted ++ v :: queue := List.mem_append_right _ List.mem_cons_self
  have h0 := (h.zero v (h.subset v hmem)).mp hmem
  have hopen : openIn es sorted v = 0 := by omega
  have hnone := List.countP_eq_zero.mp hopen (u, v) hu
  simpa using hnone

omit [DecidableEq V] in
theorem Topological.append_singleton {order : List V} {v : V} (h : Topological es order)
    (hv : ∀ u, (u, v) ∈ es → u ∈ order) : Topological es (order ++ [v]) :=
  forall_split_concat h hv

omit [DecidableEq V] in
theorem Topological.induction {order : List V} (h : Topological es order) (p : V → Prop)
    (hstep : ∀ v ∈ order, (∀ u, (u, v) ∈ es → p u) → p v) : ∀ v ∈ order, p v := by
  induction order using List.reverseRecOn with
  | nil => exact fun _ hv => absurd hv List.not_mem_nil
  | append_singleton order v ih =>
    have hinit : Topological es order := by
      intro before w after heq
      exact h before w (after ++ [v]) (by rw [heq]; simp)
    have hall := ih hinit fun w hw => hstep w (List.mem_append_left _ hw)
    intro w hw
    rcases List.mem_append.mp hw with hw | hw
    · exact hall w hw
    · rw [List.mem_singleton.mp hw]
      refine hstep v (List.mem_append_right _ (List.mem_singleton.mpr rfl)) fun u hu => ?_
      exact hall u (h order v [] rfl u hu)

/-- One round of the loop: the head of the queue is sorted and its targets are relaxed. -/
theorem Sorting.round (hes : ∀ e ∈ es, e.2 ∈ vs) {deg : Table V ℕ} {v : V} {queue sorted : List V}
    (h : Sorting vs es [] deg (v :: queue) sorted) :
    Sorting vs es [] ((es.filter fun e => e.1 = v).foldl (fun s e => Lib.relax s e.2) (deg, queue)).1
      ((es.filter fun e => e.1 = v).foldl (fun s e => Lib.relax s e.2) (deg, queue)).2 (sorted ++ [v]) := by
  have hrelaxed := h.pop.relaxAll fun w hw => by
    obtain ⟨e, he, hew⟩ := List.mem_map.mp hw
    exact hew ▸ hes e (List.mem_filter.mp he).1
  rwa [List.foldl_map] at hrelaxed

theorem Sorting.full {deg : Table V ℕ} {queue sorted : List V} (h : Sorting vs es [] deg queue sorted)
    (hfull : vs.length ≤ sorted.length) : queue = [] := by
  have hlen := (List.subperm_of_subset h.nodup h.subset).length_le
  rw [List.length_append] at hlen
  exact List.length_eq_zero_iff.mp (by omega)

theorem kahnLoop_spec (hes : ∀ e ∈ es, e.2 ∈ vs) (fuel : ℕ) (deg : Table V ℕ)
    (queue sorted : List V) (h : Sorting vs es [] deg queue sorted) (htop : Topological es sorted) :
    (kahnLoop es fuel deg queue sorted).Nodup ∧
      (∀ v ∈ kahnLoop es fuel deg queue sorted, v ∈ vs) ∧
        Topological es (kahnLoop es fuel deg queue sorted) := by
  induction fuel generalizing deg queue sorted with
  | zero =>
    exact ⟨(List.nodup_append.mp h.nodup).1, fun v hv => h.subset v (List.mem_append_left _ hv), htop⟩
  | succ fuel ih =>
    cases queue with
    | nil =>
      refine ⟨(List.nodup_append.mp h.nodup).1, fun v hv => ?_, htop⟩
      exact h.subset v (List.mem_append_left _ hv)
    | cons v queue =>
      exact ih _ _ _ (h.round hes) (htop.append_singleton (h.sources))

theorem sorting_start (hes : ∀ e ∈ es, e.2 ∈ vs) (start : List V) (hnodup : start.Nodup)
    (hstart : ∀ v, v ∈ start ↔ inDegree vs es v = some 0) :
    Sorting vs es [] (inDegree vs es) start [] := by
  have hopen : ∀ v, openIn es [] v = es.countP fun e => e.2 = v := by
    intro v
    unfold openIn
    simp
  refine ⟨fun v => ?_, hnodup, fun v hv => ?_, fun v hv => ?_⟩
  · rw [inDegree_apply vs es hes, hopen]
    rfl
  · rw [List.nil_append, hstart, inDegree_apply vs es hes, if_pos hv, hopen]
    simp
  · have hz := (hstart v).mp hv
    rw [inDegree_apply vs es hes] at hz
    by_contra hnot
    rw [if_neg hnot] at hz
    exact absurd hz (by simp)

theorem kahn_spec (hes : ∀ e ∈ es, e.2 ∈ vs) (start : List V) (hnodup : start.Nodup)
    (hstart : ∀ v, v ∈ start ↔ inDegree vs es v = some 0) (fuel : ℕ) :
    (kahnLoop es fuel (inDegree vs es) start []).Nodup ∧
      (∀ v ∈ kahnLoop es fuel (inDegree vs es) start [], v ∈ vs) ∧
        Topological es (kahnLoop es fuel (inDegree vs es) start []) := by
  refine kahnLoop_spec hes fuel _ _ _ (sorting_start hes start hnodup hstart) ?_
  intro before v after heq
  exact absurd heq (by simp)

theorem kahnLoop_fuel (hes : ∀ e ∈ es, e.2 ∈ vs) (fuel more : ℕ) (deg : Table V ℕ)
    (queue sorted : List V) (h : Sorting vs es [] deg queue sorted)
    (hfuel : vs.length ≤ fuel + sorted.length) :
    kahnLoop es (fuel + more) deg queue sorted = kahnLoop es fuel deg queue sorted := by
  induction fuel generalizing deg queue sorted with
  | zero =>
    obtain rfl := h.full (by omega)
    cases more with
    | zero => rfl
    | succ more =>
      rw [Nat.zero_add]
      rfl
  | succ fuel ih =>
    rw [Nat.succ_add]
    cases queue with
    | nil => rfl
    | cons v queue =>
      refine ih _ _ _ (h.round hes) ?_
      rw [List.length_append, List.length_singleton]
      omega

/-! ### Cycles -/

/-- No path of edges leads back to where it starts. -/
def Acyclic (es : List (V × V)) : Prop :=
  ∀ v, ¬ Relation.TransGen (fun u w => (u, w) ∈ es) v v

omit [DecidableEq V] in
theorem Topological.acyclic {order : List V} (h : Topological es order) (hes : ∀ e ∈ es, e.2 ∈ order) :
    Acyclic es := forall_split_irrefl h fun u v huv => hes (u, v) huv

omit [DecidableEq V] in
theorem Acyclic.rename {U : Type} {es' : List (U × U)} (h : Acyclic es) (name : V → U) (p : V → Prop)
    (hname : ∀ u v, p u → p v → name u = name v → u = v) (hp : ∀ e ∈ es, p e.1 ∧ p e.2)
    (hes' : ∀ e' ∈ es', ∃ e ∈ es, e' = (name e.1, name e.2)) : Acyclic es' := by
  have hpath (x y : U) (hxy : Relation.TransGen (fun u w => (u, w) ∈ es') x y) :
      ∃ u v, name u = x ∧ name v = y ∧ p u ∧ p v ∧ Relation.TransGen (fun u w => (u, w) ∈ es) u v := by
    induction hxy with
    | single hedge =>
      obtain ⟨e, he, heq⟩ := hes' _ hedge
      obtain ⟨rfl, rfl⟩ := Prod.mk.inj heq
      exact ⟨e.1, e.2, rfl, rfl, (hp e he).1, (hp e he).2, .single he⟩
    | tail _ hedge ih =>
      obtain ⟨u, v, hu, hv, hpu, hpv, huv⟩ := ih
      obtain ⟨e, he, heq⟩ := hes' _ hedge
      obtain ⟨hfrom, rfl⟩ := Prod.mk.inj heq
      -- the path so far ends where the edge starts
      obtain rfl := hname v e.1 hpv (hp e he).1 (hv.trans hfrom)
      exact ⟨u, e.2, hu, rfl, hpu, (hp e he).2, huv.tail he⟩
  intro x hcycle
  obtain ⟨u, v, hu, hv, hpu, hpv, huv⟩ := hpath x x hcycle
  obtain rfl := hname u v hpu hpv (hu.trans hv.symm)
  exact h u huv

omit [DecidableEq V] in
/-- Among finitely many vertices there is one that no other of them has an edge to. -/
theorem Acyclic.exists_source (h : Acyclic es) (p : V → Prop) (hp : ∀ v, p v → v ∈ vs) {v : V} (hv : p v) :
    ∃ w, p w ∧ ∀ u, p u → (u, w) ∉ es := by
  have htrans : IsTrans {v // v ∈ vs} fun u w => Relation.TransGen (fun u w => (u, w) ∈ es) u.1 w.1 :=
    ⟨fun _ _ _ => Relation.TransGen.trans⟩
  have hirrefl : Std.Irrefl fun u w : {v // v ∈ vs} => Relation.TransGen (fun u w => (u, w) ∈ es) u.1 w.1 :=
    ⟨fun w => h w.1⟩
  have hfinite : Finite {v // v ∈ vs} := (List.finite_toSet vs).to_subtype
  obtain ⟨w, hw, hmin⟩ := (Finite.wellFounded_of_trans_of_irrefl
    fun u w : {v // v ∈ vs} => Relation.TransGen (fun u w => (u, w) ∈ es) u.1 w.1).has_min
      {w | p w.1} ⟨⟨v, hp v hv⟩, hv⟩
  exact ⟨w.1, hw, fun u hu huw => hmin ⟨u, hp u hu⟩ hu (.single huw)⟩

theorem kahnLoop_end (hes : ∀ e ∈ es, e.2 ∈ vs) (fuel : ℕ) (deg : Table V ℕ) (queue sorted : List V)
    (h : Sorting vs es [] deg queue sorted) (hfuel : vs.length ≤ fuel + sorted.length) :
    ∃ deg', Sorting vs es [] deg' [] (kahnLoop es fuel deg queue sorted) := by
  induction fuel generalizing deg queue sorted with
  | zero =>
    obtain rfl := h.full (by omega)
    exact ⟨deg, h⟩
  | succ fuel ih =>
    cases queue with
    | nil => exact ⟨deg, h⟩
    | cons v queue =>
      refine ih _ _ _ (h.round hes) ?_
      rw [List.length_append, List.length_singleton]
      omega

theorem kahn_complete (hes : ∀ e ∈ es, e.1 ∈ vs ∧ e.2 ∈ vs) (hacyclic : Acyclic es) (start : List V)
    (hnodup : start.Nodup) (hstart : ∀ v, v ∈ start ↔ inDegree vs es v = some 0) (fuel : ℕ)
    (hfuel : vs.length ≤ fuel) : ∀ v ∈ vs, v ∈ kahnLoop es fuel (inDegree vs es) start [] := by
  have htargets : ∀ e ∈ es, e.2 ∈ vs := fun e he => (hes e he).2
  obtain ⟨deg, hend⟩ := kahnLoop_end htargets fuel _ _ _ (sorting_start htargets start hnodup hstart) hfuel
  by_contra hnot
  push Not at hnot
  obtain ⟨v, hv, hleft⟩ := hnot
  -- a vertex left over that no vertex left over has an edge to
  obtain ⟨w, ⟨hw, hwleft⟩, hsource⟩ := hacyclic.exists_source
    (fun v => v ∈ vs ∧ v ∉ kahnLoop es fuel (inDegree vs es) start []) (fun v hv => hv.1) ⟨hv, hleft⟩
  have hzero := (hend.zero w hw).not.mp (by rw [List.append_nil]; exact hwleft)
  refine hzero ?_
  rw [List.count_nil, Nat.add_zero]
  refine List.countP_eq_zero.mpr fun e he => ?_
  have hsorted : e.2 = w → e.1 ∈ kahnLoop es fuel (inDegree vs es) start [] := by
    intro hew
    by_contra hopen
    exact hsource e.1 ⟨(hes e he).1, hopen⟩ (hew ▸ he)
  simpa using hsorted

end Kahn

end Xerv.Lib
