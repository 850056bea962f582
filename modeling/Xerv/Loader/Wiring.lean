import Xerv.Loader.Validator

/-!
# What the builder builds (`xerv-executor/src/loader/builder.rs`)

The enabled triggers and then the enabled nodes are numbered in order; each becomes the
graph node of its number, and an edge joins the numbers of the names at its ends. Numbers
are `u32` and wrap.
-/

namespace Xerv
open Xerv.Lib

namespace FlowDefinition

/-- The enabled triggers and nodes: their names and the types of their graph nodes. -/
def items (flow : FlowDefinition) : List (String × String) :=
  (flow.triggers.filter fun t => t.enabled).map (fun t => (t.id, "trigger::" ++ t.triggerType)) ++
    (flow.nodes.filter fun n => n.2.enabled).map fun n => (n.1, n.2.nodeType)

def names (flow : FlowDefinition) : List String := flow.items.map Prod.fst

theorem names_eq (flow : FlowDefinition) :
    flow.names = (flow.triggers.filter fun t => t.enabled).map (fun t => t.id) ++
      (flow.nodes.filter fun n => n.2.enabled).map Prod.fst := by
  unfold names items
  rw [List.map_append, List.map_map, List.map_map]
  rfl

section
variable (isAlphanumeric : Char → Bool)

def bothEnabled (flow : FlowDefinition) (e : EdgeDefinition) : Bool :=
  flow.names.contains (e.fromNode isAlphanumeric) && flow.names.contains (e.toNode isAlphanumeric)

variable {isAlphanumeric} in
theorem bothEnabled_iff (flow : FlowDefinition) (e : EdgeDefinition) :
    flow.bothEnabled isAlphanumeric e = true ↔
      e.fromNode isAlphanumeric ∈ flow.names ∧ e.toNode isAlphanumeric ∈ flow.names := by
  rw [bothEnabled, Bool.and_eq_true, List.contains_iff_mem, List.contains_iff_mem]

/-- The edges between enabled items that are not marked `loop_back`, by name. -/
def forwardNames (flow : FlowDefinition) : List (String × String) :=
  (flow.edges.filter fun e => flow.bothEnabled isAlphanumeric e && !e.loopBack).map fun e =>
    (e.fromNode isAlphanumeric, e.toNode isAlphanumeric)

end

end FlowDefinition

/-! ### Numbering -/

namespace FlowBuilder

theorem registerIds_eq (b : FlowBuilder) (flow : FlowDefinition) :
    b.registerIds flow = flow.names.foldl allocateId b := by
  rw [FlowDefinition.names_eq, List.foldl_append, List.foldl_map, List.foldl_map, List.foldl_filter,
    List.foldl_filter]
  rfl

theorem allocateId_next (names : List String) :
    (names.foldl allocateId new).nextId = UInt32.ofNat names.length := by
  induction names using List.reverseRecOn with
  | nil => rfl
  | append_singleton names last ih =>
    rw [List.foldl_append, List.foldl_cons, List.foldl_nil, allocateId, ih, List.length_append,
      List.length_singleton, UInt32.ofNat_add]
    rfl

theorem allocateId_isSome (names : List String) (name : String) :
    ((names.foldl allocateId new).nodeIds name).isSome = true ↔ name ∈ names := by
  induction names using List.reverseRecOn with
  | nil => simp [new]
  | append_singleton names last ih =>
    rw [List.foldl_append, List.foldl_cons, List.foldl_nil]
    by_cases heq : name = last
    · simp [allocateId, heq]
    · simp [allocateId, heq, ih]

theorem allocateId_nodeIds (names : List String) (hnodup : names.Nodup) (i : ℕ) (name : String)
    (hi : names[i]? = some name) : (names.foldl allocateId new).nodeIds name = some (UInt32.ofNat i) := by
  induction names using List.reverseRecOn with
  | nil => simp at hi
  | append_singleton names last ih =>
    obtain ⟨hold, -, hfresh⟩ := List.nodup_append.mp hnodup
    rw [List.foldl_append, List.foldl_cons, List.foldl_nil]
    have hlt := (List.getElem?_eq_some_iff.mp hi).1
    rw [List.length_append, List.length_singleton] at hlt
    rcases Nat.lt_succ_iff_lt_or_eq.mp hlt with hlt | rfl
    · rw [List.getElem?_append_left hlt] at hi
      have hne := hfresh name (List.mem_of_getElem? hi) last (List.mem_singleton.mpr rfl)
      exact (Table.insert_ne _ _ hne).trans (ih hold hi)
    · rw [List.getElem?_concat_length] at hi
      obtain rfl := Option.some.inj hi
      exact (Table.insert_self _ _ _).trans (congrArg some (allocateId_next names))

def idOf (flow : FlowDefinition) (name : String) : NodeId :=
  ((new.registerIds flow).nodeIds name).getD 0

theorem registerIds_isSome (flow : FlowDefinition) (name : String) :
    ((new.registerIds flow).nodeIds name).isSome = true ↔ name ∈ flow.names := by
  rw [registerIds_eq]
  exact allocateId_isSome flow.names name

theorem registerIds_idOf (flow : FlowDefinition) (name : String) (h : name ∈ flow.names) :
    (new.registerIds flow).nodeIds name = some (idOf flow name) := by
  obtain ⟨id, hid⟩ := Option.isSome_iff_exists.mp ((registerIds_isSome flow name).mpr h)
  rw [idOf, hid]
  rfl

theorem idOf_injective (flow : FlowDefinition) (hnodup : flow.names.Nodup)
    (hfit : flow.names.length ≤ UInt32.size) (a b : String) (ha : a ∈ flow.names) (hb : b ∈ flow.names)
    (h : idOf flow a = idOf flow b) : a = b := by
  obtain ⟨i, hi⟩ := List.mem_iff_getElem?.mp ha
  obtain ⟨j, hj⟩ := List.mem_iff_getElem?.mp hb
  rw [idOf, idOf, registerIds_eq, allocateId_nodeIds _ hnodup i a hi, allocateId_nodeIds _ hnodup j b hj] at h
  have hilt := (List.getElem?_eq_some_iff.mp hi).1
  have hjlt := (List.getElem?_eq_some_iff.mp hj).1
  have hij := congrArg UInt32.toNat (show UInt32.ofNat i = UInt32.ofNat j from h)
  rw [UInt32.toNat_ofNat_of_lt' (by omega), UInt32.toNat_ofNat_of_lt' (by omega)] at hij
  rw [hij] at hi
  exact Option.some.inj (hi.symm.trans hj)

/-! ### The graph of a flow -/

def graphNode (idOf : String → NodeId) (item : String × String) : GraphNode := .new (idOf item.1) item.2

section
variable (isAlphanumeric : Char → Bool)

def graphEdge (idOf : String → NodeId) (e : EdgeDefinition) : Edge where
  fromNode := idOf (e.parseFrom isAlphanumeric).1
  fromPort := (e.parseFrom isAlphanumeric).2
  toNode := idOf (e.parseTo isAlphanumeric).1
  toPort := (e.parseTo isAlphanumeric).2

/-- The last part of a round of `add_edges`. -/
def wire (idOf : String → NodeId) (g : FlowGraph) (e : EdgeDefinition) : FlowGraph :=
  let edge := graphEdge isAlphanumeric idOf e
  if e.loopBack then (g.addEdge edge).declareLoopEdge edge.fromNode edge.toNode else g.addEdge edge

/-- The graph that `build` validates where no name is missing. -/
def assembled (flow : FlowDefinition) : FlowGraph :=
  flow.edges.foldl (wire isAlphanumeric (idOf flow))
    ((flow.items.map (graphNode (idOf flow))).foldl FlowGraph.addNode FlowGraph.new)

end

theorem addTriggers_ok (b : FlowBuilder) (ts : List TriggerDefinition) (idOf : String → NodeId)
    (h : ∀ t ∈ ts, t.enabled = true → b.nodeIds t.id = some (idOf t.id)) :
    b.addTriggers ts = .ok { b with graph := (((ts.filter fun t => t.enabled).map fun t =>
      (t.id, "trigger::" ++ t.triggerType)).map (graphNode idOf)).foldl FlowGraph.addNode b.graph } := by
  induction ts generalizing b with
  | nil => rfl
  | cons t ts ih =>
    have hrest : ∀ u ∈ ts, u.enabled = true → b.nodeIds u.id = some (idOf u.id) :=
      fun u hu => h u (List.mem_cons_of_mem _ hu)
    unfold addTriggers
    by_cases henabled : t.enabled = true
    · rw [if_pos henabled, h t List.mem_cons_self henabled, List.filter_cons_of_pos henabled]
      exact ih { b with graph := b.graph.addNode _ } hrest
    · rw [if_neg henabled, List.filter_cons_of_neg henabled]
      exact ih b hrest

theorem addNodes_ok (b : FlowBuilder) (ns : List (String × NodeDefinition)) (idOf : String → NodeId)
    (h : ∀ n ∈ ns, n.2.enabled = true → b.nodeIds n.1 = some (idOf n.1)) :
    b.addNodes ns = .ok { b with graph := (((ns.filter fun n => n.2.enabled).map fun n =>
      (n.1, n.2.nodeType)).map (graphNode idOf)).foldl FlowGraph.addNode b.graph } := by
  induction ns generalizing b with
  | nil => rfl
  | cons n ns ih =>
    have hrest : ∀ m ∈ ns, m.2.enabled = true → b.nodeIds m.1 = some (idOf m.1) :=
      fun m hm => h m (List.mem_cons_of_mem _ hm)
    unfold addNodes
    by_cases henabled : n.2.enabled = true
    · rw [if_pos henabled, h n List.mem_cons_self henabled, List.filter_cons, if_pos henabled]
      exact ih { b with graph := b.graph.addNode _ } hrest
    · rw [if_neg henabled, List.filter_cons, if_neg henabled]
      exact ih b hrest

theorem addEdges_ok (isAlphanumeric : Char → Bool) (b : FlowBuilder) (es : List EdgeDefinition)
    (idOf : String → NodeId)
    (h : ∀ e ∈ es, b.nodeIds (e.fromNode isAlphanumeric) = some (idOf (e.fromNode isAlphanumeric)) ∧
      b.nodeIds (e.toNode isAlphanumeric) = some (idOf (e.toNode isAlphanumeric))) :
    b.addEdges isAlphanumeric es =
      .ok { b with graph := es.foldl (wire isAlphanumeric idOf) b.graph } := by
  induction es generalizing b with
  | nil => rfl
  | cons e es ih =>
    obtain ⟨hfrom, hto⟩ := h e List.mem_cons_self
    unfold EdgeDefinition.fromNode at hfrom
    unfold EdgeDefinition.toNode at hto
    unfold addEdges
    dsimp only
    rw [hfrom]
    dsimp only
    rw [hto]
    exact ih { b with graph := wire isAlphanumeric idOf b.graph e } fun x hx => h x (List.mem_cons_of_mem _ hx)

theorem addEdges_isSome (isAlphanumeric : Char → Bool) (b b' : FlowBuilder) (es : List EdgeDefinition)
    (h : b.addEdges isAlphanumeric es = .ok b') :
    ∀ e ∈ es, (b.nodeIds (e.fromNode isAlphanumeric)).isSome = true ∧
      (b.nodeIds (e.toNode isAlphanumeric)).isSome = true := by
  induction es generalizing b with
  | nil => exact fun e he => absurd he List.not_mem_nil
  | cons e es ih =>
    unfold addEdges at h
    dsimp only at h
    split at h
    · cases h
    · rename_i hfrom
      split at h
      · cases h
      · rename_i hto
        intro x hx
        rcases List.mem_cons.mp hx with rfl | hx
        · exact ⟨Option.isSome_of_eq_some hfrom, Option.isSome_of_eq_some hto⟩
        · exact ih _ h x hx

/-- The builder before its third pass. -/
def populated (flow : FlowDefinition) : FlowBuilder :=
  { new.registerIds flow with
    graph := (flow.items.map (graphNode (idOf flow))).foldl FlowGraph.addNode FlowGraph.new }

theorem addItems_ok (flow : FlowDefinition) :
    ((new.registerIds flow).addTriggers flow.triggers >>= fun b => b.addNodes flow.nodes) =
      .ok (populated flow) := by
  have hname (item : String × String) (h : item ∈ flow.items) :
      (new.registerIds flow).nodeIds item.1 = some (idOf flow item.1) :=
    registerIds_idOf flow item.1 (List.mem_map_of_mem h)
  have htriggers : ∀ t ∈ flow.triggers, t.enabled = true →
      (new.registerIds flow).nodeIds t.id = some (idOf flow t.id) := fun t ht henabled =>
    hname (t.id, "trigger::" ++ t.triggerType) (List.mem_append_left _ (List.mem_map.mpr
      ⟨t, List.mem_filter.mpr ⟨ht, henabled⟩, rfl⟩))
  have hnodes : ∀ n ∈ flow.nodes, n.2.enabled = true →
      (new.registerIds flow).nodeIds n.1 = some (idOf flow n.1) := fun n hn henabled =>
    hname (n.1, n.2.nodeType) (List.mem_append_right _ (List.mem_map.mpr
      ⟨n, List.mem_filter.mpr ⟨hn, henabled⟩, rfl⟩))
  have hempty : (new.registerIds flow).graph = FlowGraph.new := registerIds_graph new flow
  have hadded (graph : FlowGraph) :=
    addNodes_ok { new.registerIds flow with graph := graph } flow.nodes (idOf flow) hnodes
  rw [addTriggers_ok _ _ _ htriggers]
  refine (hadded _).trans ?_
  unfold populated FlowDefinition.items
  rw [List.map_append, List.foldl_append, hempty]

theorem build_populated (isAlphanumeric : Char → Bool) (flow : FlowDefinition) (order : List NodeId) :
    build isAlphanumeric flow order =
      ((populated flow).addEdges isAlphanumeric flow.edges >>= fun b => b.graph.validate order >>= fun _ =>
        .ok b.graph) := by
  have hitems := addItems_ok flow
  unfold build
  cases htriggers : (new.registerIds flow).addTriggers flow.triggers with
  | error e =>
    rw [htriggers] at hitems
    cases hitems
  | ok b =>
    rw [htriggers] at hitems
    exact congrArg (· >>= fun b => b.addEdges isAlphanumeric flow.edges >>= fun b =>
      b.graph.validate order >>= fun _ => .ok b.graph) hitems

/-- What `build` returns, and when: both ends of every edge are enabled, and the graph of the flow is valid. -/
theorem build_ok_iff (isAlphanumeric : Char → Bool) (flow : FlowDefinition) (order : List NodeId)
    (g : FlowGraph) : build isAlphanumeric flow order = .ok g ↔
      (∀ e ∈ flow.edges, flow.bothEnabled isAlphanumeric e = true) ∧
        (assembled isAlphanumeric flow).validate order = .ok () ∧ g = assembled isAlphanumeric flow := by
  have hedges (henabled : ∀ e ∈ flow.edges, flow.bothEnabled isAlphanumeric e = true) :
      (populated flow).addEdges isAlphanumeric flow.edges =
        .ok { populated flow with graph := assembled isAlphanumeric flow } :=
    addEdges_ok isAlphanumeric (populated flow) flow.edges (idOf flow) fun e he =>
      ((flow.bothEnabled_iff e).mp (henabled e he)).imp (registerIds_idOf flow _) (registerIds_idOf flow _)
  rw [build_populated]
  constructor
  · intro h
    obtain ⟨b, hb, h⟩ := bind_ok h
    have henabled : ∀ e ∈ flow.edges, flow.bothEnabled isAlphanumeric e = true := by
      intro e he
      obtain ⟨hfrom, hto⟩ := addEdges_isSome isAlphanumeric _ b flow.edges hb e he
      exact (flow.bothEnabled_iff e).mpr ⟨(registerIds_isSome flow _).mp hfrom, (registerIds_isSome flow _).mp hto⟩
    rw [hedges henabled] at hb
    obtain rfl := Except.ok.inj hb
    obtain ⟨u, hvalid, h⟩ := bind_ok h
    exact ⟨henabled, hvalid, (Except.ok.inj h).symm⟩
  · rintro ⟨henabled, hvalid, rfl⟩
    rw [hedges henabled]
    exact congrArg (· >>= fun _ => _) hvalid

end FlowBuilder

/-! ### Nodes and edges of the graph -/

namespace FlowGraph

theorem nodes_fit (g : FlowGraph) : g.nodes.length ≤ UInt32.size := by
  have hnodup : (g.nodeIds.map UInt32.toNat).Nodup := g.distinct.map fun _ _ => UInt32.toNat.inj
  have hsub : g.nodeIds.map UInt32.toNat ⊆ List.range UInt32.size := by
    intro i hi
    obtain ⟨id, -, rfl⟩ := List.mem_map.mp hi
    exact List.mem_range.mpr id.toNat_lt
  have hle := (List.subperm_of_subset hnodup hsub).length_le
  rwa [List.length_map, nodeIds, List.length_map, List.length_range] at hle

theorem addNode_fold_nodes (g : FlowGraph) (ns : List GraphNode)
    (hnodup : (g.nodeIds ++ ns.map GraphNode.id).Nodup) : (ns.foldl addNode g).nodes = g.nodes ++ ns := by
  induction ns generalizing g with
  | nil => exact (List.append_nil _).symm
  | cons n ns ih =>
    have hfresh : ∀ m ∈ g.nodes, m.id ≠ n.id := fun m hm =>
      (List.nodup_append.mp hnodup).2.2 m.id (List.mem_map_of_mem hm) n.id List.mem_cons_self
    have hnodes : (g.addNode n).nodes = g.nodes ++ [n] := by
      have hkeep : g.nodes.filter (fun m => m.id ≠ n.id) = g.nodes :=
        List.filter_eq_self.mpr fun m hm => decide_eq_true (hfresh m hm)
      exact congrArg (· ++ [n]) hkeep
    rw [List.foldl_cons, ih, hnodes, List.append_assoc, List.singleton_append]
    unfold nodeIds at hnodup ⊢
    rw [hnodes, List.map_append, List.append_assoc]
    exact hnodup

theorem addNode_fold_edges (g : FlowGraph) (ns : List GraphNode) :
    (ns.foldl addNode g).edges = g.edges ∧ (ns.foldl addNode g).loopBackEdges = g.loopBackEdges := by
  induction ns generalizing g with
  | nil => exact ⟨rfl, rfl⟩
  | cons n ns ih => exact ih (g.addNode n)

end FlowGraph

namespace FlowBuilder

section
variable (isAlphanumeric : Char → Bool)

theorem wire_fold (idOf : String → NodeId) (g : FlowGraph) (es : List EdgeDefinition) :
    (es.foldl (wire isAlphanumeric idOf) g).nodes = g.nodes ∧
      (es.foldl (wire isAlphanumeric idOf) g).edges = g.edges ++ es.map (graphEdge isAlphanumeric idOf) := by
  induction es generalizing g with
  | nil => exact ⟨rfl, (List.append_nil _).symm⟩
  | cons e es ih =>
    have hwire : (wire isAlphanumeric idOf g e).nodes = g.nodes ∧
        (wire isAlphanumeric idOf g e).edges = g.edges ++ [graphEdge isAlphanumeric idOf e] := by
      unfold wire
      dsimp only
      split
      · exact ⟨rfl, rfl⟩
      · exact ⟨rfl, rfl⟩
    obtain ⟨hnodes, hedges⟩ := ih (wire isAlphanumeric idOf g e)
    rw [List.foldl_cons, hnodes, hedges, hwire.1, hwire.2, List.append_assoc]
    exact ⟨rfl, rfl⟩

theorem wire_fold_loops (idOf : String → NodeId) (g : FlowGraph) (es : List EdgeDefinition) (a b : NodeId) :
    (es.foldl (wire isAlphanumeric idOf) g).isLoopBackEdge a b = true ↔ g.isLoopBackEdge a b = true ∨
      ∃ e ∈ es, e.loopBack = true ∧
        idOf (e.fromNode isAlphanumeric) = a ∧ idOf (e.toNode isAlphanumeric) = b := by
  induction es generalizing g with
  | nil => simp
  | cons e es ih =>
    have hwire : (wire isAlphanumeric idOf g e).isLoopBackEdge a b = true ↔ g.isLoopBackEdge a b = true ∨
        (e.loopBack = true ∧ idOf (e.fromNode isAlphanumeric) = a ∧
          idOf (e.toNode isAlphanumeric) = b) := by
      unfold wire
      dsimp only
      split
      · rename_i hloop
        refine (Keys.insert_true_iff _ _ _).trans ?_
        rw [Prod.mk.injEq]
        constructor
        · rintro (⟨ha, hb⟩ | hold)
          · exact .inr ⟨hloop, ha.symm, hb.symm⟩
          · exact .inl hold
        · rintro (hold | ⟨-, ha, hb⟩)
          · exact .inr hold
          · exact .inl ⟨ha.symm, hb.symm⟩
      · rename_i hloop
        exact (or_iff_left fun h => hloop h.1).symm
    rw [List.foldl_cons, ih, hwire, List.exists_mem_cons_iff, or_assoc]

/-- The graph of a flow: a node for each enabled trigger and node, under numbers that tell their names apart,
and an edge for each edge of the flow with both ends enabled. -/
structure Wired (flow : FlowDefinition) (idOf : String → NodeId) (g : FlowGraph) : Prop where
  distinct : ∀ a ∈ flow.names, ∀ b ∈ flow.names, idOf a = idOf b → a = b
  nodes : g.nodes = flow.items.map (graphNode idOf)
  edges : g.edges = (flow.edges.filter (flow.bothEnabled isAlphanumeric)).map (graphEdge isAlphanumeric idOf)
  loops : ∀ a b, g.isLoopBackEdge a b = true ↔ ∃ e ∈ flow.edges.filter (flow.bothEnabled isAlphanumeric),
    e.loopBack = true ∧ idOf (e.fromNode isAlphanumeric) = a ∧ idOf (e.toNode isAlphanumeric) = b

theorem assembled_wired (flow : FlowDefinition) (hnodup : flow.names.Nodup)
    (hfit : flow.names.length ≤ UInt32.size)
    (henabled : ∀ e ∈ flow.edges, flow.bothEnabled isAlphanumeric e = true) :
    Wired isAlphanumeric flow (idOf flow) (assembled isAlphanumeric flow) := by
  have hdistinct : ∀ a ∈ flow.names, ∀ b ∈ flow.names, idOf flow a = idOf flow b → a = b :=
    fun a ha b hb => idOf_injective flow hnodup hfit a b ha hb
  have hids : (flow.items.map (graphNode (idOf flow))).map GraphNode.id = flow.names.map (idOf flow) := by
    unfold FlowDefinition.names
    rw [List.map_map, List.map_map]
    rfl
  have hall : flow.edges.filter (flow.bothEnabled isAlphanumeric) = flow.edges :=
    List.filter_eq_self.mpr henabled
  obtain ⟨hnodes, hedges⟩ := wire_fold isAlphanumeric (idOf flow)
    ((flow.items.map (graphNode (idOf flow))).foldl FlowGraph.addNode FlowGraph.new) flow.edges
  obtain ⟨hnone, hloops⟩ := FlowGraph.new.addNode_fold_edges (flow.items.map (graphNode (idOf flow)))
  refine ⟨hdistinct, ?_, ?_, fun a b => ?_⟩
  · refine hnodes.trans (FlowGraph.new.addNode_fold_nodes _ ?_)
    rw [hids]
    exact hnodup.map_on hdistinct
  · rw [hall]
    exact hedges.trans (congrArg (· ++ _) hnone)
  · rw [hall]
    refine (wire_fold_loops isAlphanumeric (idOf flow) _ flow.edges a b).trans (or_iff_right ?_)
    rw [FlowGraph.isLoopBackEdge, hloops]
    exact Bool.false_ne_true

variable {isAlphanumeric}

theorem Wired.nodeIds {flow : FlowDefinition} {idOf : String → NodeId} {g : FlowGraph}
    (h : Wired isAlphanumeric flow idOf g) : g.nodeIds = flow.names.map idOf := by
  unfold FlowGraph.nodeIds FlowDefinition.names
  rw [h.nodes, List.map_map, List.map_map]
  rfl

theorem Wired.ends {flow : FlowDefinition} {idOf : String → NodeId} {g : FlowGraph}
    (h : Wired isAlphanumeric flow idOf g) :
    ∀ e ∈ g.edges, e.fromNode ∈ g.nodeIds ∧ e.toNode ∈ g.nodeIds := by
  intro e he
  rw [h.edges] at he
  obtain ⟨d, hd, rfl⟩ := List.mem_map.mp he
  obtain ⟨hfrom, hto⟩ := (flow.bothEnabled_iff d).mp (List.mem_filter.mp hd).2
  rw [h.nodeIds]
  exact ⟨List.mem_map_of_mem hfrom, List.mem_map_of_mem hto⟩

theorem Wired.acyclic {flow : FlowDefinition} {idOf : String → NodeId} {g : FlowGraph}
    (h : Wired isAlphanumeric flow idOf g) (hacyclic : Acyclic (flow.forwardNames isAlphanumeric)) :
    Acyclic g.forwardPairs := by
  refine hacyclic.rename idOf (· ∈ flow.names) (fun u v hu hv => h.distinct u hu v hv) ?_ ?_
  · intro p hp
    obtain ⟨e, he, rfl⟩ := List.mem_map.mp hp
    have hforward := (List.mem_filter.mp he).2
    rw [Bool.and_eq_true] at hforward
    exact (flow.bothEnabled_iff e).mp hforward.1
  · intro p hp
    obtain ⟨edge, hedge, rfl⟩ := List.mem_map.mp hp
    obtain ⟨hin, hforward⟩ := List.mem_filter.mp hedge
    rw [h.edges] at hin
    obtain ⟨e, he, rfl⟩ := List.mem_map.mp hin
    obtain ⟨hflow, hboth⟩ := List.mem_filter.mp he
    refine ⟨_, List.mem_map.mpr ⟨e, List.mem_filter.mpr ⟨hflow, ?_⟩, rfl⟩, rfl⟩
    have hmarked : ¬e.loopBack = true := by
      intro hloop
      have hdeclared := (h.loops _ _).mpr ⟨e, he, hloop, rfl, rfl⟩
      have hundeclared : (!g.isLoopBackEdge (idOf (e.fromNode isAlphanumeric))
        (idOf (e.toNode isAlphanumeric))) = true := hforward
      rw [hdeclared] at hundeclared
      cases hundeclared
    rw [hboth, Bool.eq_false_iff.mpr hmarked]
    rfl

/-! ### The validator and the builder -/

/-- For every order of its hash maps `build` returns the graph of the flow. -/
def BuildsExactly (isAlphanumeric : Char → Bool) (flow : FlowDefinition) : Prop :=
  ∃ idOf g, Wired isAlphanumeric flow idOf g ∧
    ∀ order, g.HashOrder order → build isAlphanumeric flow order = .ok g

theorem accepted_names {yaml : Yaml} (flow : Document.FlowDefinition yaml)
    (h : Document.FlowValidator.Accepted isAlphanumeric flow) : flow.core.names.Nodup := by
  have htriggers : (flow.core.triggers.map fun t => t.id).Nodup := by
    have hids := h.triggerIds
    unfold Document.FlowDefinition.core
    rwa [List.map_map]
  rw [FlowDefinition.names_eq, List.nodup_append]
  refine ⟨htriggers.sublist (List.filter_sublist.map _),
    flow.core.distinctNodes.sublist (List.filter_sublist.map _), ?_⟩
  intro a ha b hb
  obtain ⟨t, ht, rfl⟩ := List.mem_map.mp ha
  obtain ⟨n, hn, rfl⟩ := List.mem_map.mp hb
  obtain ⟨t', ht', rfl⟩ := List.mem_map.mp (List.mem_filter.mp ht).1
  obtain ⟨n', hn', rfl⟩ := List.mem_map.mp (List.mem_filter.mp hn).1
  exact h.apart n' hn' t' ht'

/-- For every flow that the validator accepts and whose unmarked edges between enabled items make no cycle:
the builder returns its graph if and only if both ends of every edge are enabled, and the enabled items do not
outnumber the ids. -/
theorem accepted_builds_iff (isAlphanumeric : Char → Bool) {yaml : Yaml} (limits : ValidationLimits)
    (flow : Document.FlowDefinition yaml)
    (haccepted : Document.FlowValidator.validate isAlphanumeric limits flow = .ok ())
    (hacyclic : Acyclic (flow.core.forwardNames isAlphanumeric)) :
    BuildsExactly isAlphanumeric flow.core ↔
      (∀ e ∈ flow.core.edges, flow.core.bothEnabled isAlphanumeric e = true) ∧
        flow.core.items.length ≤ UInt32.size := by
  constructor
  · rintro ⟨idOf, g, hwired, hbuild⟩
    have hok := hbuild g.nodeIds (g.hashOrder_nodeIds hwired.ends)
    refine ⟨((build_ok_iff isAlphanumeric flow.core _ g).mp hok).1, ?_⟩
    have hfit := g.nodes_fit
    rwa [hwired.nodes, List.length_map] at hfit
  · rintro ⟨henabled, hfit⟩
    have hnodup := accepted_names flow
      (Document.FlowValidator.validate_accepted isAlphanumeric limits flow haccepted)
    have hwired := assembled_wired isAlphanumeric flow.core hnodup
      ((List.length_map _).trans_le hfit) henabled
    refine ⟨_, _, hwired, fun order horder => (build_ok_iff isAlphanumeric flow.core order _).mpr ?_⟩
    exact ⟨henabled, (FlowGraph.validate_ok_iff _ order horder).mpr
      ⟨hwired.ends, hwired.acyclic hacyclic⟩, rfl⟩

end

end FlowBuilder

def nullYaml : Yaml := ⟨Unit, fun _ _ => none, fun _ => none, fun _ => none⟩

def oneEdge (enabled : Bool) : Document.FlowDefinition nullYaml where
  name := "orders"
  version := none
  triggers := [{ id := "start", triggerType := "webhook", enabled := true, params := () }]
  nodes := [("audit", { nodeType := "std::log", enabled := enabled, config := () })]
  edges := [{ source := "start", target := "audit", loopBack := false, condition := none }]
  distinctNodes := List.nodup_singleton _

theorem oneEdge_acyclic (enabled : Bool) :
    Acyclic ((oneEdge enabled).core.forwardNames Char.isAlphanum) := by
  have hpair : ∀ p ∈ (oneEdge enabled).core.forwardNames Char.isAlphanum, p = ("start", "audit") := by
    cases enabled
    · decide +kernel
    · decide
  intro v hcycle
  obtain ⟨u, hfirst, -⟩ := Relation.TransGen.head'_iff.mp hcycle
  obtain ⟨w, -, hlast⟩ := Relation.TransGen.tail'_iff.mp hcycle
  have hstart := (Prod.mk.inj (hpair _ hfirst)).1
  have haudit := (Prod.mk.inj (hpair _ hlast)).2
  exact absurd (hstart.symm.trans haudit) (by decide)

namespace FlowBuilder

theorem accepted_builds_one_edge : BuildsExactly Char.isAlphanum (oneEdge true).core :=
  (accepted_builds_iff Char.isAlphanum .default (oneEdge true) rfl (oneEdge_acyclic true)).mpr
    ⟨by decide +kernel, by decide +kernel⟩

theorem disabled_end_rejected :
    Document.FlowValidator.validate Char.isAlphanum .default (oneEdge false) = .ok () ∧
      Acyclic ((oneEdge false).core.forwardNames Char.isAlphanum) ∧
      (∀ order, build Char.isAlphanum (oneEdge false).core order = .error (.invalidEdge 0 "out" 0 "in")) ∧
      ¬BuildsExactly Char.isAlphanum (oneEdge false).core := by
  have hbuild : ∀ order,
      build Char.isAlphanum (oneEdge false).core order = .error (.invalidEdge 0 "out" 0 "in") := fun _ => rfl
  refine ⟨rfl, oneEdge_acyclic false, hbuild, ?_⟩
  rintro ⟨idOf, g, hwired, hok⟩
  have h := hok g.nodeIds (g.hashOrder_nodeIds hwired.ends)
  rw [hbuild] at h
  cases h

end FlowBuilder

end Xerv
