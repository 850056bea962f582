import Xerv.Lib.DepthFirst
import Xerv.Loader.Wiring

/-!
# The cycle check of the editor (`xerv-wasm/src/lib.rs`)

The editor looks for a cycle by depth-first search over the names of a pipeline's nodes, the engine by sorting the
numbers of its graph's nodes. Parsing the document is a parameter. The calls of `dfs_cycle` nest as deep as the
fuel says.
-/

namespace Xerv.Editor
open Xerv.Lib

structure Node where
  id : String
  nodeType : String
  deriving DecidableEq, Repr

structure Edge where
  id : String
  source : String
  target : String
  deriving DecidableEq, Repr

structure Pipeline where
  id : String
  name : String
  nodes : List Node
  edges : List Edge
  deriving DecidableEq, Repr

structure ValidationResult where
  valid : Bool
  errors : List String
  warnings : List String
  deriving DecidableEq, Repr

def dfsCycle (graph : Table String (List String)) : ℕ → String → SearchMarks String → Option (Bool × SearchMarks String)
  | 0, _, _ => none
  | fuel + 1, node, m =>
    if m.visited node then some (false, m)
    else if m.visiting node then some (true, m)
    else
      let entered : SearchMarks String := { m with visiting := m.visiting.insert node }
      let searched := match graph node with
        | some neighbors => searchAll (dfsCycle graph fuel) neighbors entered
        | none => some (false, entered)
      match searched with
      | none => none
      | some (true, m) => some (true, m)
      | some (false, m) => some (false, ⟨m.visiting.remove node, m.visited.insert node⟩)

namespace Pipeline

def nodeIds (pipeline : Pipeline) : List String := pipeline.nodes.map Node.id

/-- The adjacency lists that `has_cycle` collects. -/
def graph (pipeline : Pipeline) : Table String (List String) :=
  pipeline.edges.foldl (fun graph edge => graph.push edge.source edge.target) Table.empty

def hasCycle (fuel : ℕ) (pipeline : Pipeline) : Option Bool :=
  (searchAll (dfsCycle pipeline.graph fuel) pipeline.nodeIds ⟨Keys.empty, Keys.empty⟩).map Prod.fst

def connected (pipeline : Pipeline) : Keys String :=
  pipeline.edges.foldl (fun connected edge => (connected.insert edge.source).insert edge.target) Keys.empty

def findOrphanedNodes (pipeline : Pipeline) : List String :=
  (pipeline.nodes.filter fun node => !pipeline.connected node.id).map Node.id

end Pipeline

/-- `Except.error` carries the message of the parser. -/
def validatePipeline (parse : String → Except String Pipeline) (fuel : ℕ) (pipelineJson : String) :
    Option ValidationResult :=
  match parse pipelineJson with
  | .error e => some ⟨false, ["Invalid JSON: " ++ e], []⟩
  | .ok pipeline =>
    (pipeline.hasCycle fuel).map fun cycle =>
      let errors := if cycle then ["Cycle detected in pipeline"] else []
      let warnings := pipeline.findOrphanedNodes.map fun nodeId => "Node '" ++ nodeId ++ "' has no connections"
      ⟨errors.isEmpty, errors, warnings⟩

namespace Pipeline

def pairs (pipeline : Pipeline) : List (String × String) := pipeline.edges.map fun edge => (edge.source, edge.target)

/-- Edges lead from a node back to it. -/
def Cyclic (pipeline : Pipeline) : Prop := ∃ id, Relation.TransGen (fun u w => (u, w) ∈ pipeline.pairs) id id

def KnownEnds (pipeline : Pipeline) : Prop :=
  ∀ edge ∈ pipeline.edges, edge.source ∈ pipeline.nodeIds ∧ edge.target ∈ pipeline.nodeIds

/-! ### The search of the editor -/

theorem dfsCycle_eq (graph : Table String (List String)) (fuel : ℕ) (node : String) (m : SearchMarks String) :
    dfsCycle graph fuel node m = search (fun node => (graph node).getD []) fuel node m := by
  induction fuel generalizing node m with
  | zero => rfl
  | succ fuel ih =>
    have hsame : dfsCycle graph fuel = search (fun node => (graph node).getD []) fuel := by
      funext node m
      exact ih node m
    unfold dfsCycle search
    rw [hsame]
    dsimp only
    cases hnode : graph node with
    | none => rfl
    | some neighbors =>
      dsimp only [Option.getD_some]
      congr 2
      rcases searchAll (search (fun node => (graph node).getD []) fuel) neighbors _ with _ | ⟨_ | _, _⟩
      · rfl
      · rfl
      · rfl

theorem leads_graph_iff (pipeline : Pipeline) (u w : String) :
    Leads (fun node => (pipeline.graph node).getD []) u w ↔ (u, w) ∈ pipeline.pairs := by
  have hgraph : (pipeline.graph u).getD [] =
      (pipeline.edges.filter fun edge => edge.source = u).map Edge.target :=
    Table.foldl_push_getD Edge.source Edge.target pipeline.edges Table.empty u
  unfold Leads pairs
  dsimp only
  rw [hgraph]
  simp only [List.mem_map, List.mem_filter, decide_eq_true_eq, Prod.mk.injEq, and_assoc]

theorem hasCycle_total {pipeline : Pipeline} (hends : pipeline.KnownEnds) (fuel : ℕ)
    (hfuel : pipeline.nodes.length < fuel) :
    ∃ found, pipeline.hasCycle fuel = some found ∧ (found = true ↔ pipeline.Cyclic) := by
  have hleads : Leads (fun node => (pipeline.graph node).getD []) = fun u w => (u, w) ∈ pipeline.pairs := by
    funext u w
    exact propext (pipeline.leads_graph_iff u w)
  have hadj : ∀ u w, Leads (fun node => (pipeline.graph node).getD []) u w →
      u ∈ pipeline.nodeIds ∧ w ∈ pipeline.nodeIds := by
    intro u w huw
    obtain ⟨edge, hedge, heq⟩ := List.mem_map.mp ((pipeline.leads_graph_iff u w).mp huw)
    cases heq
    exact hends edge hedge
  have hfuel' : pipeline.nodeIds.length < fuel := (List.length_map Node.id).trans_lt hfuel
  obtain ⟨found, m, hsearch, hfound⟩ := searchAll_total hadj fuel hfuel'
  have hsame : dfsCycle pipeline.graph fuel = search (fun node => (pipeline.graph node).getD []) fuel := by
    funext node m
    exact dfsCycle_eq pipeline.graph fuel node m
  refine ⟨found, ?_, ?_⟩
  · unfold hasCycle
    rw [hsame, hsearch]
    rfl
  · rw [hfound, HasCycle, hleads, Cyclic]

/-! ### The graph of the engine -/

/-- A graph of the engine with the nodes and edges of the pipeline, under numbers that tell the nodes apart, and no
declared back-edge. -/
structure SameGraph (idOf : String → NodeId) (pipeline : Pipeline) (g : FlowGraph) : Prop where
  distinct : ∀ a ∈ pipeline.nodeIds, ∀ b ∈ pipeline.nodeIds, idOf a = idOf b → a = b
  nodes : ∀ n, n ∈ g.nodeIds ↔ n ∈ pipeline.nodeIds.map idOf
  edges : ∀ p, p ∈ g.edges.map (fun e => (e.fromNode, e.toNode)) ↔
    p ∈ pipeline.pairs.map fun p => (idOf p.1, idOf p.2)
  undeclared : g.loopBackEdges = Keys.empty

/-- The graph that the engine's own builder makes of the pipeline, with any ports. -/
def flowGraph (idOf : String → NodeId) (ports : Edge → String × String) (pipeline : Pipeline) : FlowGraph :=
  (pipeline.edges.map fun edge => ⟨idOf edge.source, (ports edge).1, idOf edge.target, (ports edge).2⟩).foldl
    FlowGraph.addEdge
    ((pipeline.nodes.map fun node => GraphNode.new (idOf node.id) node.nodeType).foldl FlowGraph.addNode .new)

theorem addEdge_fold (g : FlowGraph) (es : List Xerv.Edge) :
    (es.foldl FlowGraph.addEdge g).nodes = g.nodes ∧ (es.foldl FlowGraph.addEdge g).edges = g.edges ++ es ∧
      (es.foldl FlowGraph.addEdge g).loopBackEdges = g.loopBackEdges := by
  induction es generalizing g with
  | nil => exact ⟨rfl, (List.append_nil _).symm, rfl⟩
  | cons e es ih =>
    obtain ⟨hnodes, hedges, hloops⟩ := ih (g.addEdge e)
    exact ⟨hnodes, hedges.trans (List.append_assoc _ _ _), hloops⟩

theorem sameGraph_flowGraph (idOf : String → NodeId) (ports : Edge → String × String) {pipeline : Pipeline}
    (hnodup : pipeline.nodeIds.Nodup)
    (hdistinct : ∀ a ∈ pipeline.nodeIds, ∀ b ∈ pipeline.nodeIds, idOf a = idOf b → a = b) :
    SameGraph idOf pipeline (flowGraph idOf ports pipeline) := by
  have hids : (pipeline.nodes.map fun node => GraphNode.new (idOf node.id) node.nodeType).map GraphNode.id =
      pipeline.nodeIds.map idOf := by
    unfold nodeIds
    rw [List.map_map, List.map_map]
    rfl
  have hfresh : (FlowGraph.new.nodeIds ++
      (pipeline.nodes.map fun node => GraphNode.new (idOf node.id) node.nodeType).map GraphNode.id).Nodup := by
    rw [hids]
    exact hnodup.map_on hdistinct
  obtain ⟨hnone, hundeclared⟩ := FlowGraph.new.addNode_fold_edges
    (pipeline.nodes.map fun node => GraphNode.new (idOf node.id) node.nodeType)
  obtain ⟨hnodes, hedges, hloops⟩ := addEdge_fold
    ((pipeline.nodes.map fun node => GraphNode.new (idOf node.id) node.nodeType).foldl FlowGraph.addNode .new)
    (pipeline.edges.map fun edge => ⟨idOf edge.source, (ports edge).1, idOf edge.target, (ports edge).2⟩)
  refine ⟨hdistinct, fun n => ?_, fun p => ?_, hloops.trans hundeclared⟩
  · unfold FlowGraph.nodeIds flowGraph
    rw [hnodes, FlowGraph.new.addNode_fold_nodes _ hfresh, ← hids]
    rfl
  · unfold flowGraph pairs
    rw [hedges, hnone, List.map_map]
    simp [FlowGraph.new]

section
variable {idOf : String → NodeId} {pipeline : Pipeline} {g : FlowGraph}

theorem SameGraph.ends (h : SameGraph idOf pipeline g) (hends : pipeline.KnownEnds) :
    ∀ e ∈ g.edges, e.fromNode ∈ g.nodeIds ∧ e.toNode ∈ g.nodeIds := by
  intro e he
  obtain ⟨p, hp, heq⟩ := List.mem_map.mp ((h.edges _).mp (List.mem_map_of_mem he))
  obtain ⟨edge, hedge, rfl⟩ := List.mem_map.mp hp
  obtain ⟨hfrom, hto⟩ := Prod.mk.inj heq
  obtain ⟨hsource, htarget⟩ := hends edge hedge
  rw [h.nodes, h.nodes, ← hfrom, ← hto]
  exact ⟨List.mem_map_of_mem hsource, List.mem_map_of_mem htarget⟩

theorem SameGraph.mem_forwardPairs (h : SameGraph idOf pipeline g) (p : NodeId × NodeId) :
    p ∈ g.forwardPairs ↔ p ∈ pipeline.pairs.map fun p => (idOf p.1, idOf p.2) := by
  have hforward : g.edges.filter g.isForward = g.edges := by
    refine List.filter_eq_self.mpr fun e _ => ?_
    rw [FlowGraph.isForward, FlowGraph.isLoopBackEdge, h.undeclared]
    rfl
  unfold FlowGraph.forwardPairs
  rw [hforward, h.edges]

theorem SameGraph.cyclic_iff (h : SameGraph idOf pipeline g) (hends : pipeline.KnownEnds) :
    pipeline.Cyclic ↔ ¬ Acyclic g.forwardPairs := by
  constructor
  · rintro ⟨id, hcycle⟩ hacyclic
    refine hacyclic (idOf id) (hcycle.lift idOf fun u w huw => ?_)
    exact (h.mem_forwardPairs _).mpr (List.mem_map_of_mem huw)
  · intro hcycle
    by_contra hnone
    have hacyclic : Acyclic pipeline.pairs := fun id hid => hnone ⟨id, hid⟩
    refine hcycle (hacyclic.rename idOf (· ∈ pipeline.nodeIds) (fun u w hu hw => h.distinct u hu w hw) ?_ ?_)
    · intro p hp
      obtain ⟨edge, hedge, rfl⟩ := List.mem_map.mp hp
      exact hends edge hedge
    · intro p hp
      obtain ⟨q, hq, rfl⟩ := List.mem_map.mp ((h.mem_forwardPairs p).mp hp)
      exact ⟨q, hq, rfl⟩

end

/-- For every pipeline whose edges connect its nodes: the search of the editor ends, with the same answer for every
depth of calls beyond the number of nodes; it finds a cycle if and only if the edges have one; and if and only if
the engine refuses the same graph as cyclic, however that is numbered and its tables iterated. -/
theorem editor_agrees_with_engine (pipeline : Pipeline) (hends : pipeline.KnownEnds) :
    ∃ found, (∀ fuel, pipeline.nodes.length < fuel → pipeline.hasCycle fuel = some found) ∧
      (found = true ↔ pipeline.Cyclic) ∧
      ∀ idOf g order, SameGraph idOf pipeline g → g.HashOrder order →
        (found = true ↔ ∃ nodes, g.validate order = .error (.uncontrolledCycle nodes)) := by
  obtain ⟨found, -, hfound⟩ := hasCycle_total hends (pipeline.nodes.length + 1) (Nat.lt_succ_self _)
  refine ⟨found, fun fuel hfuel => ?_, hfound, fun idOf g order hsame horder => ?_⟩
  · obtain ⟨other, hother, hcycle⟩ := hasCycle_total hends fuel hfuel
    rw [hother, Bool.eq_iff_iff.mpr (hcycle.trans hfound.symm)]
  · rw [hfound, hsame.cyclic_iff hends, g.validate_cycle_iff order horder (hsame.ends hends)]

/-! ### What the editor reports -/

theorem connected_iff (pipeline : Pipeline) (id : String) :
    pipeline.connected id = true ↔ ∃ edge ∈ pipeline.edges, id = edge.source ∨ id = edge.target := by
  have hfold (edges : List Edge) (connected : Keys String) :
      edges.foldl (fun connected edge => (connected.insert edge.source).insert edge.target) connected id = true ↔
        connected id = true ∨ ∃ edge ∈ edges, id = edge.source ∨ id = edge.target := by
    induction edges generalizing connected with
    | nil => simp
    | cons edge edges ih =>
      rw [List.foldl_cons, ih, Keys.insert_true_iff, Keys.insert_true_iff, List.exists_mem_cons_iff,
        ← or_assoc, ← or_assoc, or_comm (a := id = edge.target), or_comm (b := connected id = true)]
  exact (hfold pipeline.edges Keys.empty).trans (or_iff_right Bool.false_ne_true)

theorem mem_findOrphanedNodes (pipeline : Pipeline) (id : String) : id ∈ pipeline.findOrphanedNodes ↔
    id ∈ pipeline.nodeIds ∧ ∀ edge ∈ pipeline.edges, id ≠ edge.source ∧ id ≠ edge.target := by
  have horphan (node : Node) : (!pipeline.connected node.id) = true ↔
      ∀ edge ∈ pipeline.edges, node.id ≠ edge.source ∧ node.id ≠ edge.target := by
    rw [Bool.not_eq_true', Bool.eq_false_iff, Ne, connected_iff]
    push Not
    rfl
  unfold findOrphanedNodes nodeIds
  rw [List.mem_map, List.mem_map]
  constructor
  · rintro ⟨node, hnode, rfl⟩
    obtain ⟨hmem, halone⟩ := List.mem_filter.mp hnode
    exact ⟨⟨node, hmem, rfl⟩, (horphan node).mp halone⟩
  · rintro ⟨⟨node, hnode, rfl⟩, halone⟩
    exact ⟨node, List.mem_filter.mpr ⟨hnode, (horphan node).mpr halone⟩, rfl⟩

/-- A document that parses is valid if and only if its edges have no cycle, with a warning for every node that no
edge touches. -/
theorem validatePipeline_parsed {parse : String → Except String Pipeline} {pipelineJson : String}
    {pipeline : Pipeline} (hparse : parse pipelineJson = .ok pipeline) (hends : pipeline.KnownEnds) (fuel : ℕ)
    (hfuel : pipeline.nodes.length < fuel) :
    ∃ result, validatePipeline parse fuel pipelineJson = some result ∧ (result.valid = true ↔ ¬ pipeline.Cyclic) ∧
      ∀ warning, warning ∈ result.warnings ↔ ∃ id ∈ pipeline.nodeIds,
        (∀ edge ∈ pipeline.edges, id ≠ edge.source ∧ id ≠ edge.target) ∧
          warning = "Node '" ++ id ++ "' has no connections" := by
  obtain ⟨found, hsearch, hfound⟩ := hasCycle_total hends fuel hfuel
  unfold validatePipeline
  rw [hparse]
  dsimp only
  rw [hsearch]
  refine ⟨_, rfl, ?_, fun warning => ?_⟩
  · rw [← hfound]
    cases found with
    | true => simp
    | false => simp
  · rw [List.mem_map]
    constructor
    · rintro ⟨id, hid, rfl⟩
      obtain ⟨hnode, halone⟩ := (pipeline.mem_findOrphanedNodes id).mp hid
      exact ⟨id, hnode, halone, rfl⟩
    · rintro ⟨id, hnode, halone, rfl⟩
      exact ⟨id, (pipeline.mem_findOrphanedNodes id).mpr ⟨hnode, halone⟩, rfl⟩

def tangled : Pipeline where
  id := "p"
  name := "tangled"
  nodes := [⟨"a", "std::map"⟩, ⟨"b", "std::map"⟩]
  edges := [⟨"e1", "a", "b"⟩, ⟨"e2", "a", "b"⟩, ⟨"e3", "b", "b"⟩, ⟨"e4", "b", "a"⟩]

def tangledId (id : String) : NodeId := if id = "a" then 0 else 1

def tangledGraph : FlowGraph := flowGraph tangledId (fun _ => ("out", "in")) tangled

theorem tangled_agrees : (∀ fuel, 2 < fuel → tangled.hasCycle fuel = some true) ∧
    ∃ nodes, tangledGraph.validate [0, 1] = .error (.uncontrolledCycle nodes) := by
  obtain ⟨found, hfound, hcycle, hengine⟩ := editor_agrees_with_engine tangled (by unfold KnownEnds; decide)
  have hself : tangled.Cyclic := ⟨"b", .single (by decide)⟩
  have hsame : SameGraph tangledId tangled tangledGraph := sameGraph_flowGraph _ _ (by decide) (by decide)
  have horder : tangledGraph.HashOrder [0, 1] := tangledGraph.hashOrder_nodeIds (by decide)
  obtain rfl : found = true := hcycle.mpr hself
  exact ⟨hfound, (hengine tangledId tangledGraph [0, 1] hsame horder).mp rfl⟩

end Pipeline

end Xerv.Editor
