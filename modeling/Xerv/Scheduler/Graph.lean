import Xerv.Core.Types
import Xerv.Lib.Kahn

/-!
# Flow graphs (`xerv-executor/src/scheduler/graph.rs`)

A `FlowGraph` keeps its edges in a vector with two indexes by node. The
invariant of the indexes is part of the type, so that `incoming_edges` and
`outgoing_edges` are the edges into and out of a node. `HashMap` iteration order
is not fixed: where `topological_sort` iterates over its in-degree table, the
order of the keys is a parameter (`HashOrder`). `reachable_nodes` only feeds a
warning of `validate` and is left out.
-/

namespace Xerv
open Xerv.Lib

structure Edge where
  fromNode : NodeId
  fromPort : String
  toNode : NodeId
  toPort : String
  deriving DecidableEq, Repr

structure GraphNode where
  id : NodeId
  nodeType : String
  isLoopController : Bool
  isMerge : Bool
  isTrigger : Bool
  deriving DecidableEq, Repr

def GraphNode.new (id : NodeId) (nodeType : String) : GraphNode where
  id := id
  nodeType := nodeType
  isLoopController := nodeType = "std::loop"
  isMerge := nodeType = "std::merge"
  isTrigger := "trigger::".toList.isPrefixOf nodeType.toList

def edgeIndices (edges : List Edge) (p : Edge → Bool) : List ℕ :=
  (List.range edges.length).filter fun i => (edges[i]?).any p

structure FlowGraph where
  nodes : List GraphNode
  edges : List Edge
  outgoing : Table NodeId (List ℕ)
  incoming : Table NodeId (List ℕ)
  entryPoints : List NodeId
  loopBackEdges : Keys (NodeId × NodeId)
  distinct : (nodes.map GraphNode.id).Nodup
  outgoing_eq : ∀ n, (outgoing n).getD [] = edgeIndices edges fun e => e.fromNode = n
  incoming_eq : ∀ n, (incoming n).getD [] = edgeIndices edges fun e => e.toNode = n

theorem edgeIndices_append (edges : List Edge) (e : Edge) (p : Edge → Bool) :
    edgeIndices (edges ++ [e]) p = edgeIndices edges p ++ if p e then [edges.length] else [] := by
  unfold edgeIndices
  have hold : (List.range edges.length).filter (fun i => ((edges ++ [e])[i]?).any p) =
      (List.range edges.length).filter fun i => (edges[i]?).any p := by
    refine List.filter_congr fun i hi => ?_
    rw [List.getElem?_append_left (List.mem_range.mp hi)]
  rw [List.length_append, List.length_singleton, List.range_succ, List.filter_append, hold]
  congr 1
  by_cases hp : p e = true
  · simp [hp]
  · simp [hp]

namespace FlowGraph

def new : FlowGraph where
  nodes := []
  edges := []
  outgoing := Table.empty
  incoming := Table.empty
  entryPoints := []
  loopBackEdges := Keys.empty
  distinct := List.nodup_nil
  outgoing_eq _ := rfl
  incoming_eq _ := rfl

/-- `entry(id).or_default()`. -/
def orDefault (t : Table NodeId (List ℕ)) (id : NodeId) : Table NodeId (List ℕ) :=
  t.insert id ((t id).getD [])

theorem orDefault_getD (t : Table NodeId (List ℕ)) (id n : NodeId) :
    (orDefault t id n).getD [] = (t n).getD [] := by
  unfold orDefault
  by_cases h : n = id
  · subst h
    simp
  · simp [h]

def addNode (g : FlowGraph) (node : GraphNode) : FlowGraph where
  nodes := g.nodes.filter (fun m => m.id ≠ node.id) ++ [node]
  edges := g.edges
  outgoing := orDefault g.outgoing node.id
  incoming := orDefault g.incoming node.id
  entryPoints := if node.isTrigger then g.entryPoints ++ [node.id] else g.entryPoints
  loopBackEdges := g.loopBackEdges
  distinct := by
    rw [List.map_append, List.nodup_append]
    refine ⟨g.distinct.sublist (List.filter_sublist.map _), List.nodup_singleton _, ?_⟩
    intro a ha b hb hab
    obtain ⟨m, hm, rfl⟩ := List.mem_map.mp ha
    have hne := (List.mem_filter.mp hm).2
    simp only [List.map_cons, List.map_nil, List.mem_singleton] at hb
    simp [hab, hb] at hne
  outgoing_eq n := by rw [orDefault_getD, g.outgoing_eq]
  incoming_eq n := by rw [orDefault_getD, g.incoming_eq]

/-- `entry(id).or_default().push(idx)`. -/
def pushIndex (t : Table NodeId (List ℕ)) (id : NodeId) (idx : ℕ) : Table NodeId (List ℕ) :=
  t.insert id ((t id).getD [] ++ [idx])

theorem pushIndex_getD (t : Table NodeId (List ℕ)) (id n : NodeId) (idx : ℕ) :
    (pushIndex t id idx n).getD [] = (t n).getD [] ++ if id = n then [idx] else [] := t.push_getD id n idx

def addEdge (g : FlowGraph) (edge : Edge) : FlowGraph where
  nodes := g.nodes
  edges := g.edges ++ [edge]
  outgoing := pushIndex g.outgoing edge.fromNode g.edges.length
  incoming := pushIndex g.incoming edge.toNode g.edges.length
  entryPoints := g.entryPoints
  loopBackEdges := g.loopBackEdges
  distinct := g.distinct
  outgoing_eq n := by
    rw [pushIndex_getD, g.outgoing_eq, edgeIndices_append]
    simp
  incoming_eq n := by
    rw [pushIndex_getD, g.incoming_eq, edgeIndices_append]
    simp

def declareLoopEdge (g : FlowGraph) (a b : NodeId) : FlowGraph :=
  { g with loopBackEdges := g.loopBackEdges.insert (a, b) }

def setEntryPoint (g : FlowGraph) (id : NodeId) : FlowGraph :=
  { g with entryPoints := if g.entryPoints.contains id then g.entryPoints else g.entryPoints ++ [id] }

def nodeIds (g : FlowGraph) : List NodeId := g.nodes.map GraphNode.id

def outgoingEdges (g : FlowGraph) (n : NodeId) : List Edge :=
  ((g.outgoing n).getD []).filterMap fun i => g.edges[i]?

def incomingEdges (g : FlowGraph) (n : NodeId) : List Edge :=
  ((g.incoming n).getD []).filterMap fun i => g.edges[i]?

def isLoopBackEdge (g : FlowGraph) (a b : NodeId) : Bool := g.loopBackEdges (a, b)

def isForward (g : FlowGraph) (e : Edge) : Bool := !g.isLoopBackEdge e.fromNode e.toNode

def predecessors (g : FlowGraph) (n : NodeId) : List NodeId :=
  ((g.incomingEdges n).filter g.isForward).map Edge.fromNode

/-! ### Sorting and validation -/

def inDegrees (g : FlowGraph) : Table NodeId ℕ :=
  g.edges.foldl (fun t e => if g.isForward e then countIn t e.toNode else t)
    (g.nodeIds.foldl (fun t n => t.insert n 0) Table.empty)

/-- An order in which the in-degree table may be iterated: every key once. -/
structure HashOrder (g : FlowGraph) (order : List NodeId) : Prop where
  nodup : order.Nodup
  mem : ∀ n, n ∈ order ↔ (g.inDegrees n).isSome = true

/-- The `while` loop of `topological_sort`. -/
def sortLoop (g : FlowGraph) : ℕ → Table NodeId ℕ → List NodeId → List NodeId → List NodeId
  | 0, _, _, sorted => sorted
  | _ + 1, _, [], sorted => sorted
  | fuel + 1, deg, n :: queue, sorted =>
    let s := (g.outgoingEdges n).foldl
      (fun s e => if g.isForward e then relax s e.toNode else s) (deg, queue)
    sortLoop g fuel s.1 s.2 (sorted ++ [n])

/-- `FlowGraph::topological_sort`, the in-degree table being iterated in the order `order`. -/
def topologicalSort (g : FlowGraph) (order : List NodeId) : Except XervError (List NodeId) :=
  let queue := order.filter fun n => g.inDegrees n = some 0
  let sorted := g.sortLoop order.length g.inDegrees queue []
  if sorted.length ≠ g.nodes.length then
    .error (.uncontrolledCycle (g.nodeIds.filter fun n => !sorted.contains n))
  else .ok sorted

def checkEdges (g : FlowGraph) : List Edge → Except XervError Unit
  | [] => .ok ()
  | e :: es =>
    if !g.nodeIds.contains e.fromNode || !g.nodeIds.contains e.toNode then
      .error (.invalidEdge e.fromNode e.fromPort e.toNode e.toPort)
    else checkEdges g es

def validate (g : FlowGraph) (order : List NodeId) : Except XervError Unit :=
  match g.topologicalSort order with
  | .error e => .error e
  | .ok _ => g.checkEdges g.edges

/-! ### Edges by node -/

theorem filterMap_edgeIndices (edges : List Edge) (p : Edge → Bool) :
    (edgeIndices edges p).filterMap (fun i => edges[i]?) = edges.filter p := by
  induction edges using List.reverseRecOn with
  | nil => rfl
  | append_singleton edges e ih =>
    have hold : (edgeIndices edges p).filterMap (fun i => (edges ++ [e])[i]?) =
        (edgeIndices edges p).filterMap fun i => edges[i]? := by
      refine List.filterMap_congr fun i hi => ?_
      have hlt := List.mem_range.mp (List.mem_filter.mp hi).1
      rw [List.getElem?_append_left hlt]
    rw [edgeIndices_append, List.filterMap_append, hold, ih, List.filter_append]
    congr 1
    by_cases hp : p e = true
    · simp [hp]
    · simp [hp]

theorem outgoingEdges_eq (g : FlowGraph) (n : NodeId) :
    g.outgoingEdges n = g.edges.filter fun e => e.fromNode = n := by
  unfold outgoingEdges
  rw [g.outgoing_eq, filterMap_edgeIndices]

theorem incomingEdges_eq (g : FlowGraph) (n : NodeId) :
    g.incomingEdges n = g.edges.filter fun e => e.toNode = n := by
  unfold incomingEdges
  rw [g.incoming_eq, filterMap_edgeIndices]

theorem mem_incomingEdges (g : FlowGraph) (n : NodeId) (e : Edge) :
    e ∈ g.incomingEdges n ↔ e ∈ g.edges ∧ e.toNode = n := by
  rw [incomingEdges_eq, List.mem_filter]
  simp

theorem mem_predecessors (g : FlowGraph) (n m : NodeId) :
    m ∈ g.predecessors n ↔
      ∃ e ∈ g.edges, e.toNode = n ∧ e.fromNode = m ∧ g.isForward e = true := by
  unfold predecessors
  rw [List.mem_map]
  constructor
  · intro h
    obtain ⟨e, he, hm⟩ := h
    obtain ⟨hin, hforward⟩ := List.mem_filter.mp he
    obtain ⟨hedge, hto⟩ := (g.mem_incomingEdges n e).mp hin
    exact ⟨e, hedge, hto, hm, hforward⟩
  · intro h
    obtain ⟨e, hedge, hto, hm, hforward⟩ := h
    exact ⟨e, List.mem_filter.mpr ⟨(g.mem_incomingEdges n e).mpr ⟨hedge, hto⟩, hforward⟩, hm⟩

/-! ### `topological_sort` is Kahn's algorithm on the forward edges -/

def forwardPairs (g : FlowGraph) : List (NodeId × NodeId) :=
  (g.edges.filter g.isForward).map fun e => (e.fromNode, e.toNode)

theorem mem_forwardPairs (g : FlowGraph) (m n : NodeId) :
    (m, n) ∈ g.forwardPairs ↔ m ∈ g.predecessors n := by
  unfold forwardPairs
  rw [List.mem_map, mem_predecessors]
  constructor
  · intro h
    obtain ⟨e, he, heq⟩ := h
    obtain ⟨hedge, hforward⟩ := List.mem_filter.mp he
    obtain ⟨hm, hn⟩ := Prod.mk.inj heq
    exact ⟨e, hedge, hn, hm, hforward⟩
  · intro h
    obtain ⟨e, hedge, hn, hm, hforward⟩ := h
    exact ⟨e, List.mem_filter.mpr ⟨hedge, hforward⟩, by rw [hm, hn]⟩

theorem inDegrees_eq (g : FlowGraph) : g.inDegrees = inDegree g.nodeIds g.forwardPairs := by
  unfold inDegrees inDegree forwardPairs
  rw [List.foldl_map, List.foldl_filter]

theorem sortLoop_eq (g : FlowGraph) (fuel : ℕ) (deg : Table NodeId ℕ) (queue sorted : List NodeId) :
    g.sortLoop fuel deg queue sorted = kahnLoop g.forwardPairs fuel deg queue sorted := by
  induction fuel generalizing deg queue sorted with
  | zero => rfl
  | succ fuel ih =>
    cases queue with
    | nil => rfl
    | cons n queue =>
      have htargets : (g.outgoingEdges n).foldl
            (fun s e => if g.isForward e then relax s e.toNode else s) (deg, queue) =
          (g.forwardPairs.filter fun p => p.1 = n).foldl (fun s p => relax s p.2) (deg, queue) := by
        have hpairs : g.forwardPairs.filter (fun p => p.1 = n) =
            ((g.outgoingEdges n).filter g.isForward).map fun e => (e.fromNode, e.toNode) := by
          unfold forwardPairs
          rw [outgoingEdges_eq, List.filter_map, List.filter_filter, List.filter_filter]
          congr 1
          refine List.filter_congr fun e _ => ?_
          exact Bool.and_comm _ _
        rw [hpairs, List.foldl_map, List.foldl_filter]
      rw [sortLoop, kahnLoop, htargets]
      exact ih _ _ _

theorem checkEdges_ok (g : FlowGraph) (es : List Edge) (h : g.checkEdges es = .ok ()) :
    ∀ e ∈ es, e.fromNode ∈ g.nodeIds ∧ e.toNode ∈ g.nodeIds := by
  induction es with
  | nil => exact fun _ he => absurd he List.not_mem_nil
  | cons x es ih =>
    unfold checkEdges at h
    split at h
    · exact absurd h (by simp)
    · rename_i hx
      intro e he
      rcases List.mem_cons.mp he with heq | hrest
      · subst heq
        simpa using hx
      · exact ih h e hrest

/-- What a successful `validate` and a later `topological_sort` give. -/
structure Ordered (g : FlowGraph) (sorted : List NodeId) : Prop where
  nodup : sorted.Nodup
  mem : ∀ n, n ∈ sorted ↔ n ∈ g.nodeIds
  topological : Topological g.forwardPairs sorted
  ends : ∀ e ∈ g.edges, e.fromNode ∈ g.nodeIds ∧ e.toNode ∈ g.nodeIds

theorem Ordered.induction {g : FlowGraph} {sorted : List NodeId} (h : g.Ordered sorted)
    (p : NodeId → Prop) (hstep : ∀ n ∈ g.nodeIds, (∀ m ∈ g.predecessors n, p m) → p n) :
    ∀ n ∈ g.nodeIds, p n := by
  have hall := h.topological.induction p fun n hn hpreds =>
    hstep n ((h.mem n).mp hn) fun m hm => hpreds m ((g.mem_forwardPairs m n).mpr hm)
  exact fun n hn => hall n ((h.mem n).mpr hn)

theorem Ordered.predecessor_mem {g : FlowGraph} {sorted : List NodeId} (h : g.Ordered sorted)
    (n m : NodeId) (hm : m ∈ g.predecessors n) : m ∈ g.nodeIds ∧ n ∈ g.nodeIds := by
  obtain ⟨e, he, hto, hfrom, _⟩ := (g.mem_predecessors n m).mp hm
  obtain ⟨h₁, h₂⟩ := h.ends e he
  exact ⟨hfrom ▸ h₁, hto ▸ h₂⟩

theorem validate_ok (g : FlowGraph) (order : List NodeId) (h : g.validate order = .ok ()) :
    ∀ e ∈ g.edges, e.fromNode ∈ g.nodeIds ∧ e.toNode ∈ g.nodeIds := by
  unfold validate at h
  split at h
  · exact absurd h (by simp)
  · exact g.checkEdges_ok g.edges h

theorem forwardPairs_ends (g : FlowGraph)
    (hends : ∀ e ∈ g.edges, e.fromNode ∈ g.nodeIds ∧ e.toNode ∈ g.nodeIds) :
    ∀ p ∈ g.forwardPairs, p.2 ∈ g.nodeIds := by
  intro p hp
  obtain ⟨e, he, rfl⟩ := List.mem_map.mp hp
  exact (hends e (List.mem_filter.mp he).1).2

theorem HashOrder.start {g : FlowGraph} {order : List NodeId} (h : g.HashOrder order) (n : NodeId) :
    n ∈ order.filter (fun n => g.inDegrees n = some 0) ↔
      inDegree g.nodeIds g.forwardPairs n = some 0 := by
  rw [List.mem_filter, h.mem, inDegrees_eq, decide_eq_true_eq]
  constructor
  · exact fun hn => hn.2
  · exact fun hn => ⟨by rw [hn]; rfl, hn⟩

theorem topologicalSort_ordered (g : FlowGraph) (order sorted : List NodeId)
    (hends : ∀ e ∈ g.edges, e.fromNode ∈ g.nodeIds ∧ e.toNode ∈ g.nodeIds)
    (horder : g.HashOrder order) (h : g.topologicalSort order = .ok sorted) : g.Ordered sorted := by
  have hpairs := g.forwardPairs_ends hends
  obtain ⟨hnodup, hsub, htop⟩ := kahn_spec hpairs _ (horder.nodup.filter _) horder.start
    order.length
  unfold topologicalSort at h
  dsimp only at h
  rw [sortLoop_eq, inDegrees_eq] at h
  split at h
  · exact absurd h (by simp)
  · rename_i hlen
    have heq : _ = sorted := Except.ok.inj h
    simp only [inDegrees_eq] at hnodup hsub htop
    rw [heq] at hnodup hsub htop hlen
    have hperm : sorted.Perm g.nodeIds := by
      refine (List.subperm_of_subset hnodup hsub).perm_of_length_le ?_
      rw [nodeIds, List.length_map]
      omega
    exact ⟨hnodup, fun n => hperm.mem_iff, htop, hends⟩

theorem hashOrder_nodeIds (g : FlowGraph)
    (hends : ∀ e ∈ g.edges, e.fromNode ∈ g.nodeIds ∧ e.toNode ∈ g.nodeIds) :
    g.HashOrder g.nodeIds := by
  refine ⟨g.distinct, fun n => ?_⟩
  rw [inDegrees_eq, inDegree_apply _ _ (g.forwardPairs_ends hends)]
  by_cases hn : n ∈ g.nodeIds
  · simp [hn]
  · simp [hn]

theorem HashOrder.sorting {g : FlowGraph} {order : List NodeId} (h : g.HashOrder order) :
    (∀ p ∈ g.forwardPairs, p.2 ∈ order) ∧
      Sorting order g.forwardPairs [] g.inDegrees (order.filter fun n => g.inDegrees n = some 0) [] := by
  have htable : inDegree order g.forwardPairs = g.inDegrees := by
    rw [inDegrees_eq]
    exact inDegree_keys _ _ _ fun n => by rw [h.mem, inDegrees_eq]
  have hpairs : ∀ p ∈ g.forwardPairs, p.2 ∈ order := by
    intro p hp
    rw [h.mem, inDegrees_eq, inDegree_count, if_pos (.inr (List.mem_map_of_mem hp))]
    rfl
  have hstart := sorting_start hpairs _ (h.nodup.filter fun n => g.inDegrees n = some 0) <| by
    intro n
    rw [List.mem_filter, h.mem, htable, decide_eq_true_eq]
    exact ⟨And.right, fun hn => ⟨by rw [hn]; rfl, hn⟩⟩
  rw [htable] at hstart
  exact ⟨hpairs, hstart⟩

theorem sortLoop_fuel (g : FlowGraph) (order : List NodeId) (more : ℕ) (horder : g.HashOrder order) :
    g.sortLoop (order.length + more) g.inDegrees (order.filter fun n => g.inDegrees n = some 0) [] =
      g.sortLoop order.length g.inDegrees (order.filter fun n => g.inDegrees n = some 0) [] := by
  obtain ⟨hpairs, hstart⟩ := horder.sorting
  rw [sortLoop_eq, sortLoop_eq]
  exact kahnLoop_fuel hpairs order.length more _ _ _ hstart (Nat.le_add_right _ _)

theorem nodeIds_le_order (g : FlowGraph) (order : List NodeId) (horder : g.HashOrder order) :
    g.nodeIds.length ≤ order.length := by
  refine (List.subperm_of_subset g.distinct fun n hn => ?_).length_le
  have hn' : n ∈ g.nodeIds := hn
  rw [horder.mem, inDegrees_eq, inDegree_count, if_pos (.inl hn')]
  rfl

theorem topologicalSort_complete (g : FlowGraph) (order : List NodeId)
    (hends : ∀ e ∈ g.edges, e.fromNode ∈ g.nodeIds ∧ e.toNode ∈ g.nodeIds) (hacyclic : Acyclic g.forwardPairs)
    (horder : g.HashOrder order) : ∃ sorted, g.topologicalSort order = .ok sorted := by
  have hpairs : ∀ p ∈ g.forwardPairs, p.1 ∈ g.nodeIds ∧ p.2 ∈ g.nodeIds := by
    intro p hp
    obtain ⟨e, he, rfl⟩ := List.mem_map.mp hp
    exact hends e (List.mem_filter.mp he).1
  have htargets : ∀ p ∈ g.forwardPairs, p.2 ∈ g.nodeIds := fun p hp => (hpairs p hp).2
  have hnodup := horder.nodup.filter fun n => g.inDegrees n = some 0
  have hall := kahn_complete hpairs hacyclic _ hnodup horder.start order.length (g.nodeIds_le_order order horder)
  obtain ⟨hdistinct, hsub, -⟩ := kahn_spec htargets _ hnodup horder.start order.length
  have hperm := (List.perm_ext_iff_of_nodup hdistinct g.distinct).mpr fun n => ⟨hsub n, hall n⟩
  refine ⟨_, if_neg (not_not.mpr ?_)⟩
  have hnodes : g.nodeIds.length = g.nodes.length := List.length_map _
  rw [sortLoop_eq]
  exact inDegrees_eq g ▸ hperm.length_eq.trans hnodes

theorem checkEdges_complete (g : FlowGraph) (es : List Edge)
    (h : ∀ e ∈ es, e.fromNode ∈ g.nodeIds ∧ e.toNode ∈ g.nodeIds) : g.checkEdges es = .ok () := by
  induction es with
  | nil => rfl
  | cons e es ih =>
    obtain ⟨hfrom, hto⟩ := h e List.mem_cons_self
    unfold checkEdges
    rw [if_neg (by simp [hfrom, hto])]
    exact ih fun e he => h e (List.mem_cons_of_mem _ he)

theorem validate_ok_iff (g : FlowGraph) (order : List NodeId) (horder : g.HashOrder order) :
    g.validate order = .ok () ↔
      (∀ e ∈ g.edges, e.fromNode ∈ g.nodeIds ∧ e.toNode ∈ g.nodeIds) ∧ Acyclic g.forwardPairs := by
  constructor
  · intro h
    have hends := g.validate_ok order h
    refine ⟨hends, ?_⟩
    unfold validate at h
    cases hsort : g.topologicalSort order with
    | error e =>
      rw [hsort] at h
      cases h
    | ok sorted =>
      have hordered := g.topologicalSort_ordered order sorted hends horder hsort
      exact hordered.topological.acyclic fun p hp => (hordered.mem p.2).mpr (g.forwardPairs_ends hends p hp)
  · rintro ⟨hends, hacyclic⟩
    obtain ⟨sorted, hsort⟩ := g.topologicalSort_complete order hends hacyclic horder
    unfold validate
    rw [hsort]
    exact g.checkEdges_complete g.edges hends

/-- Where all edges have known ends, the one error left is a cycle. -/
theorem validate_cycle_iff (g : FlowGraph) (order : List NodeId) (horder : g.HashOrder order)
    (hends : ∀ e ∈ g.edges, e.fromNode ∈ g.nodeIds ∧ e.toNode ∈ g.nodeIds) :
    (∃ nodes, g.validate order = .error (.uncontrolledCycle nodes)) ↔ ¬ Acyclic g.forwardPairs := by
  constructor
  · rintro ⟨nodes, herror⟩ hacyclic
    rw [(g.validate_ok_iff order horder).mpr ⟨hends, hacyclic⟩] at herror
    cases herror
  · intro hcycle
    have hrefused : g.validate order ≠ .ok () := fun hok => hcycle ((g.validate_ok_iff order horder).mp hok).2
    unfold validate topologicalSort at hrefused ⊢
    dsimp only at hrefused ⊢
    split_ifs at hrefused ⊢ with hlen
    · exact ⟨_, rfl⟩
    · exact absurd (g.checkEdges_complete g.edges hends) hrefused

/-- For every graph and every order of its in-degree table: `validate` accepts it if and only if its edges have
known ends and its forward edges make no cycle; and then every later sort succeeds, with every node once and
the source of every forward edge before its target. -/
theorem validation_exact (g : FlowGraph) (order : List NodeId) (horder : g.HashOrder order) :
    (g.validate order = .ok () ↔
      (∀ e ∈ g.edges, e.fromNode ∈ g.nodeIds ∧ e.toNode ∈ g.nodeIds) ∧ Acyclic g.forwardPairs) ∧
      (g.validate order = .ok () →
        ∀ order', g.HashOrder order' → ∃ sorted, g.topologicalSort order' = .ok sorted ∧ g.Ordered sorted) := by
  refine ⟨g.validate_ok_iff order horder, fun h order' horder' => ?_⟩
  obtain ⟨hends, hacyclic⟩ := (g.validate_ok_iff order horder).mp h
  obtain ⟨sorted, hsort⟩ := g.topologicalSort_complete order' hends hacyclic horder'
  exact ⟨sorted, hsort, g.topologicalSort_ordered order' sorted hends horder' hsort⟩

def pairGraph : FlowGraph :=
  ((((new.addNode (.new 0 "trigger::webhook")).addNode (.new 1 "std::loop")).addEdge
    ⟨0, "out", 1, "in"⟩).addEdge ⟨1, "continue", 0, "in"⟩).declareLoopEdge 1 0

theorem validation_pair :
    (pairGraph.validate [0, 1] = .ok () ↔
      (∀ e ∈ pairGraph.edges, e.fromNode ∈ pairGraph.nodeIds ∧ e.toNode ∈ pairGraph.nodeIds) ∧
        Acyclic pairGraph.forwardPairs) ∧
      ∃ sorted, pairGraph.topologicalSort [0, 1] = .ok sorted ∧ pairGraph.Ordered sorted := by
  have horder : pairGraph.HashOrder [0, 1] := pairGraph.hashOrder_nodeIds (by decide +kernel)
  have hexact := pairGraph.validation_exact [0, 1] horder
  exact ⟨hexact.1, hexact.2 (by decide) [0, 1] horder⟩

end FlowGraph

end Xerv
