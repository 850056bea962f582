import Xerv.Scheduler.Graph

/-!
# From flow definitions to graphs (`xerv-executor/src/loader/builder.rs`)

`FlowBuilder` gives every enabled trigger and node a number, adds them to the graph
and then adds the edges, whose ends are written "node" or "node.port"
(`xerv-core/src/flow/edge.rs`). The nodes of a definition are a hash map; the list of
its entries stands for the order in which it is iterated. `char::is_alphanumeric` reads
the Unicode tables and is a parameter. Conditions, descriptions, settings and the
configuration of nodes and triggers are not read by the builder.
-/

namespace Xerv
open Xerv.Lib

structure TriggerDefinition where
  id : String
  triggerType : String
  enabled : Bool

structure NodeDefinition where
  nodeType : String
  enabled : Bool

structure EdgeDefinition where
  source : String
  target : String
  loopBack : Bool

structure FlowDefinition where
  triggers : List TriggerDefinition
  nodes : List (String × NodeDefinition)
  edges : List EdgeDefinition
  distinctNodes : (nodes.map Prod.fst).Nodup

/-! ### Ends of edges -/

/-- `rfind('.')`, with the texts before and after the dot. -/
def splitLastDot (s : List Char) : Option (List Char × List Char) :=
  match s.reverse.dropWhile (· ≠ '.') with
  | [] => none
  | _ :: front => some (front.reverse, (s.reverse.takeWhile (· ≠ '.')).reverse)

section
variable (isAlphanumeric : Char → Bool)

/-- The test of `parse_node_port` on the text after the dot; its length is counted in bytes. -/
def looksLikePort (afterDot : List Char) : Bool :=
  !afterDot.isEmpty && !afterDot.contains '$' && !afterDot.contains '\x7b' &&
    (afterDot.map Char.utf8Size).sum < 20 && afterDot.all fun c => isAlphanumeric c || c = '_'

def parseNodePort (s defaultPort : String) : String × String :=
  match splitLastDot s.toList with
  | some (node, port) =>
    if looksLikePort isAlphanumeric port then (String.ofList node, String.ofList port)
    else (s, defaultPort)
  | none => (s, defaultPort)

def EdgeDefinition.parseFrom (e : EdgeDefinition) : String × String :=
  parseNodePort isAlphanumeric e.source "out"

def EdgeDefinition.parseTo (e : EdgeDefinition) : String × String :=
  parseNodePort isAlphanumeric e.target "in"

end

theorem splitLastDot_append (node port : List Char) (h : '.' ∉ port) :
    splitLastDot (node ++ '.' :: port) = some (node, port) := by
  have hport : ∀ c ∈ port.reverse, decide (c ≠ '.') = true := by
    intro c hc
    have hne : c ≠ '.' := fun heq => h (heq ▸ List.mem_reverse.mp hc)
    simpa using hne
  unfold splitLastDot
  rw [List.reverse_append, List.reverse_cons, List.append_assoc, List.dropWhile_append_of_pos hport,
    List.takeWhile_append_of_pos hport]
  simp

theorem looksLikePort_noDot (isAlphanumeric : Char → Bool) (hdot : isAlphanumeric '.' = false)
    (port : List Char) (h : looksLikePort isAlphanumeric port = true) : '.' ∉ port := by
  intro hmem
  unfold looksLikePort at h
  rw [Bool.and_eq_true, List.all_eq_true] at h
  have hc := h.2 '.' hmem
  rw [hdot] at hc
  exact absurd hc (by decide)

/-! ### The builder -/

structure FlowBuilder where
  nodeIds : Table String NodeId
  nextId : UInt32
  graph : FlowGraph

namespace FlowBuilder

def new : FlowBuilder := ⟨Table.empty, 0, FlowGraph.new⟩

def allocateId (b : FlowBuilder) (name : String) : FlowBuilder :=
  { b with nextId := b.nextId + 1, nodeIds := b.nodeIds.insert name b.nextId }

def registerIds (b : FlowBuilder) (flow : FlowDefinition) : FlowBuilder :=
  let b := flow.triggers.foldl (fun b t => if t.enabled then b.allocateId t.id else b) b
  flow.nodes.foldl (fun b n => if n.2.enabled then b.allocateId n.1 else b) b

def addTriggers (b : FlowBuilder) : List TriggerDefinition → Except XervError FlowBuilder
  | [] => .ok b
  | t :: ts =>
    if t.enabled then
      match b.nodeIds t.id with
      | none => .error (.configValue ("triggers." ++ t.id) "trigger ID not registered")
      | some id =>
        addTriggers { b with graph := b.graph.addNode (.new id ("trigger::" ++ t.triggerType)) } ts
    else addTriggers b ts

def addNodes (b : FlowBuilder) : List (String × NodeDefinition) → Except XervError FlowBuilder
  | [] => .ok b
  | (name, node) :: ns =>
    if node.enabled then
      match b.nodeIds name with
      | none => .error (.configValue ("nodes." ++ name) "node ID not registered")
      | some id => addNodes { b with graph := b.graph.addNode (.new id node.nodeType) } ns
    else addNodes b ns

def addEdges (isAlphanumeric : Char → Bool) (b : FlowBuilder) :
    List EdgeDefinition → Except XervError FlowBuilder
  | [] => .ok b
  | e :: es =>
    let (fromName, fromPort) := e.parseFrom isAlphanumeric
    let (toName, toPort) := e.parseTo isAlphanumeric
    match b.nodeIds fromName with
    | none => .error (.invalidEdge 0 fromPort 0 toPort)
    | some fromId =>
      match b.nodeIds toName with
      | none => .error (.invalidEdge fromId fromPort 0 toPort)
      | some toId =>
        let graph := b.graph.addEdge ⟨fromId, fromPort, toId, toPort⟩
        let graph := if e.loopBack then graph.declareLoopEdge fromId toId else graph
        addEdges isAlphanumeric { b with graph := graph } es

/-- `FlowBuilder::build`; `order` is the iteration order of the hash map of `validate`. -/
def build (isAlphanumeric : Char → Bool) (flow : FlowDefinition) (order : List NodeId) :
    Except XervError FlowGraph := do
  let b ← (new.registerIds flow).addTriggers flow.triggers
  let b ← b.addNodes flow.nodes
  let b ← b.addEdges isAlphanumeric flow.edges
  b.graph.validate order
  return b.graph

/-! ### What is built -/

theorem registerIds_graph (b : FlowBuilder) (flow : FlowDefinition) :
    (b.registerIds flow).graph = b.graph := by
  have hfold {α : Type} (name : α → String) (enabled : α → Bool) (b : FlowBuilder) (xs : List α) :
      (xs.foldl (fun b x => if enabled x then b.allocateId (name x) else b) b).graph = b.graph := by
    induction xs generalizing b with
    | nil => rfl
    | cons x xs ih =>
      rw [List.foldl_cons, ih]
      split
      · rfl
      · rfl
  exact (hfold Prod.fst (fun n => n.2.enabled) _ flow.nodes).trans
    (hfold TriggerDefinition.id TriggerDefinition.enabled b flow.triggers)

theorem bind_ok {α β : Type} {x : Except XervError α} {f : α → Except XervError β} {b : β}
    (h : (x >>= f) = .ok b) : ∃ a, x = .ok a ∧ f a = .ok b := by
  cases x with
  | error e => cases h
  | ok a => exact ⟨a, rfl, h⟩

end FlowBuilder

end Xerv
