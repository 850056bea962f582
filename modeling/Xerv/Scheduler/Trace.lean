import Xerv.Scheduler.Graph

/-!
# Trace state (`xerv-executor/src/trace/mod.rs`)

The state of a running trace. Loop state is not used by the scheduler and is left
out; the arena is kept beside the trace state by the executor.
-/

namespace Xerv
open Xerv.Lib

structure TraceState where
  traceId : TraceId
  triggerId : String
  initialInput : RelPtr
  outputs : Table NodeId NodeOutput
  completed : Keys NodeId
  executing : Keys NodeId

namespace TraceState

def new (traceId : TraceId) (triggerId : String) (initialInput : RelPtr) : TraceState :=
  ⟨traceId, triggerId, initialInput, Table.empty, Keys.empty, Keys.empty⟩

def fromRecovery (traceId : TraceId) (triggerId : String) (initialInput : RelPtr)
    (completedNodes : Table NodeId NodeOutput) : TraceState :=
  ⟨traceId, triggerId, initialInput, completedNodes, completedNodes.keys, Keys.empty⟩

def carries (st : TraceState) (e : Edge) : Bool :=
  (st.outputs e.fromNode).any fun output => output.matchesPort e.fromPort

def hasPendingInput (st : TraceState) (n : NodeId) (g : FlowGraph) : Bool :=
  (g.incomingEdges n).any st.carries

def isNodeReady (st : TraceState) (n : NodeId) (g : FlowGraph) : Bool :=
  if g.entryPoints.contains n then !st.completed n && !st.executing n
  else
    st.hasPendingInput n g && (g.predecessors n).all (fun p => st.completed p) &&
      !st.completed n && !st.executing n

/-- One round of the loop of `collect_inputs`. -/
def collectEdge (st : TraceState) (inputs : Table String RelPtr) (e : Edge) : Table String RelPtr :=
  match st.outputs e.fromNode with
  | none => inputs
  | some output => if output.matchesPort e.fromPort then inputs.insert e.toPort output.data else inputs

def collectInputs (st : TraceState) (n : NodeId) (g : FlowGraph) : Table String RelPtr :=
  if g.entryPoints.contains n then Table.empty.insert "in" st.initialInput
  else (g.incomingEdges n).foldl st.collectEdge Table.empty

def recordOutput (st : TraceState) (n : NodeId) (output : NodeOutput) : TraceState :=
  { st with
    executing := st.executing.remove n
    completed := st.completed.insert n
    outputs := st.outputs.insert n output }

def markExecuting (st : TraceState) (n : NodeId) : TraceState :=
  { st with executing := st.executing.insert n }

/-! ### What readiness says -/

theorem isNodeReady_entry (st : TraceState) (n : NodeId) (g : FlowGraph) (h : n ∈ g.entryPoints) :
    st.isNodeReady n g = true ↔ st.completed n = false ∧ st.executing n = false := by
  have hc : g.entryPoints.contains n = true := by simpa using h
  unfold isNodeReady
  rw [if_pos hc]
  simp

theorem isNodeReady_inner (st : TraceState) (n : NodeId) (g : FlowGraph) (h : n ∉ g.entryPoints) :
    st.isNodeReady n g = true ↔
      (∃ e ∈ g.incomingEdges n, st.carries e = true) ∧
        (∀ p ∈ g.predecessors n, st.completed p = true) ∧
          st.completed n = false ∧ st.executing n = false := by
  have hc : ¬ g.entryPoints.contains n = true := by simpa using h
  unfold isNodeReady hasPendingInput
  rw [if_neg hc]
  simp only [Bool.and_eq_true, List.any_eq_true, List.all_eq_true, Bool.not_eq_true', and_assoc]

theorem isNodeReady_idle (st : TraceState) (n : NodeId) (g : FlowGraph)
    (h : st.isNodeReady n g = true) : st.completed n = false ∧ st.executing n = false := by
  by_cases hn : n ∈ g.entryPoints
  · exact (st.isNodeReady_entry n g hn).mp h
  · exact ((st.isNodeReady_inner n g hn).mp h).2.2

end TraceState

end Xerv
