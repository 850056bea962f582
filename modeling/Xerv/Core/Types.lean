import Xerv.Core.Json
import Xerv.Lib.LittleEndian
import Xerv.Lib.Numeral

/-!
# Identifiers, arena pointers and node outputs

Data model shared by the WAL, the scheduler and the recovery code:
`xerv-core/src/types/ids.rs`, `xerv-core/src/types/pointer.rs`,
`xerv-core/src/traits/node.rs` and the error variants of
`xerv-core/src/error.rs` that the modelled functions return.
-/

namespace Xerv
open Xerv.Lib

/-- `TraceId`: the sixteen bytes of a UUID. -/
structure TraceId where
  bytes : Bytes
  size : bytes.length = 16
  deriving DecidableEq

def sampleTrace : TraceId := ⟨List.replicate 16 7, rfl⟩

def otherTrace : TraceId := ⟨List.replicate 16 8, rfl⟩

/-- `NodeId(u32)`. -/
abbrev NodeId := UInt32

/-- `ArenaOffset(u64)`. -/
abbrev ArenaOffset := UInt64

/-- `RelPtr<()>`: offset and size of a region of the arena. -/
structure RelPtr where
  offset : ArenaOffset
  size : UInt32
  deriving DecidableEq, Repr

/-- `RelPtr::null()`. -/
def RelPtr.null : RelPtr := ⟨0, 0⟩

inductive TimeoutAction where
  | approve | reject | escalate
  deriving DecidableEq, Repr

structure SuspensionRequest where
  hookId : String
  timeoutSecs : Option UInt64
  timeoutAction : TimeoutAction
  metadata : Json
  deriving DecidableEq, Repr

inductive NodeOutput where
  | complete (port : String) (data : RelPtr) (schemaHash : UInt64)
  | error (message : String) (data : Option RelPtr)
  | suspend (request : SuspensionRequest) (pendingData : RelPtr)
  deriving DecidableEq, Repr

namespace NodeOutput

def isSuspended : NodeOutput → Bool
  | suspend .. => true
  | _ => false

/-- `NodeOutput::port`: the port of a `Complete`, "error" for an `Error`. -/
def port : NodeOutput → Option String
  | complete p _ _ => some p
  | error .. => some "error"
  | suspend .. => none

def matchesPort (o : NodeOutput) (expected : String) : Bool := o.port == some expected

def data : NodeOutput → RelPtr
  | complete _ d _ => d
  | error _ (some p) => p
  | error _ none => RelPtr.null
  | suspend _ p => p

def schemaHash : NodeOutput → UInt64
  | complete _ _ h => h
  | _ => 0

end NodeOutput

/-! ### Texts -/

def hexText (bytes : Bytes) : List Char := bytes.flatMap fun b => padded 16 2 b.toNat

/-- `as_uuid`, displayed with hyphens. -/
def TraceId.uuid (t : TraceId) : List Char :=
  let part (first count : ℕ) := hexText ((t.bytes.drop first).take count)
  part 0 4 ++ ['-'] ++ part 4 2 ++ ['-'] ++ part 6 2 ++ ['-'] ++ part 8 2 ++ ['-'] ++ part 10 6

/-- `Display for TraceId`. -/
def TraceId.text (t : TraceId) : String := String.ofList ("trace_".toList ++ t.uuid)

/-- `Display for NodeId`. -/
def nodeText (n : NodeId) : String := String.ofList ("node_".toList ++ padded 10 1 n.toNat)

/-- The variants of `XervError` returned by the modelled functions. -/
inductive XervError where
  | nodeExecution (nodeId : NodeId) (traceId : TraceId) (cause : String)
  | nodeTimeout (nodeId : NodeId) (traceId : TraceId) (timeoutMs : UInt64)
  | nodePanic (nodeId : NodeId) (traceId : TraceId) (message : String)
  | nodeNotFound (nodeName : String)
  | uncontrolledCycle (nodes : List NodeId)
  | invalidEdge (fromNode : NodeId) (fromPort : String) (toNode : NodeId) (toPort : String)
  | configValue (field cause : String)
  | walWrite (traceId : TraceId) (cause : String)
  | walRead (cause : String)
  | walCorruption (position : ℕ) (cause : String)
  | hookNotFound (hookId : String)
  | suspensionFailed (traceId : TraceId) (cause : String)
  | arenaCreate (path : String) (cause : String)
  | arenaWrite (cause : String)
  | serialization (message : String)
  | compactionFailed (cause : String)
  | pipelineNotFound (pipelineId : String)
  | pipelineExists (pipelineId : String)
  | concurrencyLimit (pipelineId : String) (current max : UInt32)
  -- the error rate is the quotient of the two counts, 0 where nothing was started
  | circuitBreakerOpen (pipelineId : String) (failed started : UInt64)
  deriving DecidableEq

end Xerv
