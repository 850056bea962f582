import Xerv.Core.Types
import Xerv.Lib.FiniteMap
import Xerv.Raft.Segment

/-!
# The replicated cluster state (`xerv-cluster/src/command.rs`, `state/machine/{types,state,apply}.rs`)

`apply_command` and its handlers. A command carries the fields that its handler reads; the
membership type of `openraft` is a parameter that no handler looks at. Counters are `u64`
and wrap, as in a release build.
-/

namespace Xerv.Cluster
open Xerv.Lib

structure PipelineId where
  name : String
  version : UInt32
  deriving DecidableEq, Repr

/-- `Display for PipelineId`. -/
def PipelineId.text (p : PipelineId) : String :=
  p.name ++ "@v" ++ String.ofList (padded 10 1 p.version.toNat)

inductive PipelineState where
  | initializing | running | paused | draining | stopped | error
  deriving DecidableEq, Repr

inductive TraceStatus where
  | running | suspended | completed | failed
  deriving DecidableEq, Repr

structure TraceStateInfo where
  pipelineId : PipelineId
  status : TraceStatus
  completedNodes : List NodeId
  currentNode : Option NodeId
  startedAtMs : UInt64
  completedAtMs : Option UInt64
  error : Option String
  deriving DecidableEq

structure PipelineStateInfo where
  state : PipelineState
  config : Bytes
  deployedAtMs : UInt64
  activeTraces : UInt64
  deriving DecidableEq

structure ClusterNodeInfo where
  clusterNodeId : UInt64
  address : String
  registeredAtMs : UInt64
  deriving DecidableEq

structure ClusterResponse where
  success : Bool
  error : Option String
  data : Option Bytes
  deriving DecidableEq

def ClusterResponse.ok : ClusterResponse := ⟨true, none, none⟩

def ClusterResponse.err (msg : String) : ClusterResponse := ⟨false, some msg, none⟩

/-- `openraft::StoredMembership`. -/
structure StoredMembership (M : Type) where
  logId : Option Raft.LogId
  membership : M
  deriving DecidableEq

structure ClusterState (M : Type) where
  traces : FiniteMap TraceId TraceStateInfo
  pipelines : FiniteMap PipelineId PipelineStateInfo
  nodes : FiniteMap UInt64 ClusterNodeInfo
  lastAppliedLog : Option Raft.LogId
  lastMembership : StoredMembership M
  deriving DecidableEq

inductive ClusterCommand where
  | startTrace (traceId : TraceId) (pipelineId : PipelineId) (startedAtMs : UInt64)
  | completeNode (traceId : TraceId) (nodeId : NodeId)
  | completeTrace (traceId : TraceId) (completedAtMs : UInt64)
  | failTrace (traceId : TraceId) (error : String) (failedAtMs : UInt64)
  | suspendTrace (traceId : TraceId) (suspendedAtNode : NodeId)
  | resumeTrace (traceId : TraceId)
  | deployPipeline (pipelineId : PipelineId) (config : Bytes) (deployedAtMs : UInt64)
  | startPipeline (pipelineId : PipelineId)
  | pausePipeline (pipelineId : PipelineId)
  | resumePipeline (pipelineId : PipelineId)
  | drainPipeline (pipelineId : PipelineId)
  | stopPipeline (pipelineId : PipelineId)
  | undeployPipeline (pipelineId : PipelineId)
  | registerNode (clusterNodeId : UInt64) (address : String) (registeredAtMs : UInt64)
  | deregisterNode (clusterNodeId : UInt64)

def traceNotFound (traceId : TraceId) : ClusterResponse := .err ("Trace " ++ traceId.text ++ " not found")

def pipelineNotFound (p : PipelineId) : ClusterResponse := .err ("Pipeline " ++ p.text ++ " not found")

namespace ClusterState
variable {M : Type} (s : ClusterState M)

/-- `ClusterState::default()`. -/
def default [Inhabited M] : ClusterState M := ⟨∅, ∅, ∅, none, ⟨none, Inhabited.default⟩⟩

def setTrace (traceId : TraceId) (info : TraceStateInfo) : ClusterState M :=
  { s with traces := s.traces.insert traceId info }

def setPipeline (p : PipelineId) (info : PipelineStateInfo) : ClusterState M :=
  { s with pipelines := s.pipelines.insert p info }

/-- "Decrement active traces on pipeline", with `saturating_sub`. -/
def decrementActive (p : PipelineId) : ClusterState M :=
  match s.pipelines.get p with
  | none => s
  | some pipeline =>
    s.setPipeline p { pipeline with
      activeTraces := if pipeline.activeTraces = 0 then 0 else pipeline.activeTraces - 1 }

def applyStartTrace (traceId : TraceId) (pipelineId : PipelineId) (startedAtMs : UInt64) :
    ClusterState M × ClusterResponse :=
  match s.pipelines.get pipelineId with
  | none => (s, pipelineNotFound pipelineId)
  | some pipeline =>
    if pipeline.state ≠ .running then (s, .err ("Pipeline " ++ pipelineId.text ++ " is not running"))
    else
      let s := s.setPipeline pipelineId { pipeline with activeTraces := pipeline.activeTraces + 1 }
      (s.setTrace traceId ⟨pipelineId, .running, [], none, startedAtMs, none, none⟩, .ok)

def applyCompleteNode (traceId : TraceId) (nodeId : NodeId) : ClusterState M × ClusterResponse :=
  match s.traces.get traceId with
  | none => (s, traceNotFound traceId)
  | some trace =>
    (s.setTrace traceId { trace with
      completedNodes := trace.completedNodes ++ [nodeId], currentNode := none }, .ok)

def applyCompleteTrace (traceId : TraceId) (completedAtMs : UInt64) :
    ClusterState M × ClusterResponse :=
  match s.traces.get traceId with
  | none => (s, traceNotFound traceId)
  | some trace =>
    let s := s.setTrace traceId { trace with status := .completed, completedAtMs := some completedAtMs }
    (s.decrementActive trace.pipelineId, .ok)

def applyFailTrace (traceId : TraceId) (error : String) (failedAtMs : UInt64) :
    ClusterState M × ClusterResponse :=
  match s.traces.get traceId with
  | none => (s, traceNotFound traceId)
  | some trace =>
    let s := s.setTrace traceId { trace with
      status := .failed, completedAtMs := some failedAtMs, error := some error }
    (s.decrementActive trace.pipelineId, .ok)

def applySuspendTrace (traceId : TraceId) (suspendedAtNode : NodeId) :
    ClusterState M × ClusterResponse :=
  match s.traces.get traceId with
  | none => (s, traceNotFound traceId)
  | some trace =>
    (s.setTrace traceId { trace with status := .suspended, currentNode := some suspendedAtNode }, .ok)

def applyResumeTrace (traceId : TraceId) : ClusterState M × ClusterResponse :=
  match s.traces.get traceId with
  | none => (s, traceNotFound traceId)
  | some trace =>
    if trace.status ≠ .suspended then (s, .err ("Trace " ++ traceId.text ++ " is not suspended"))
    else (s.setTrace traceId { trace with status := .running }, .ok)

def applyDeployPipeline (pipelineId : PipelineId) (config : Bytes) (deployedAtMs : UInt64) :
    ClusterState M × ClusterResponse :=
  (s.setPipeline pipelineId ⟨.initializing, config, deployedAtMs, 0⟩, .ok)

def applyPipelineStateChange (pipelineId : PipelineId) (newState : PipelineState) :
    ClusterState M × ClusterResponse :=
  match s.pipelines.get pipelineId with
  | none => (s, pipelineNotFound pipelineId)
  | some pipeline => (s.setPipeline pipelineId { pipeline with state := newState }, .ok)

def applyResumePipeline (pipelineId : PipelineId) : ClusterState M × ClusterResponse :=
  match s.pipelines.get pipelineId with
  | none => (s, pipelineNotFound pipelineId)
  | some pipeline =>
    if pipeline.state ≠ .paused then (s, .err ("Pipeline " ++ pipelineId.text ++ " is not paused"))
    else (s.setPipeline pipelineId { pipeline with state := .running }, .ok)

def applyUndeployPipeline (pipelineId : PipelineId) : ClusterState M × ClusterResponse :=
  match s.pipelines.get pipelineId with
  | none => (s, pipelineNotFound pipelineId)
  | some _ => ({ s with pipelines := s.pipelines.remove pipelineId }, .ok)

def applyRegisterNode (clusterNodeId : UInt64) (address : String) (registeredAtMs : UInt64) :
    ClusterState M × ClusterResponse :=
  ({ s with nodes := s.nodes.insert clusterNodeId ⟨clusterNodeId, address, registeredAtMs⟩ }, .ok)

def applyDeregisterNode (clusterNodeId : UInt64) : ClusterState M × ClusterResponse :=
  match s.nodes.get clusterNodeId with
  | none => (s, .err ("Node " ++ String.ofList (padded 10 1 clusterNodeId.toNat) ++ " not found"))
  | some _ => ({ s with nodes := s.nodes.remove clusterNodeId }, .ok)

def applyCommand : ClusterCommand → ClusterState M × ClusterResponse
  | .startTrace traceId pipelineId startedAtMs => s.applyStartTrace traceId pipelineId startedAtMs
  | .completeNode traceId nodeId => s.applyCompleteNode traceId nodeId
  | .completeTrace traceId completedAtMs => s.applyCompleteTrace traceId completedAtMs
  | .failTrace traceId error failedAtMs => s.applyFailTrace traceId error failedAtMs
  | .suspendTrace traceId suspendedAtNode => s.applySuspendTrace traceId suspendedAtNode
  | .resumeTrace traceId => s.applyResumeTrace traceId
  | .deployPipeline pipelineId config deployedAtMs => s.applyDeployPipeline pipelineId config deployedAtMs
  | .startPipeline pipelineId => s.applyPipelineStateChange pipelineId .running
  | .pausePipeline pipelineId => s.applyPipelineStateChange pipelineId .paused
  | .resumePipeline pipelineId => s.applyResumePipeline pipelineId
  | .drainPipeline pipelineId => s.applyPipelineStateChange pipelineId .draining
  | .stopPipeline pipelineId => s.applyPipelineStateChange pipelineId .stopped
  | .undeployPipeline pipelineId => s.applyUndeployPipeline pipelineId
  | .registerNode clusterNodeId address registeredAtMs =>
    s.applyRegisterNode clusterNodeId address registeredAtMs
  | .deregisterNode clusterNodeId => s.applyDeregisterNode clusterNodeId

def runCommands (cmds : List ClusterCommand) : ClusterState M :=
  cmds.foldl (fun s cmd => (s.applyCommand cmd).1) s

/-! ### Rejected commands -/

/-- A rejection leaves the state as it was. -/
def RejectsCleanly (r : ClusterState M × ClusterResponse) : Prop := r.2.success = false → r.1 = s

variable {s}

theorem rejectsCleanly_same (response : ClusterResponse) : s.RejectsCleanly (s, response) := fun _ => rfl

theorem rejectsCleanly_ok (s' : ClusterState M) : s.RejectsCleanly (s', .ok) := nofun

theorem applyStartTrace_rejectsCleanly (traceId : TraceId) (p : PipelineId) (startedAtMs : UInt64) :
    s.RejectsCleanly (s.applyStartTrace traceId p startedAtMs) := by
  unfold applyStartTrace
  split
  · exact rejectsCleanly_same _
  · -- the counter is only incremented once the state of the pipeline has been checked
    split
    · exact rejectsCleanly_same _
    · exact rejectsCleanly_ok _

theorem applyResumeTrace_rejectsCleanly (traceId : TraceId) :
    s.RejectsCleanly (s.applyResumeTrace traceId) := by
  unfold applyResumeTrace
  split
  · exact rejectsCleanly_same _
  · split
    · exact rejectsCleanly_same _
    · exact rejectsCleanly_ok _

theorem applyPipelineStateChange_rejectsCleanly (p : PipelineId) (newState : PipelineState) :
    s.RejectsCleanly (s.applyPipelineStateChange p newState) := by
  unfold applyPipelineStateChange
  split
  · exact rejectsCleanly_same _
  · exact rejectsCleanly_ok _

theorem applyResumePipeline_rejectsCleanly (p : PipelineId) :
    s.RejectsCleanly (s.applyResumePipeline p) := by
  unfold applyResumePipeline
  split
  · exact rejectsCleanly_same _
  · split
    · exact rejectsCleanly_same _
    · exact rejectsCleanly_ok _

/-- A command whose response is not a success leaves the traces, the pipelines, the nodes and the rest
of the state as they were. -/
theorem rejected_command_unchanged (s : ClusterState M) (cmd : ClusterCommand)
    (h : (s.applyCommand cmd).2.success = false) : (s.applyCommand cmd).1 = s := by
  suffices hclean : s.RejectsCleanly (s.applyCommand cmd) from hclean h
  cases cmd with
  | startTrace traceId p startedAtMs => exact applyStartTrace_rejectsCleanly traceId p startedAtMs
  | completeNode traceId nodeId =>
    show s.RejectsCleanly (s.applyCompleteNode traceId nodeId)
    unfold applyCompleteNode
    split
    · exact rejectsCleanly_same _
    · exact rejectsCleanly_ok _
  | completeTrace traceId completedAtMs =>
    show s.RejectsCleanly (s.applyCompleteTrace traceId completedAtMs)
    unfold applyCompleteTrace
    split
    · exact rejectsCleanly_same _
    · exact rejectsCleanly_ok _
  | failTrace traceId error failedAtMs =>
    show s.RejectsCleanly (s.applyFailTrace traceId error failedAtMs)
    unfold applyFailTrace
    split
    · exact rejectsCleanly_same _
    · exact rejectsCleanly_ok _
  | suspendTrace traceId suspendedAtNode =>
    show s.RejectsCleanly (s.applySuspendTrace traceId suspendedAtNode)
    unfold applySuspendTrace
    split
    · exact rejectsCleanly_same _
    · exact rejectsCleanly_ok _
  | resumeTrace traceId => exact applyResumeTrace_rejectsCleanly traceId
  | deployPipeline p config deployedAtMs => exact rejectsCleanly_ok _
  | startPipeline p => exact applyPipelineStateChange_rejectsCleanly p .running
  | pausePipeline p => exact applyPipelineStateChange_rejectsCleanly p .paused
  | resumePipeline p => exact applyResumePipeline_rejectsCleanly p
  | drainPipeline p => exact applyPipelineStateChange_rejectsCleanly p .draining
  | stopPipeline p => exact applyPipelineStateChange_rejectsCleanly p .stopped
  | undeployPipeline p =>
    show s.RejectsCleanly (s.applyUndeployPipeline p)
    unfold applyUndeployPipeline
    split
    · exact rejectsCleanly_same _
    · exact rejectsCleanly_ok _
  | registerNode clusterNodeId address registeredAtMs => exact rejectsCleanly_ok _
  | deregisterNode clusterNodeId =>
    show s.RejectsCleanly (s.applyDeregisterNode clusterNodeId)
    unfold applyDeregisterNode
    split
    · exact rejectsCleanly_same _
    · exact rejectsCleanly_ok _

end ClusterState

def samplePipeline : PipelineId := ⟨"order_processing", 1⟩

def startedCommands : List ClusterCommand :=
  [.deployPipeline samplePipeline [] 1, .startPipeline samplePipeline,
    .startTrace sampleTrace samplePipeline 2]

namespace ClusterState

theorem resume_running_unchanged :
    let s : ClusterState Unit := default.runCommands startedCommands
    s.traces.contains sampleTrace = true ∧
      (s.applyCommand (.resumeTrace sampleTrace)).2.success = false ∧
      (s.applyCommand (.resumeTrace sampleTrace)).1 = s :=
  ⟨by decide +kernel, by decide +kernel, rejected_command_unchanged _ _ (by decide +kernel)⟩

end ClusterState
end Xerv.Cluster
