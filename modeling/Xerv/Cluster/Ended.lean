import Xerv.Cluster.Accounting

/-!
# Ended traces of the cluster state

`Completed` and `Failed` are meant to be final. Only `apply_resume_trace` looks at the status
it replaces; the other handlers write theirs over whatever they find.
-/

namespace Xerv.Cluster.ClusterState
open Xerv.Lib
variable {M : Type} {s : ClusterState M} {p : PipelineId} {traceId : TraceId}

/-- The traces that have ended keep their status. -/
def KeepsEnded (s s' : ClusterState M) : Prop :=
  ∀ traceId trace, s.traces.get traceId = some trace → trace.status.isLive = false →
    ∃ trace', s'.traces.get traceId = some trace' ∧ trace'.status = trace.status

/-- The commands that give an ended trace another status. -/
def reopens (s : ClusterState M) : ClusterCommand → Bool
  | .startTrace traceId p _ =>
    ((s.traces.get traceId).any fun trace => !trace.status.isLive) &&
      (s.pipelines.get p).any fun pipeline => pipeline.state = .running
  | .completeTrace traceId _ => (s.traces.get traceId).any fun trace => trace.status = .failed
  | .failTrace traceId _ _ => (s.traces.get traceId).any fun trace => trace.status = .completed
  | .suspendTrace traceId _ => (s.traces.get traceId).any fun trace => !trace.status.isLive
  | _ => false

theorem keepsEnded_of_traces {s' : ClusterState M} (h : s'.traces = s.traces) : s.KeepsEnded s' := by
  intro traceId trace ht _
  exact ⟨trace, h ▸ ht, rfl⟩

theorem KeepsEnded.trans {s₁ s₂ s₃ : ClusterState M} (h : s₁.KeepsEnded s₂) (h' : s₂.KeepsEnded s₃) :
    s₁.KeepsEnded s₃ := by
  intro traceId trace ht hended
  obtain ⟨trace₂, ht₂, heq₂⟩ := h traceId trace ht hended
  obtain ⟨trace₃, ht₃, heq₃⟩ := h' traceId trace₂ ht₂ (heq₂ ▸ hended)
  exact ⟨trace₃, ht₃, heq₃.trans heq₂⟩

theorem keepsEnded_insert_iff {s' : ClusterState M} {info : TraceStateInfo}
    (h : s'.traces = s.traces.insert traceId info) :
    s.KeepsEnded s' ↔
      ((s.traces.get traceId).any fun trace =>
        !trace.status.isLive && info.status ≠ trace.status) = false := by
  rw [Option.any_eq_false]
  constructor
  · intro hkeep trace ht
    cases hended : trace.status.isLive with
    | true => simp
    | false =>
      obtain ⟨trace', ht', heq⟩ := hkeep traceId trace ht hended
      rw [h, FiniteMap.get_insert_self] at ht'
      cases ht'
      simp [heq]
  · intro hsame t trace ht hended
    rw [h]
    by_cases hne : t = traceId
    · subst hne
      have heq := hsame trace ht
      simp only [hended, Bool.not_false, Bool.true_and, decide_eq_false_iff_not, ne_eq, not_not] at heq
      exact ⟨info, FiniteMap.get_insert_self _ _ _, heq⟩
    · exact ⟨trace, (FiniteMap.get_insert_ne _ _ hne).trans ht, rfl⟩

@[simp] theorem decrementActive_traces (s : ClusterState M) (p : PipelineId) :
    (s.decrementActive p).traces = s.traces := by
  unfold decrementActive
  split
  · rfl
  · rfl

theorem keepsEnded_startTrace_iff (s : ClusterState M) (startedAtMs : UInt64) :
    s.KeepsEnded (s.applyStartTrace traceId p startedAtMs).1 ↔
      s.reopens (.startTrace traceId p startedAtMs) = false := by
  unfold applyStartTrace reopens
  dsimp only
  cases hp : s.pipelines.get p with
  | none => simpa using keepsEnded_of_traces rfl
  | some pipeline =>
    by_cases hstate : pipeline.state = .running
    · simp only [hstate, ne_eq, not_true_eq_false, if_false, Option.any_some, decide_true, Bool.and_true]
      rw [keepsEnded_insert_iff rfl]
      -- an ended status is not `Running`
      have hsame (trace : TraceStateInfo) :
          (!trace.status.isLive && decide (TraceStatus.running ≠ trace.status)) = !trace.status.isLive := by
        cases trace.status <;> rfl
      simp only [hsame]
    · simpa [hstate] using keepsEnded_of_traces rfl

theorem keepsEnded_finished_iff {s' : ClusterState M} {trace info : TraceStateInfo}
    (ht : s.traces.get traceId = some trace) (h : s'.traces = s.traces.insert traceId info) :
    s.KeepsEnded s' ↔ (!trace.status.isLive && decide (info.status ≠ trace.status)) = false := by
  rw [keepsEnded_insert_iff h, ht, Option.any_some]

theorem keepsEnded_completeTrace_iff (s : ClusterState M) (completedAtMs : UInt64) :
    s.KeepsEnded (s.applyCompleteTrace traceId completedAtMs).1 ↔
      s.reopens (.completeTrace traceId completedAtMs) = false := by
  unfold applyCompleteTrace reopens
  dsimp only
  cases ht : s.traces.get traceId with
  | none => simpa using keepsEnded_of_traces rfl
  | some trace =>
    rw [keepsEnded_finished_iff ht (decrementActive_traces _ _), Option.any_some]
    dsimp only
    cases trace.status <;> simp [TraceStatus.isLive]

theorem keepsEnded_failTrace_iff (s : ClusterState M) (error : String) (failedAtMs : UInt64) :
    s.KeepsEnded (s.applyFailTrace traceId error failedAtMs).1 ↔
      s.reopens (.failTrace traceId error failedAtMs) = false := by
  unfold applyFailTrace reopens
  dsimp only
  cases ht : s.traces.get traceId with
  | none => simpa using keepsEnded_of_traces rfl
  | some trace =>
    rw [keepsEnded_finished_iff ht (decrementActive_traces _ _), Option.any_some]
    dsimp only
    cases trace.status <;> simp [TraceStatus.isLive]

theorem keepsEnded_suspendTrace_iff (s : ClusterState M) (suspendedAtNode : NodeId) :
    s.KeepsEnded (s.applySuspendTrace traceId suspendedAtNode).1 ↔
      s.reopens (.suspendTrace traceId suspendedAtNode) = false := by
  unfold applySuspendTrace reopens
  dsimp only
  cases ht : s.traces.get traceId with
  | none => simpa using keepsEnded_of_traces rfl
  | some trace =>
    rw [keepsEnded_finished_iff ht rfl, Option.any_some]
    dsimp only
    cases trace.status <;> simp [TraceStatus.isLive]

theorem keepsEnded_completeNode (s : ClusterState M) (nodeId : NodeId) :
    s.KeepsEnded (s.applyCompleteNode traceId nodeId).1 := by
  unfold applyCompleteNode
  split
  · exact keepsEnded_of_traces rfl
  · rename_i trace ht
    rw [keepsEnded_finished_iff ht rfl]
    simp

theorem keepsEnded_resumeTrace (s : ClusterState M) : s.KeepsEnded (s.applyResumeTrace traceId).1 := by
  unfold applyResumeTrace
  split
  · exact keepsEnded_of_traces rfl
  · rename_i trace ht
    split
    · exact keepsEnded_of_traces rfl
    · rename_i hsuspended
      rw [not_not] at hsuspended
      rw [keepsEnded_finished_iff ht rfl, hsuspended]
      rfl

theorem applyPipelineStateChange_traces (s : ClusterState M) (newState : PipelineState) :
    (s.applyPipelineStateChange p newState).1.traces = s.traces := by
  unfold applyPipelineStateChange
  split
  · rfl
  · rfl

theorem keepsEnded_command_iff (s : ClusterState M) (cmd : ClusterCommand) :
    s.KeepsEnded (s.applyCommand cmd).1 ↔ s.reopens cmd = false := by
  -- the commands on pipelines and nodes leave the traces alone
  have hother (s' : ClusterState M) (h : s'.traces = s.traces) : s.KeepsEnded s' ↔ false = false :=
    iff_of_true (keepsEnded_of_traces h) rfl
  cases cmd with
  | startTrace traceId p startedAtMs => exact keepsEnded_startTrace_iff s startedAtMs
  | completeNode traceId nodeId => exact iff_of_true (keepsEnded_completeNode s nodeId) rfl
  | completeTrace traceId completedAtMs => exact keepsEnded_completeTrace_iff s completedAtMs
  | failTrace traceId error failedAtMs => exact keepsEnded_failTrace_iff s error failedAtMs
  | suspendTrace traceId suspendedAtNode => exact keepsEnded_suspendTrace_iff s suspendedAtNode
  | resumeTrace traceId => exact iff_of_true (keepsEnded_resumeTrace s) rfl
  | deployPipeline p config deployedAtMs => exact hother _ rfl
  | startPipeline p => exact hother _ (applyPipelineStateChange_traces s .running)
  | pausePipeline p => exact hother _ (applyPipelineStateChange_traces s .paused)
  | resumePipeline p =>
    refine hother _ ?_
    unfold applyCommand applyResumePipeline
    dsimp only
    split
    · rfl
    · split
      · rfl
      · rfl
  | drainPipeline p => exact hother _ (applyPipelineStateChange_traces s .draining)
  | stopPipeline p => exact hother _ (applyPipelineStateChange_traces s .stopped)
  | undeployPipeline p =>
    refine hother _ ?_
    unfold applyCommand applyUndeployPipeline
    dsimp only
    split
    · rfl
    · rfl
  | registerNode clusterNodeId address registeredAtMs => exact hother _ rfl
  | deregisterNode clusterNodeId =>
    refine hother _ ?_
    unfold applyCommand applyDeregisterNode
    dsimp only
    split
    · rfl
    · rfl

/-- For every sequence of commands from the default state: a trace that is completed or failed after
some of the commands has the same status after any more of them, if and only if no command starts,
under a running pipeline, a trace whose id has ended, suspends an ended trace, completes a failed
one or fails a completed one. -/
theorem ended_kept_iff [Inhabited M] (cmds : List ClusterCommand) :
    (∀ before later, before ++ later <+: cmds →
        ((default : ClusterState M).runCommands before).KeepsEnded
          ((default : ClusterState M).runCommands (before ++ later))) ↔
      ∀ before cmd, before ++ [cmd] <+: cmds →
        ((default : ClusterState M).runCommands before).reopens cmd = false :=
  Machine.foldl_between_iff _ reopens KeepsEnded (fun _ => keepsEnded_of_traces rfl)
    (fun _ _ _ h h' => h.trans h') keepsEnded_command_iff cmds default

/-- A suspension that arrives after the completion opens the trace again. -/
theorem late_suspension_reopens :
    let completed : ClusterState Unit := default.runCommands
      (startedCommands ++ [.completeTrace sampleTrace 4])
    (completed.traces.get sampleTrace).map TraceStateInfo.status = some .completed ∧
      ((completed.runCommands [.suspendTrace sampleTrace 3]).traces.get sampleTrace).map
        TraceStateInfo.status = some .suspended :=
  ⟨by decide, by decide⟩

end Xerv.Cluster.ClusterState
