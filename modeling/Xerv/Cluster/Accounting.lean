import Xerv.Cluster.State
import Xerv.Lib.Machine

/-!
# Trace accounting of the cluster state

A pipeline counts its active traces in a field of its own, next to the status of each
trace. The handlers keep the two in step except where a command arrives for a trace that
has ended, for a trace id that is still in use, or deploys a pipeline over live traces.
-/

namespace Xerv.Cluster
open Xerv.Lib

def TraceStatus.isLive : TraceStatus → Bool
  | running | suspended => true
  | completed | failed => false

def TraceStateInfo.isLiveIn (p : PipelineId) (trace : TraceStateInfo) : Bool :=
  trace.pipelineId = p && trace.status.isLive

namespace ClusterState
variable {M : Type}

def liveTraces (s : ClusterState M) (p : PipelineId) : ℕ := s.traces.countWhere (·.isLiveIn p)

/-- Every deployed pipeline counts its running and suspended traces. -/
def Accounted (s : ClusterState M) : Prop :=
  ∀ p info, s.pipelines.get p = some info → info.activeTraces.toNat = s.liveTraces p

/-- The commands after which a counter is off, in a state where all are right. -/
def miscounts (s : ClusterState M) : ClusterCommand → Bool
  | .startTrace traceId p _ =>
    (s.pipelines.get p).any fun pipeline =>
      pipeline.state = .running &&
        (pipeline.activeTraces = 0xFFFFFFFFFFFFFFFF ||
          (s.traces.get traceId).any fun trace =>
            trace.status.isLive && s.pipelines.contains trace.pipelineId)
  | .completeTrace traceId _ | .failTrace traceId _ _ =>
    (s.traces.get traceId).any fun trace =>
      !trace.status.isLive &&
        (s.pipelines.get trace.pipelineId).any fun pipeline => pipeline.activeTraces ≠ 0
  | .suspendTrace traceId _ =>
    (s.traces.get traceId).any fun trace =>
      !trace.status.isLive && s.pipelines.contains trace.pipelineId
  | .deployPipeline p _ _ => s.liveTraces p ≠ 0
  | _ => false

variable {s : ClusterState M} {p q : PipelineId} {traceId : TraceId}

theorem liveTraces_setTrace (s : ClusterState M) (traceId : TraceId) (info : TraceStateInfo)
    (p : PipelineId) :
    (s.setTrace traceId info).liveTraces p + (if (s.traces.get traceId).any (·.isLiveIn p) then 1 else 0) =
      s.liveTraces p + (if info.isLiveIn p then 1 else 0) :=
  s.traces.countWhere_insert (·.isLiveIn p) traceId info

theorem liveTraces_setTrace_same (info : TraceStateInfo)
    (h : (s.traces.get traceId).any (·.isLiveIn p) = info.isLiveIn p) :
    (s.setTrace traceId info).liveTraces p = s.liveTraces p :=
  s.traces.countWhere_insert_eq (·.isLiveIn p) traceId info h

theorem isLiveIn_self (trace : TraceStateInfo) : trace.isLiveIn trace.pipelineId = trace.status.isLive := by
  simp [TraceStateInfo.isLiveIn]

theorem isLiveIn_ne (trace : TraceStateInfo) (h : p ≠ trace.pipelineId) : trace.isLiveIn p = false := by
  simp [TraceStateInfo.isLiveIn, h.symm]

/-- The counters are right away from one pipeline. -/
def AccountedBut (q : PipelineId) (s : ClusterState M) : Prop :=
  ∀ p info, p ≠ q → s.pipelines.get p = some info → info.activeTraces.toNat = s.liveTraces p

theorem Accounted.but (h : s.Accounted) : s.AccountedBut q := fun p info _ => h p info

theorem AccountedBut.setPipeline_iff (h : s.AccountedBut q) (info : PipelineStateInfo) :
    (s.setPipeline q info).Accounted ↔ info.activeTraces.toNat = s.liveTraces q := by
  constructor
  · intro hall
    exact hall q info (FiniteMap.get_insert_self _ _ _)
  · intro hq p info' hp
    by_cases hne : p = q
    · subst hne
      have heq : some info = some info' := (FiniteMap.get_insert_self _ _ _).symm.trans hp
      cases heq
      exact hq
    · exact h p info' hne ((FiniteMap.get_insert_ne _ _ hne).symm.trans hp)

theorem AccountedBut.of_none (h : s.AccountedBut q) (hq : s.pipelines.get q = none) : s.Accounted := by
  intro p info hp
  refine h p info ?_ hp
  rintro rfl
  rw [hq] at hp
  cases hp

/-! ### Changes of a trace -/

section Trace
variable {trace info : TraceStateInfo}

theorem Accounted.setTrace_but (h : s.Accounted) (ht : s.traces.get traceId = some trace)
    (hinfo : info.pipelineId = trace.pipelineId) :
    (s.setTrace traceId info).AccountedBut trace.pipelineId := by
  intro p pipeline hp hget
  rw [h p pipeline hget, liveTraces_setTrace_same]
  rw [ht, Option.any_some, isLiveIn_ne trace hp, isLiveIn_ne info (hinfo ▸ hp)]

theorem Accounted.setTrace_same (h : s.Accounted) (ht : s.traces.get traceId = some trace)
    (hinfo : info.pipelineId = trace.pipelineId) (hlive : info.status.isLive = trace.status.isLive) :
    (s.setTrace traceId info).Accounted := by
  intro p pipeline hget
  rw [h p pipeline hget, liveTraces_setTrace_same]
  rw [ht, Option.any_some]
  unfold TraceStateInfo.isLiveIn
  rw [hinfo, hlive]

theorem Accounted.revive_iff (h : s.Accounted) (ht : s.traces.get traceId = some trace)
    (hinfo : info.pipelineId = trace.pipelineId) (hended : trace.status.isLive = false)
    (hlive : info.status.isLive = true) :
    (s.setTrace traceId info).Accounted ↔ s.pipelines.contains trace.pipelineId = false := by
  have hcount := liveTraces_setTrace s traceId info trace.pipelineId
  rw [ht, Option.any_some, isLiveIn_self, hended, ← hinfo, isLiveIn_self, hlive, hinfo] at hcount
  simp only [Bool.false_eq_true, if_false, if_true, Nat.add_zero] at hcount
  unfold FiniteMap.contains
  cases hq : s.pipelines.get trace.pipelineId with
  | none =>
    refine ⟨fun _ => rfl, fun _ => ?_⟩
    exact (h.setTrace_but ht hinfo).of_none hq
  | some pipeline =>
    refine ⟨fun hall => ?_, nofun⟩
    have hnew := hall trace.pipelineId pipeline hq
    rw [hcount, h trace.pipelineId pipeline hq] at hnew
    omega

theorem decremented_toNat (n : UInt64) : (if n = 0 then 0 else n - 1).toNat = n.toNat - 1 := by
  split
  · rename_i hn
    rw [hn]
    rfl
  · rename_i hn
    have hpos : 1 ≤ n := by
      rw [UInt64.le_iff_toNat_le]
      have : n.toNat ≠ 0 := fun h0 => hn (UInt64.toNat_inj.mp h0)
      simpa using Nat.one_le_iff_ne_zero.mpr this
    rw [UInt64.toNat_sub_of_le _ _ hpos]
    rfl

/-- The end of a trace: right for a live one, and for an ended one where nothing was left to subtract. -/
theorem Accounted.finish_iff (h : s.Accounted) (ht : s.traces.get traceId = some trace)
    (hinfo : info.pipelineId = trace.pipelineId) (hended : info.status.isLive = false) :
    ((s.setTrace traceId info).decrementActive trace.pipelineId).Accounted ↔
      (!trace.status.isLive &&
        (s.pipelines.get trace.pipelineId).any fun pipeline => pipeline.activeTraces ≠ 0) = false := by
  have hbut := h.setTrace_but ht hinfo
  have hcount := liveTraces_setTrace s traceId info trace.pipelineId
  rw [ht, Option.any_some, isLiveIn_self, ← hinfo, isLiveIn_self, hended, hinfo] at hcount
  unfold decrementActive
  cases hq : s.pipelines.get trace.pipelineId with
  | none =>
    have hnone : (s.setTrace traceId info).pipelines.get trace.pipelineId = none := hq
    rw [hnone]
    simpa using hbut.of_none hq
  | some pipeline =>
    have hsome : (s.setTrace traceId info).pipelines.get trace.pipelineId = some pipeline := hq
    have hold := h trace.pipelineId pipeline hq
    have hzero : pipeline.activeTraces = 0 ↔ pipeline.activeTraces.toNat = 0 := by
      rw [← UInt64.toNat_inj]
      rfl
    rw [hsome]
    dsimp only
    rw [hbut.setPipeline_iff]
    dsimp only
    rw [decremented_toNat, Option.any_some]
    cases hl : trace.status.isLive with
    | true =>
      rw [hl] at hcount
      simp only [if_true, Bool.false_eq_true, if_false, Nat.add_zero] at hcount
      simp only [Bool.not_true, Bool.false_and, iff_true]
      omega
    | false =>
      rw [hl] at hcount
      simp only [Bool.false_eq_true, if_false, Nat.add_zero] at hcount
      simp only [Bool.not_false, Bool.true_and, decide_eq_false_iff_not, not_not, hzero]
      omega

theorem incremented_toNat (n : UInt64) (k : ℕ) (hk : n.toNat = k) :
    (n + 1).toNat = k + 1 ↔ n ≠ 0xFFFFFFFFFFFFFFFF := by
  have hmax : n = 0xFFFFFFFFFFFFFFFF ↔ n.toNat = 2 ^ 64 - 1 := by
    rw [← UInt64.toNat_inj]
    rfl
  have hlt := n.toNat_lt
  have hadd : (n + 1).toNat = (n.toNat + 1) % 2 ^ 64 := UInt64.toNat_add n 1
  rw [Ne, hmax, hadd]
  omega

theorem Accounted.start_counted (h : s.Accounted) {pipeline : PipelineStateInfo}
    (hp : s.pipelines.get p = some pipeline) (hinfo : info.pipelineId = p)
    (hlive : info.status.isLive = true) (pipeline' : PipelineStateInfo)
    (hactive : pipeline'.activeTraces = pipeline.activeTraces + 1)
    (ht : s.traces.get traceId = some trace) (htlive : trace.status.isLive = true)
    (hdeployed : s.pipelines.contains trace.pipelineId = true) :
    ¬((s.setTrace traceId info).setPipeline p pipeline').Accounted := by
  intro hall
  have hcount := liveTraces_setTrace s traceId info trace.pipelineId
  rw [ht, Option.any_some, isLiveIn_self, htlive] at hcount
  by_cases hq : trace.pipelineId = p
  · have hself : info.isLiveIn p = true := by rw [← hinfo, isLiveIn_self, hlive]
    have hnew : pipeline'.activeTraces.toNat = (s.setTrace traceId info).liveTraces p :=
      hall p pipeline' (FiniteMap.get_insert_self _ _ _)
    have hold := h p pipeline hp
    have hlt := pipeline.activeTraces.toNat_lt
    have hadd : pipeline'.activeTraces.toNat = (pipeline.activeTraces.toNat + 1) % 2 ^ 64 := by
      rw [hactive]
      exact UInt64.toNat_add _ 1
    rw [hq, hself] at hcount
    simp only [if_true] at hcount
    omega
  · obtain ⟨other, hother⟩ := Option.isSome_iff_exists.mp hdeployed
    have hnew : other.activeTraces.toNat = (s.setTrace traceId info).liveTraces trace.pipelineId :=
      hall trace.pipelineId other ((FiniteMap.get_insert_ne _ _ hq).trans hother)
    have hold := h trace.pipelineId other hother
    rw [isLiveIn_ne info (hinfo ▸ hq)] at hcount
    simp only [if_true, Bool.false_eq_true, if_false] at hcount
    omega

theorem Accounted.start_free (h : s.Accounted) {pipeline : PipelineStateInfo}
    (hp : s.pipelines.get p = some pipeline) (hinfo : info.pipelineId = p)
    (hlive : info.status.isLive = true) (pipeline' : PipelineStateInfo)
    (hactive : pipeline'.activeTraces = pipeline.activeTraces + 1)
    (hfree : ∀ q, s.pipelines.contains q = true → (s.traces.get traceId).any (·.isLiveIn q) = false) :
    ((s.setTrace traceId info).setPipeline p pipeline').Accounted ↔
      pipeline.activeTraces ≠ 0xFFFFFFFFFFFFFFFF := by
  have hbut : (s.setTrace traceId info).AccountedBut p := by
    intro q other hq hother
    have hdeployed := s.pipelines.contains_of_get hother
    have hcount := liveTraces_setTrace s traceId info q
    rw [hfree q hdeployed, isLiveIn_ne info (hinfo ▸ hq)] at hcount
    rw [h q other hother]
    omega
  have hself : info.isLiveIn p = true := by rw [← hinfo, isLiveIn_self, hlive]
  have hcount := liveTraces_setTrace s traceId info p
  rw [hfree p (s.pipelines.contains_of_get hp), hself] at hcount
  simp only [Bool.false_eq_true, if_false, if_true, Nat.add_zero] at hcount
  rw [hbut.setPipeline_iff, hactive, hcount, incremented_toNat _ _ (h p pipeline hp)]

theorem Accounted.start_iff (h : s.Accounted) {pipeline : PipelineStateInfo}
    (hp : s.pipelines.get p = some pipeline) (hinfo : info.pipelineId = p)
    (hlive : info.status.isLive = true) (pipeline' : PipelineStateInfo)
    (hactive : pipeline'.activeTraces = pipeline.activeTraces + 1) :
    ((s.setTrace traceId info).setPipeline p pipeline').Accounted ↔
      (pipeline.activeTraces = 0xFFFFFFFFFFFFFFFF ||
        (s.traces.get traceId).any fun trace =>
          trace.status.isLive && s.pipelines.contains trace.pipelineId) = false := by
  by_cases hcounted : ((s.traces.get traceId).any fun trace =>
      trace.status.isLive && s.pipelines.contains trace.pipelineId) = true
  · obtain ⟨trace, ht, hcond⟩ := (Option.any_eq_true _ _).mp hcounted
    obtain ⟨htlive, hdeployed⟩ := Bool.and_eq_true_iff.mp hcond
    refine iff_of_false (h.start_counted hp hinfo hlive pipeline' hactive ht htlive hdeployed) ?_
    simp [hcounted]
  · rw [Bool.not_eq_true] at hcounted
    rw [h.start_free hp hinfo hlive pipeline' hactive, hcounted]
    · simp
    · intro q hq
      rw [Option.any_eq_false] at hcounted ⊢
      intro trace ht
      have hno := hcounted trace ht
      by_cases hpq : q = trace.pipelineId
      · subst hpq
        rw [isLiveIn_self]
        simpa [hq] using hno
      · rw [isLiveIn_ne trace hpq]

end Trace

/-! ### Commands -/

theorem Accounted.pipelineStateChange (h : s.Accounted) (newState : PipelineState) :
    (s.applyPipelineStateChange p newState).1.Accounted := by
  unfold applyPipelineStateChange
  split
  · exact h
  · rename_i pipeline hp
    exact h.but.setPipeline_iff _ |>.mpr (h p pipeline hp)

theorem Accounted.resumePipeline (h : s.Accounted) : (s.applyResumePipeline p).1.Accounted := by
  unfold applyResumePipeline
  split
  · exact h
  · rename_i pipeline hp
    split
    · exact h
    · exact h.but.setPipeline_iff _ |>.mpr (h p pipeline hp)

theorem Accounted.undeployPipeline (h : s.Accounted) : (s.applyUndeployPipeline p).1.Accounted := by
  unfold applyUndeployPipeline
  split
  · exact h
  · intro q info hq
    by_cases hne : q = p
    · subst hne
      have hnone : none = some info := (FiniteMap.get_remove_self _ _).symm.trans hq
      cases hnone
    · exact h q info ((FiniteMap.get_remove_ne _ hne).symm.trans hq)

theorem Accounted.deregisterNode (h : s.Accounted) (clusterNodeId : UInt64) :
    (s.applyDeregisterNode clusterNodeId).1.Accounted := by
  unfold applyDeregisterNode
  split
  · exact h
  · exact h

theorem Accounted.completeNode (h : s.Accounted) (nodeId : NodeId) :
    (s.applyCompleteNode traceId nodeId).1.Accounted := by
  unfold applyCompleteNode
  split
  · exact h
  · rename_i trace ht
    exact h.setTrace_same ht rfl rfl

theorem Accounted.resumeTrace (h : s.Accounted) : (s.applyResumeTrace traceId).1.Accounted := by
  unfold applyResumeTrace
  split
  · exact h
  · rename_i trace ht
    split
    · exact h
    · rename_i hsuspended
      rw [not_not] at hsuspended
      refine h.setTrace_same ht rfl ?_
      rw [hsuspended]
      rfl

theorem Accounted.startTrace_iff (h : s.Accounted) (startedAtMs : UInt64) :
    (s.applyStartTrace traceId p startedAtMs).1.Accounted ↔
      s.miscounts (.startTrace traceId p startedAtMs) = false := by
  unfold applyStartTrace miscounts
  dsimp only
  cases hp : s.pipelines.get p with
  | none => simpa using h
  | some pipeline =>
    by_cases hstate : pipeline.state = .running
    · simp only [hstate, ne_eq, not_true_eq_false, if_false, Option.any_some, decide_true, Bool.true_and]
      exact h.start_iff hp rfl rfl _ rfl
    · simpa [hstate] using h

theorem Accounted.suspendTrace_iff (h : s.Accounted) (suspendedAtNode : NodeId) :
    (s.applySuspendTrace traceId suspendedAtNode).1.Accounted ↔
      s.miscounts (.suspendTrace traceId suspendedAtNode) = false := by
  unfold applySuspendTrace miscounts
  dsimp only
  cases ht : s.traces.get traceId with
  | none => simpa using h
  | some trace =>
    dsimp only [Option.any_some]
    cases hl : trace.status.isLive with
    | true => exact iff_of_true (h.setTrace_same ht rfl hl.symm) rfl
    | false => exact h.revive_iff ht rfl hl rfl

theorem Accounted.completeTrace_iff (h : s.Accounted) (completedAtMs : UInt64) :
    (s.applyCompleteTrace traceId completedAtMs).1.Accounted ↔
      s.miscounts (.completeTrace traceId completedAtMs) = false := by
  unfold applyCompleteTrace miscounts
  dsimp only
  cases ht : s.traces.get traceId with
  | none => simpa using h
  | some trace => exact h.finish_iff ht rfl rfl

theorem Accounted.failTrace_iff (h : s.Accounted) (error : String) (failedAtMs : UInt64) :
    (s.applyFailTrace traceId error failedAtMs).1.Accounted ↔
      s.miscounts (.failTrace traceId error failedAtMs) = false := by
  unfold applyFailTrace miscounts
  dsimp only
  cases ht : s.traces.get traceId with
  | none => simpa using h
  | some trace => exact h.finish_iff ht rfl rfl

theorem Accounted.deployPipeline_iff (h : s.Accounted) (config : Bytes) (deployedAtMs : UInt64) :
    (s.applyDeployPipeline p config deployedAtMs).1.Accounted ↔
      s.miscounts (.deployPipeline p config deployedAtMs) = false := by
  unfold applyDeployPipeline miscounts
  dsimp only
  rw [h.but.setPipeline_iff, decide_eq_false_iff_not, not_not]
  exact eq_comm

theorem Accounted.command_iff (h : s.Accounted) (cmd : ClusterCommand) :
    (s.applyCommand cmd).1.Accounted ↔ s.miscounts cmd = false := by
  cases cmd with
  | startTrace traceId p startedAtMs => exact h.startTrace_iff startedAtMs
  | completeNode traceId nodeId => exact iff_of_true (h.completeNode nodeId) rfl
  | completeTrace traceId completedAtMs => exact h.completeTrace_iff completedAtMs
  | failTrace traceId error failedAtMs => exact h.failTrace_iff error failedAtMs
  | suspendTrace traceId suspendedAtNode => exact h.suspendTrace_iff suspendedAtNode
  | resumeTrace traceId => exact iff_of_true h.resumeTrace rfl
  | deployPipeline p config deployedAtMs => exact h.deployPipeline_iff config deployedAtMs
  | startPipeline p => exact iff_of_true (h.pipelineStateChange .running) rfl
  | pausePipeline p => exact iff_of_true (h.pipelineStateChange .paused) rfl
  | resumePipeline p => exact iff_of_true h.resumePipeline rfl
  | drainPipeline p => exact iff_of_true (h.pipelineStateChange .draining) rfl
  | stopPipeline p => exact iff_of_true (h.pipelineStateChange .stopped) rfl
  | undeployPipeline p => exact iff_of_true h.undeployPipeline rfl
  | registerNode clusterNodeId address registeredAtMs => exact iff_of_true h rfl
  | deregisterNode clusterNodeId => exact iff_of_true (h.deregisterNode clusterNodeId) rfl

theorem accounted_default [Inhabited M] : (default : ClusterState M).Accounted := nofun

/-- For every sequence of commands from the default state: each deployed pipeline counts its running
and suspended traces after every command if and only if no command starts a trace under an id that is
live in a deployed pipeline or at the limit of the counter, completes or fails an ended trace while
the counter of its deployed pipeline is not zero, suspends an ended trace of a deployed pipeline,
or deploys a pipeline that has live traces. -/
theorem accounted_throughout_iff [Inhabited M] (cmds : List ClusterCommand) :
    (∀ before, before <+: cmds → ((default : ClusterState M).runCommands before).Accounted) ↔
      ∀ before cmd, before ++ [cmd] <+: cmds →
        ((default : ClusterState M).runCommands before).miscounts cmd = false :=
  Machine.foldl_throughout_iff _ miscounts Accounted (fun _ cmd h => h.command_iff cmd) cmds
    accounted_default

/-- A completion that is delivered twice takes the trace that is still running off the counter. -/
theorem duplicate_completion_miscounts :
    ¬((default : ClusterState Unit).runCommands (startedCommands ++
      [.startTrace otherTrace samplePipeline 3, .completeTrace sampleTrace 4,
        .completeTrace sampleTrace 5])).Accounted := by
  intro h
  have hp := h samplePipeline ⟨.running, [], 1, 0⟩ (by decide)
  revert hp
  decide

end ClusterState
end Xerv.Cluster
