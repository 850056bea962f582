import Xerv.Lib.Machine
import Xerv.Pipeline.Lifecycle

/-!
# Traces of a pipeline against its lifecycle (`pipeline/controller.rs`)

Any number of `handle_event` and `resume_suspended_trace` calls run against the lifecycle calls of one
pipeline. Lock sections and counter updates are steps; a call is where it has got to, so the calls are
counted by their places. `handle_event` gives the lock back after its check, counts the trace and starts
it; the background task counts how it ended. `drain` holds the write lock while it waits.
-/

namespace Xerv
open Xerv.Lib
open Cluster (PipelineId PipelineState)

/-- The counters; `tracesActive` is below 0 where the unsigned counter would have wrapped. -/
structure PipelineMetrics where
  tracesStarted : ℕ
  tracesCompleted : ℕ
  tracesFailed : ℕ
  tracesActive : ℤ

inductive DrainPhase where
  | waiting | leaving
  deriving DecidableEq

/-- A pipeline, the drain that holds its lock, and how many calls and tasks are at each place. -/
structure PipelineRun where
  state : PipelineState
  draining : Option DrainPhase
  metrics : PipelineMetrics
  admitted : ℕ
  startCounted : ℕ
  counted : ℕ
  running : ℕ
  returned : ℕ
  endCounted : ℕ
  resumeAdmitted : ℕ
  resumeRunning : ℕ
  failedStarts : ℕ
  drained : Bool

inductive PipelineAction where
  | start
  | pause
  | resume
  | stop (triggersStop : Bool)
  | drain (triggersStop : Bool)
  | drainSeesNone
  | drainStopped
  | handleEvent (tripped : Bool)
  | countStarted
  | countActive
  | startTrace (started : Bool)
  | executeReturns
  | countEnd (completed : Bool)
  | countInactive
  | resumeSuspendedTrace
  | resumeFails
  | resumeExecutes
  | resumeReturns
  deriving DecidableEq

namespace PipelineRun

def start : PipelineRun := ⟨.initializing, none, ⟨0, 0, 0, 0⟩, 0, 0, 0, 0, 0, 0, 0, 0, 0, false⟩

/-- The calls that take the lock of the state; they wait while a drain holds it. -/
def stepLocked (x : PipelineRun) : PipelineAction → PipelineRun
  | .start =>
    if x.state = .initializing ∨ x.state = .stopped then { x with state := .running, drained := false } else x
  -- the state has changed also where a trigger then fails
  | .pause => if x.state = .running then { x with state := .paused } else x
  | .resume => if x.state = .paused then { x with state := .running } else x
  | .stop triggersStop => if triggersStop then { x with state := .stopped } else x
  | .drain triggersStop =>
    if x.state = .running ∨ x.state = .paused then
      { x with state := .draining, draining := if triggersStop then some .waiting else none }
    else x
  | .handleEvent tripped =>
    if x.state = .running ∧ tripped = false then { x with admitted := x.admitted + 1 } else x
  | .resumeSuspendedTrace =>
    if x.state = .running then { x with resumeAdmitted := x.resumeAdmitted + 1 } else x
  | _ => x

def step (x : PipelineRun) : PipelineAction → Option PipelineRun
  | .drainSeesNone =>
    if x.draining = some .waiting ∧ x.metrics.tracesActive = 0 then some { x with draining := some .leaving }
    else none
  | .drainStopped =>
    if x.draining = some .leaving then some { x with state := .stopped, draining := none, drained := true }
    else none
  -- `record_trace_start`
  | .countStarted =>
    if x.admitted = 0 then none
    else some { x with
      admitted := x.admitted - 1
      startCounted := x.startCounted + 1
      metrics := { x.metrics with tracesStarted := x.metrics.tracesStarted + 1 } }
  | .countActive =>
    if x.startCounted = 0 then none
    else some { x with
      startCounted := x.startCounted - 1
      counted := x.counted + 1
      metrics := { x.metrics with tracesActive := x.metrics.tracesActive + 1 } }
  -- `self.executor.start_trace(event).await?`, and the task is spawned
  | .startTrace started =>
    if x.counted = 0 then none
    else if started then some { x with counted := x.counted - 1, running := x.running + 1 }
    else some { x with counted := x.counted - 1, failedStarts := x.failedStarts + 1 }
  | .executeReturns =>
    if x.running = 0 then none else some { x with running := x.running - 1, returned := x.returned + 1 }
  -- `record_trace_complete` or `record_trace_failed`
  | .countEnd completed =>
    if x.returned = 0 then none
    else some { x with
      returned := x.returned - 1
      endCounted := x.endCounted + 1
      metrics :=
        if completed then { x.metrics with tracesCompleted := x.metrics.tracesCompleted + 1 }
        else { x.metrics with tracesFailed := x.metrics.tracesFailed + 1 } }
  | .countInactive =>
    if x.endCounted = 0 then none
    else some { x with
      endCounted := x.endCounted - 1
      metrics := { x.metrics with tracesActive := x.metrics.tracesActive - 1 } }
  | .resumeFails =>
    if x.resumeAdmitted = 0 then none else some { x with resumeAdmitted := x.resumeAdmitted - 1 }
  | .resumeExecutes =>
    if x.resumeAdmitted = 0 then none
    else some { x with resumeAdmitted := x.resumeAdmitted - 1, resumeRunning := x.resumeRunning + 1 }
  | .resumeReturns =>
    if x.resumeRunning = 0 then none else some { x with resumeRunning := x.resumeRunning - 1 }
  | a => if x.draining = none then some (x.stepLocked a) else none

variable {x x' : PipelineRun}

/-! ### Metrics -/

def eventsInProgress (x : PipelineRun) : ℕ := x.admitted + x.startCounted + x.counted

/-- The background tasks between the return of `execute_trace` and their last counter update. -/
def finishing (x : PipelineRun) : ℕ := x.returned + x.endCounted

/-- The counter of active traces never underflows, and while no event is being handled it is the number
of background executions and completes the balance of the others. -/
structure MetricsBalance (x : PipelineRun) : Prop where
  noUnderflow : 0 ≤ x.metrics.tracesActive
  active : x.eventsInProgress = 0 → x.metrics.tracesActive = x.running
  total : x.eventsInProgress = 0 →
    (x.metrics.tracesStarted : ℤ) =
      x.metrics.tracesCompleted + x.metrics.tracesFailed + x.metrics.tracesActive

/-- Where the counts of the metrics come from. -/
structure Counted (x : PipelineRun) : Prop where
  active : x.metrics.tracesActive = x.counted + x.running + x.finishing + x.failedStarts
  started : x.metrics.tracesStarted = x.startCounted + x.counted + x.running + x.returned + x.failedStarts +
    x.metrics.tracesCompleted + x.metrics.tracesFailed

theorem stepLocked_counts (x : PipelineRun) (a : PipelineAction) :
    (x.stepLocked a).metrics = x.metrics ∧ (x.stepLocked a).startCounted = x.startCounted ∧
      (x.stepLocked a).counted = x.counted ∧ (x.stepLocked a).running = x.running ∧
      (x.stepLocked a).returned = x.returned ∧ (x.stepLocked a).endCounted = x.endCounted ∧
      (x.stepLocked a).failedStarts = x.failedStarts ∧ (x.stepLocked a).resumeRunning = x.resumeRunning := by
  unfold stepLocked
  split
  all_goals try split_ifs
  all_goals exact ⟨rfl, rfl, rfl, rfl, rfl, rfl, rfl, rfl⟩

theorem Counted.stepLocked (h : x.Counted) (a : PipelineAction) : (x.stepLocked a).Counted := by
  obtain ⟨hmetrics, hstart, hcounted, hrunning, hreturned, hend, hfailed, -⟩ := x.stepLocked_counts a
  refine ⟨?_, ?_⟩
  · rw [hmetrics, hcounted, hrunning, hfailed, finishing, hreturned, hend]
    exact h.active
  · rw [hmetrics, hstart, hcounted, hrunning, hreturned, hfailed]
    exact h.started

theorem Counted.step (h : x.Counted) (a : PipelineAction) (hs : x.step a = some x') : x'.Counted := by
  have hactive := h.active
  have hstarted := h.started
  unfold finishing at hactive
  unfold PipelineRun.step at hs
  split at hs
  all_goals split_ifs at hs
  all_goals cases hs
  -- the lock sections first; a counter or a place moves in the others
  all_goals first
    | exact ⟨h.active, h.started⟩
    | exact h.stepLocked _
    | refine ⟨?_, ?_⟩
      · simp only [finishing]
        omega
      · dsimp only
        omega

theorem counted_run (actions : List PipelineAction) (hrun : Machine.run step start actions = some x) :
    x.Counted :=
  Machine.run_invariant Counted (fun _ a _ h hs => h.step a hs) actions ⟨rfl, rfl⟩ hrun

theorem step_failedStarts (a : PipelineAction) (hs : x.step a = some x') :
    x'.failedStarts = x.failedStarts + [a].count (.startTrace false) := by
  obtain ⟨-, -, -, -, -, -, hlocked, -⟩ := x.stepLocked_counts a
  unfold PipelineRun.step at hs
  split at hs
  all_goals split_ifs at hs
  all_goals cases hs
  all_goals first
    | rfl
    | simp_all

theorem failedStarts_run (actions : List PipelineAction) (hrun : Machine.run step start actions = some x) :
    x.failedStarts = actions.count (.startTrace false) := by
  refine Machine.run_history (fun _ _ => false) (fun past x => x.failedStarts = past.count (.startTrace false))
    (fun past x a x' _ h hs => ?_) actions [] (Machine.happens_never actions) rfl hrun
  rw [step_failedStarts a hs, h, List.count_append]

/-- In every interleaving, whatever trace starts fail: the counter of active traces does not underflow,
and while no event is being handled it equals the number of background executions and balances the other
counters, if and only if (in that case) no trace start of the run has failed and no background task is
between the return of its execution and its last counter update. -/
theorem metricsBalance_iff (actions : List PipelineAction) (x : PipelineRun)
    (hrun : Machine.run step start actions = some x) :
    x.MetricsBalance ↔ (x.eventsInProgress = 0 → .startTrace false ∉ actions ∧ x.finishing = 0) := by
  obtain ⟨hactive, hstarted⟩ := counted_run actions hrun
  rw [← List.count_eq_zero, ← failedStarts_run actions hrun]
  unfold finishing at hactive
  constructor
  · intro h hidle
    have hrunning := h.active hidle
    unfold eventsInProgress at hidle
    unfold finishing
    omega
  · intro h
    refine ⟨by omega, fun hidle => ?_, fun hidle => ?_⟩
    · obtain ⟨hfailed, hfinishing⟩ := h hidle
      unfold eventsInProgress at hidle
      unfold finishing at hfinishing
      omega
    · obtain ⟨hfailed, hfinishing⟩ := h hidle
      unfold eventsInProgress at hidle
      unfold finishing at hfinishing
      omega

def startEvent (started : Bool) : List PipelineAction :=
  [.handleEvent false, .countStarted, .countActive, .startTrace started]

def balancedRun : List PipelineAction :=
  .start :: startEvent true ++ startEvent true ++ [.executeReturns, .countEnd true, .countInactive]

theorem balancedRun_balances :
    ∃ x, Machine.run step start balancedRun = some x ∧ x.eventsInProgress = 0 ∧ x.running = 1 ∧
      x.MetricsBalance := by
  have hend : (Machine.run step start balancedRun).any (fun x =>
      x.eventsInProgress = 0 ∧ x.running = 1 ∧ x.finishing = 0) = true := by
    decide
  obtain ⟨x, hx, h⟩ := (Option.any_eq_true _ _).mp hend
  obtain ⟨hidle, hrunning, hfinishing⟩ := of_decide_eq_true h
  exact ⟨x, hx, hidle, hrunning,
    (metricsBalance_iff balancedRun x hx).mpr fun _ => ⟨by decide, hfinishing⟩⟩

def failedStartRun : List PipelineAction := .start :: startEvent false

/-- Nothing runs and no event is being handled, and one trace stays active for good. -/
theorem failed_start_stays_active :
    ∃ x, Machine.run step start failedStartRun = some x ∧ x.eventsInProgress = 0 ∧ x.running = 0 ∧
      x.finishing = 0 ∧ x.metrics.tracesActive = 1 ∧ ¬ x.MetricsBalance := by
  have hend : (Machine.run step start failedStartRun).any (fun x =>
      x.eventsInProgress = 0 ∧ x.running = 0 ∧ x.finishing = 0 ∧ x.metrics.tracesActive = 1) = true := by
    decide
  obtain ⟨x, hx, h⟩ := (Option.any_eq_true _ _).mp hend
  obtain ⟨hidle, hrunning, hfinishing, hactive⟩ := of_decide_eq_true h
  refine ⟨x, hx, hidle, hrunning, hfinishing, hactive, fun hbalance => ?_⟩
  have hequal := hbalance.active hidle
  rw [hactive, hrunning] at hequal
  cases hequal

/-! ### Draining -/

def quiet (x : PipelineRun) : Bool := x.running = 0 && x.resumeRunning = 0

/-- However the run goes on before the next start, no execution is under way. -/
def StaysQuiet (x : PipelineRun) : Prop :=
  ∀ more x', .start ∉ more → Machine.run step x more = some x' → x'.quiet = true

/-- After a drain has stopped the pipeline, until the next start, nothing runs and nothing can start. -/
def DrainedMeansDrained (actions : List PipelineAction) : Prop :=
  ∀ before x, before <+: actions → Machine.run step start before = some x → x.drained = true → x.StaysQuiet

/-- Executions under way, and calls past their check that may still come to one. -/
def leftover (x : PipelineRun) : ℕ :=
  x.eventsInProgress + x.running + x.resumeAdmitted + x.resumeRunning

/-- A drain stops the pipeline past them. -/
def leavesBehind (x : PipelineRun) : PipelineAction → Bool
  | .drainStopped => x.leftover ≠ 0
  | _ => false

/-- A stopped pipeline without any execution or call on its way to one. -/
structure Settled (x : PipelineRun) : Prop where
  state : x.state = .stopped
  unlocked : x.draining = none
  leftover : x.leftover = 0

theorem Settled.stepLocked (h : x.Settled) (a : PipelineAction) (ha : a ≠ .start) : x.stepLocked a = x := by
  have hnot (state : PipelineState) (hne : state ≠ .stopped) : x.state ≠ state := by
    rw [h.state]
    exact Ne.symm hne
  cases a with
  | start => exact absurd rfl ha
  | pause => exact if_neg (hnot .running nofun)
  | resume => exact if_neg (hnot .paused nofun)
  | stop triggersStop =>
    unfold PipelineRun.stepLocked
    dsimp only
    split
    · rw [← h.state]
    · rfl
  | drain triggersStop =>
    exact if_neg fun hor => hor.elim (hnot .running nofun) (hnot .paused nofun)
  | handleEvent tripped => exact if_neg fun hboth => hnot .running nofun hboth.1
  | resumeSuspendedTrace => exact if_neg (hnot .running nofun)
  | _ => rfl

theorem Settled.step (h : x.Settled) (a : PipelineAction) (ha : a ≠ .start) (hs : x.step a = some x') :
    x'.Settled := by
  have hlocked := h.stepLocked a ha
  have hunlocked := h.unlocked
  have hleftover := h.leftover
  unfold PipelineRun.leftover eventsInProgress at hleftover
  unfold PipelineRun.step at hs
  split at hs
  all_goals split_ifs at hs
  all_goals cases hs
  -- no drain is under way and nothing is left that could move, but for tasks that have returned
  all_goals first
    | omega
    | exact ⟨h.state, h.unlocked, h.leftover⟩
    | rwa [hlocked]
    | rename_i hdraining
      simp [hunlocked] at hdraining

theorem step_drained (a : PipelineAction) (hstart : a ≠ .start) (hstop : a ≠ .drainStopped)
    (hs : x.step a = some x') : x'.drained = x.drained := by
  have hlocked : (x.stepLocked a).drained = x.drained := by
    unfold PipelineRun.stepLocked
    split
    · exact absurd rfl hstart
    all_goals try split_ifs
    all_goals rfl
  unfold PipelineRun.step at hs
  split at hs
  · split_ifs at hs
    cases hs
    rfl
  · exact absurd rfl hstop
  all_goals split_ifs at hs
  all_goals cases hs
  all_goals first
    | rfl
    | exact hlocked

theorem quiet_of_settled (h : x.Settled) : x.quiet = true := by
  have hleftover := h.leftover
  unfold PipelineRun.leftover at hleftover
  unfold quiet
  rw [Bool.and_eq_true, decide_eq_true_eq, decide_eq_true_eq]
  omega

theorem Settled.staysQuiet (h : x.Settled) : x.StaysQuiet := by
  intro more
  induction more generalizing x with
  | nil =>
    intro x' _ hrun
    cases hrun
    exact quiet_of_settled h
  | cons a more ih =>
    intro x' hstart hrun
    rw [List.mem_cons, not_or] at hstart
    obtain ⟨x₁, hs, hrest⟩ := Option.bind_eq_some_iff.mp hrun
    exact ih (h.step a (Ne.symm hstart.1) hs) x' hstart.2 hrest

theorem settled_step (h : x.drained = true → x.Settled) (a : PipelineAction)
    (hnot : x.leavesBehind a = false) (hs : x.step a = some x') (hdrained : x'.drained = true) :
    x'.Settled := by
  by_cases hstop : a = .drainStopped
  · subst hstop
    unfold leavesBehind at hnot
    dsimp only at hnot
    rw [decide_eq_false_iff_not, not_not] at hnot
    unfold PipelineRun.step at hs
    dsimp only at hs
    split_ifs at hs
    cases hs
    exact ⟨rfl, rfl, hnot⟩
  · by_cases hstart : a = .start
    · subst hstart
      unfold PipelineRun.step PipelineRun.stepLocked at hs
      dsimp only at hs
      split_ifs at hs
      · cases hs
        cases hdrained
      · cases hs
        exact h hdrained
    · rw [step_drained a hstart hstop hs] at hdrained
      exact (h hdrained).step a hstart hs

/-- Some continuation before the next start comes to an execution. -/
def MayRun (x : PipelineRun) : Prop :=
  ∃ more x', .start ∉ more ∧ Machine.run PipelineRun.step x more = some x' ∧ x'.quiet = false

theorem MayRun.cons {x₁ : PipelineRun} {a : PipelineAction} (ha : a ≠ .start) (hs : x.step a = some x₁)
    (h : x₁.MayRun) : x.MayRun := by
  obtain ⟨more, x', hmore, hrun, hnot⟩ := h
  refine ⟨a :: more, x', ?_, (Machine.run_cons hs more).trans hrun, hnot⟩
  rw [List.mem_cons, not_or]
  exact ⟨Ne.symm ha, hmore⟩

theorem mayRun_now (h : x.quiet = false) : x.MayRun := ⟨[], x, List.not_mem_nil, rfl, h⟩

theorem mayRun_counted (h : x.counted ≠ 0) : x.MayRun := by
  refine .cons (a := .startTrace true) nofun (by rw [PipelineRun.step, if_neg h, if_pos rfl]) ?_
  exact mayRun_now rfl

theorem mayRun_startCounted (h : x.startCounted ≠ 0) : x.MayRun := by
  refine .cons (a := .countActive) nofun (by rw [PipelineRun.step, if_neg h]) ?_
  exact mayRun_counted (Nat.succ_ne_zero _)

theorem mayRun_admitted (h : x.admitted ≠ 0) : x.MayRun := by
  refine .cons (a := .countStarted) nofun (by rw [PipelineRun.step, if_neg h]) ?_
  exact mayRun_startCounted (Nat.succ_ne_zero _)

theorem mayRun_resumeAdmitted (h : x.resumeAdmitted ≠ 0) : x.MayRun := by
  refine .cons (a := .resumeExecutes) nofun (by rw [PipelineRun.step, if_neg h]) ?_
  exact mayRun_now (Bool.and_false _)

theorem mayRun_of_leftover (h : x.leftover ≠ 0) : x.MayRun := by
  unfold PipelineRun.leftover eventsInProgress at h
  by_cases hadmitted : x.admitted = 0
  · by_cases hstart : x.startCounted = 0
    · by_cases hcounted : x.counted = 0
      · by_cases hresume : x.resumeAdmitted = 0
        · refine mayRun_now ?_
          unfold quiet
          by_cases hrunning : x.running = 0
          · have hresumed : x.resumeRunning ≠ 0 := by omega
            rw [decide_eq_false hresumed, Bool.and_false]
          · rw [decide_eq_false hrunning, Bool.false_and]
        · exact mayRun_resumeAdmitted hresume
      · exact mayRun_counted hcounted
    · exact mayRun_startCounted hstart
  · exact mayRun_admitted hadmitted

/-- In every interleaving of lifecycle calls, events and resumes: from every `Stopped` that a drain sets
until the next start, no execution runs or can start, however the run goes on, if and only if no drain
sets it while an execution is under way or a call past its state check may still come to one. -/
theorem drainedMeansDrained_iff (actions : List PipelineAction) (x : PipelineRun)
    (hrun : Machine.run step start actions = some x) :
    DrainedMeansDrained actions ↔ Machine.happens step leavesBehind start actions = false := by
  rw [Machine.not_happens_iff leavesBehind actions hrun]
  constructor
  · intro hdrained before a x₁ hpre hbefore
    by_contra hleaves
    rw [Bool.not_eq_false] at hleaves
    obtain rfl : a = .drainStopped := by
      unfold leavesBehind at hleaves
      split at hleaves
      · rfl
      · cases hleaves
    obtain ⟨x₂, hs, hrun₂⟩ := Machine.run_next hrun hpre hbefore
    unfold PipelineRun.step at hs
    dsimp only at hs
    split_ifs at hs
    cases hs
    have hleft : PipelineRun.leftover { x₁ with state := .stopped, draining := none, drained := true } ≠ 0 :=
      of_decide_eq_true hleaves
    obtain ⟨more, x', hmore, hgo, hnot⟩ := mayRun_of_leftover hleft
    have hquiet := hdrained _ _ hpre hrun₂ rfl more x' hmore hgo
    rw [hnot] at hquiet
    cases hquiet
  · intro hnone before x₁ hpre hbefore
    have hsettled := Machine.run_history leavesBehind (fun _ x => x.drained = true → x.Settled)
      (fun _ x a x' hnot h hs => settled_step h a hnot hs) before [] ?_ (fun h => Bool.noConfusion h) hbefore
    · exact fun hdrained => (hsettled hdrained).staysQuiet
    · exact (Machine.not_happens_iff leavesBehind before hbefore).mpr fun before' a x₂ hpre' =>
        hnone before' a x₂ (hpre'.trans hpre)

def patientDrain : List PipelineAction :=
  .start :: startEvent true ++
    [.drain true, .executeReturns, .countEnd true, .countInactive, .drainSeesNone, .drainStopped]

theorem patientDrain_drains :
    ∃ x, Machine.run step start patientDrain = some x ∧ x.drained = true ∧ x.metrics.tracesCompleted = 1 ∧
      DrainedMeansDrained patientDrain := by
  have hend : (Machine.run step start patientDrain).any (fun x =>
      x.drained = true ∧ x.metrics.tracesCompleted = 1) = true := by
    decide
  obtain ⟨x, hx, h⟩ := (Option.any_eq_true _ _).mp hend
  obtain ⟨hdrained, hcompleted⟩ := of_decide_eq_true h
  exact ⟨x, hx, hdrained, hcompleted, (drainedMeansDrained_iff patientDrain x hx).mpr (by decide)⟩

/-- An event has passed the check when the drain takes the lock, and is not counted yet. -/
def overtakenDrain : List PipelineAction :=
  [.start, .handleEvent false, .drain true, .drainSeesNone, .drainStopped]

/-- The drain finds no active trace and stops the pipeline; then the event's trace starts to run. -/
theorem overtaken_drain_runs_trace :
    (∃ x, Machine.run step start (overtakenDrain ++ [.countStarted, .countActive, .startTrace true]) = some x ∧
      x.state = .stopped ∧ x.drained = true ∧ x.running = 1) ∧ ¬ DrainedMeansDrained overtakenDrain := by
  have hend : (Machine.run step start (overtakenDrain ++ [.countStarted, .countActive, .startTrace true])).any
      (fun x => x.state = .stopped ∧ x.drained = true ∧ x.running = 1) = true := by
    decide
  obtain ⟨x, hx, h⟩ := (Option.any_eq_true _ _).mp hend
  obtain ⟨hstate, hdrained, hrunning⟩ := of_decide_eq_true h
  refine ⟨⟨x, hx, hstate, hdrained, hrunning⟩, fun hall => ?_⟩
  rw [Machine.run_append] at hx
  obtain ⟨x₁, hx₁, hmore⟩ := Option.bind_eq_some_iff.mp hx
  have hdrained₁ : (Machine.run step start overtakenDrain).all (fun x => x.drained) = true := by
    decide
  rw [hx₁, Option.all_some] at hdrained₁
  have hquiet := hall overtakenDrain x₁ List.prefix_rfl hx₁ hdrained₁
    [.countStarted, .countActive, .startTrace true] x (by decide) hmore
  unfold quiet at hquiet
  rw [hrunning] at hquiet
  cases hquiet

end PipelineRun
end Xerv
