import Mathlib.Algebra.Order.Field.Rat
import Mathlib.Algebra.Order.Field.Basic
import Mathlib.Tactic.NormNum
import Xerv.Pipeline.Runs

/-!
# The error rate of a pipeline (`handle_event` of `pipeline/controller.rs`)

`handle_event` compares failures / started, over all traces since the pipeline was built, with the threshold
of the settings. The rate is an exact rational here; the threshold is any `f64`.
-/

namespace Xerv
open Xerv.Lib
open Cluster (PipelineId PipelineState)

/-- An `f64`, as the number it stands for. -/
inductive ExactF64 where
  | finite (value : ℚ) | infinity (negative : Bool) | nan
  deriving DecidableEq

/-- `rate > threshold`. -/
def ExactF64.exceeded (threshold : ExactF64) (rate : ℚ) : Bool :=
  match threshold with
  | .finite value => value < rate
  | .infinity negative => negative
  | .nan => false

/-- The window is read by no function of the pipeline. -/
structure PipelineSettings where
  circuitBreakerThreshold : ExactF64
  circuitBreakerWindow : ℕ

/-- `PipelineSettings::default`, with 0.05 as the nearest `f64`. -/
def PipelineSettings.standard : PipelineSettings := ⟨.finite (3602879701896397 / 72057594037927936), 60000000000⟩

namespace PipelineMetrics

def new : PipelineMetrics := ⟨0, 0, 0, 0⟩

def recordTraceStart (m : PipelineMetrics) : PipelineMetrics :=
  { m with tracesStarted := m.tracesStarted + 1, tracesActive := m.tracesActive + 1 }

def recordTraceComplete (m : PipelineMetrics) : PipelineMetrics :=
  { m with tracesCompleted := m.tracesCompleted + 1, tracesActive := m.tracesActive - 1 }

def recordTraceFailed (m : PipelineMetrics) : PipelineMetrics :=
  { m with tracesFailed := m.tracesFailed + 1, tracesActive := m.tracesActive - 1 }

def errorRate (m : PipelineMetrics) : ℚ :=
  if m.tracesStarted = 0 then 0 else m.tracesFailed / m.tracesStarted

end PipelineMetrics

/-- The decision to reject because of the error rate. -/
def PipelineSettings.rejects (settings : PipelineSettings) (m : PipelineMetrics) : Bool :=
  settings.circuitBreakerThreshold.exceeded m.errorRate

/-- `startTrace` is what the executor answers; the trace is counted also where it answers an error. -/
def Pipeline.handleEvent (p : Pipeline) (settings : PipelineSettings) (m : PipelineMetrics)
    (startTrace : Except XervError TraceId) : Except XervError TraceId × PipelineMetrics :=
  let broken : XervError :=
    .circuitBreakerOpen p.id.text (UInt64.ofNat m.tracesFailed) (UInt64.ofNat m.tracesStarted)
  if p.state ≠ .running then (.error broken, m)
  else if settings.rejects m then (.error broken, m)
  else (startTrace, m.recordTraceStart)

theorem Pipeline.handleEvent_cases (p : Pipeline) (settings : PipelineSettings) (m : PipelineMetrics)
    (startTrace : Except XervError TraceId) :
    (∃ e, p.handleEvent settings m startTrace = (.error e, m)) ∨
      (p.state = .running ∧ settings.rejects m = false ∧
        p.handleEvent settings m startTrace = (startTrace, m.recordTraceStart)) := by
  unfold Pipeline.handleEvent
  dsimp only
  by_cases hstate : p.state ≠ .running
  · rw [if_pos hstate]
    exact .inl ⟨_, rfl⟩
  · rw [if_neg hstate]
    cases hrejects : settings.rejects m with
    | true => exact .inl ⟨_, rfl⟩
    | false => exact .inr ⟨not_not.mp hstate, rfl, rfl⟩

inductive TrafficEvent where
  | handleEvent (state : PipelineState) (startTrace : Except XervError TraceId)
  | traceCompleted
  | traceFailed

structure TimedTraffic where
  event : TrafficEvent
  time : ℕ

/-- The counters, and how many background tasks have still to end. -/
structure PipelineTraffic where
  metrics : PipelineMetrics
  running : ℕ

namespace PipelineTraffic

def start : PipelineTraffic := ⟨.new, 0⟩

def step (id : PipelineId) (settings : PipelineSettings) (x : PipelineTraffic) (e : TimedTraffic) :
    Option PipelineTraffic :=
  match e.event with
  | .handleEvent state startTrace =>
    let handled := (⟨id, state⟩ : Pipeline).handleEvent settings x.metrics startTrace
    some ⟨handled.2, if handled.1.isOk then x.running + 1 else x.running⟩
  | .traceCompleted => if x.running = 0 then none else some ⟨x.metrics.recordTraceComplete, x.running - 1⟩
  | .traceFailed => if x.running = 0 then none else some ⟨x.metrics.recordTraceFailed, x.running - 1⟩

/-- What has happened comes in the order of its times, and before now. -/
def Timely (history : List TimedTraffic) (now : ℕ) : Prop :=
  (history.map TimedTraffic.time ++ [now]).Pairwise (· ≤ ·)

def recent (settings : PipelineSettings) (now : ℕ) (history : List TimedTraffic) : List TimedTraffic :=
  history.filter fun e => now - e.time ≤ settings.circuitBreakerWindow

/-- Histories that agree on the window are treated alike, and after a full window without failures a
pipeline that was rejecting accepts. -/
structure HonoursWindow (id : PipelineId) (settings : PipelineSettings) : Prop where
  alike : ∀ now history history' x x', Timely history now → Timely history' now →
    Machine.run (step id settings) start history = some x →
    Machine.run (step id settings) start history' = some x' →
    recent settings now history = recent settings now history' →
    settings.rejects x.metrics = settings.rejects x'.metrics
  recovers : ∀ now before later x x', Timely (before ++ later) now →
    Machine.run (step id settings) start before = some x →
    Machine.run (step id settings) start (before ++ later) = some x' → settings.rejects x.metrics = true →
    (∀ e ∈ before, settings.circuitBreakerWindow < now - e.time) →
    (∀ e ∈ recent settings now (before ++ later), e.event ≠ .traceFailed) → settings.rejects x'.metrics = false

variable {id : PipelineId} {settings : PipelineSettings} {x x' : PipelineTraffic}

/-- Every outcome is that of a trace which has been counted. -/
def Counted (x : PipelineTraffic) : Prop := x.running + x.metrics.tracesFailed ≤ x.metrics.tracesStarted

theorem Counted.step {e : TimedTraffic} (h : x.Counted) (hs : x.step id settings e = some x') : x'.Counted := by
  obtain ⟨event, time⟩ := e
  unfold Counted at h ⊢
  cases event with
  | handleEvent state startTrace =>
    obtain rfl := Option.some.inj hs
    rcases (⟨id, state⟩ : Pipeline).handleEvent_cases settings x.metrics startTrace with ⟨e, heq⟩ | ⟨-, -, heq⟩
    · rw [heq]
      exact h
    · rw [heq]
      simp only [PipelineMetrics.recordTraceStart]
      split
      · omega
      · omega
  | traceCompleted =>
    obtain ⟨hrunning, hx'⟩ := Option.ite_none_left_eq_some.mp hs
    obtain rfl := Option.some.inj hx'
    simp only [PipelineMetrics.recordTraceComplete]
    omega
  | traceFailed =>
    obtain ⟨hrunning, hx'⟩ := Option.ite_none_left_eq_some.mp hs
    obtain rfl := Option.some.inj hx'
    simp only [PipelineMetrics.recordTraceFailed]
    omega

theorem counted_run {history : List TimedTraffic} (hrun : Machine.run (step id settings) start history = some x) :
    x.Counted :=
  Machine.run_invariant Counted (fun _ _ _ h hs => h.step hs) history (by simp [Counted, start, PipelineMetrics.new]) hrun

theorem Counted.errorRate_le (h : x.Counted) : x.metrics.errorRate ≤ 1 := by
  unfold Counted at h
  unfold PipelineMetrics.errorRate
  split
  · exact zero_le_one
  · rename_i hstarted
    have hpos : (0 : ℚ) < x.metrics.tracesStarted := Nat.cast_pos.mpr (Nat.pos_of_ne_zero hstarted)
    rw [div_le_one hpos]
    exact Nat.cast_le.mpr (by omega)

end PipelineTraffic

theorem ExactF64.exceeded_mono (threshold : ExactF64) {rate rate' : ℚ} (hle : rate ≤ rate')
    (h : threshold.exceeded rate = true) : threshold.exceeded rate' = true := by
  cases threshold with
  | finite value => exact decide_eq_true ((of_decide_eq_true h).trans_le hle)
  | infinity negative => exact h
  | nan => exact h

namespace PipelineTraffic
variable {settings : PipelineSettings}

def oneFailure : List TimedTraffic := [⟨.handleEvent .running (.ok sampleTrace), 0⟩, ⟨.traceFailed, 0⟩]

theorem oneFailure_run (id : PipelineId) (h : settings.rejects .new = false) :
    Machine.run (step id settings) start oneFailure = some ⟨⟨1, 0, 1, 0⟩, 0⟩ := by
  have hstart : step id settings start ⟨.handleEvent .running (.ok sampleTrace), 0⟩ =
      some ⟨PipelineMetrics.new.recordTraceStart, 1⟩ := by
    simp [step, start, Pipeline.handleEvent, h, Except.isOk, Except.toBool]
  rw [oneFailure, Machine.run, hstart]
  rfl

theorem oneFailure_rate : (⟨1, 0, 1, 0⟩ : PipelineMetrics).errorRate = 1 := by
  norm_num [PipelineMetrics.errorRate]

/-- The pipeline honours its window if and only if no error rate exceeds the threshold. -/
theorem honoursWindow_iff (id : PipelineId) (settings : PipelineSettings) :
    HonoursWindow id settings ↔ settings.circuitBreakerThreshold.exceeded 1 = false := by
  constructor
  · intro h
    by_contra hexceeded
    rw [Bool.not_eq_false] at hexceeded
    cases hnew : settings.rejects .new with
    | true =>
      -- the threshold is below 0
      have haccepts := h.recovers 0 [] [] start start (by simp [Timely]) rfl rfl hnew (List.forall_mem_nil _)
        (List.forall_mem_nil _)
      cases hnew.symm.trans haccepts
    | false =>
      have hrejects : settings.rejects ⟨1, 0, 1, 0⟩ = true := by
        rw [PipelineSettings.rejects, oneFailure_rate]
        exact hexceeded
      have haccepts := h.recovers (settings.circuitBreakerWindow + 1) oneFailure [] _ _ (by simp [Timely, oneFailure])
        (oneFailure_run id hnew) (oneFailure_run id hnew) hrejects (by simp [oneFailure]) (by simp [recent, oneFailure])
      cases hrejects.symm.trans haccepts
  · intro hexceeded
    have hnever (history : List TimedTraffic) (x : PipelineTraffic)
        (hrun : Machine.run (step id settings) start history = some x) : settings.rejects x.metrics = false := by
      by_contra hrejects
      rw [Bool.not_eq_false] at hrejects
      have hone := ExactF64.exceeded_mono _ (counted_run hrun).errorRate_le hrejects
      cases hexceeded.symm.trans hone
    refine ⟨?_, ?_⟩
    · intro _ history history' x x' _ _ hrun hrun' _
      rw [hnever history x hrun, hnever history' x' hrun']
    · intro _ before later _ x' _ _ hrun _ _ _
      exact hnever _ x' hrun

theorem standard_accepts : PipelineSettings.standard.rejects .new = false := by
  norm_num [PipelineSettings.standard, PipelineSettings.rejects, ExactF64.exceeded, PipelineMetrics.errorRate,
    PipelineMetrics.new]

/-- With the default settings: a failure that is out of the window, and no history at all. -/
theorem old_failure_rejects :
    (recent .standard 60000000001 oneFailure = recent .standard 60000000001 [] ∧
      Machine.run (step Pipeline.runningPipeline.id .standard) start oneFailure = some ⟨⟨1, 0, 1, 0⟩, 0⟩ ∧
      PipelineSettings.standard.rejects ⟨1, 0, 1, 0⟩ = true ∧ PipelineSettings.standard.rejects start.metrics = false) ∧
      ¬ HonoursWindow Pipeline.runningPipeline.id .standard := by
  have hrun := oneFailure_run Pipeline.runningPipeline.id standard_accepts
  have hrejects : PipelineSettings.standard.rejects ⟨1, 0, 1, 0⟩ = true := by
    rw [PipelineSettings.rejects, oneFailure_rate]
    norm_num [PipelineSettings.standard, ExactF64.exceeded]
  have hout : recent .standard 60000000001 oneFailure = recent .standard 60000000001 [] := rfl
  refine ⟨⟨hout, hrun, hrejects, standard_accepts⟩, fun h => ?_⟩
  have halike := h.alike 60000000001 oneFailure [] _ start (by simp [Timely, oneFailure]) (by simp [Timely]) hrun rfl hout
  rw [hrejects] at halike
  cases halike.trans standard_accepts

end PipelineTraffic
end Xerv
