import Xerv.Cluster.State

/-!
# Lifecycle calls of a pipeline (`pipeline/controller.rs`)

Each call holds the write lock of the state from its first to its last line. The triggers are asked one
after another and the call returns the first error. What the triggers answer, and what `drain` reads of
`traces_active` while it waits, is the environment of a call.
-/

namespace Xerv
open Cluster (PipelineId PipelineState)

structure Pipeline where
  id : PipelineId
  state : PipelineState
  deriving DecidableEq

/-- How a call ends; `sawNone` says that the call has read that no trace is active. -/
structure LifecycleExit where
  result : Except XervError Unit
  pipeline : Pipeline
  sawNone : Bool

/-- What each trigger answers, in their order. -/
abbrev TriggerAnswers := List (Except XervError Unit)

namespace Pipeline

/-- `for trigger in &self.triggers { trigger.pause().await?; }`, and the same for `resume` and `stop`. -/
def askTriggers : TriggerAnswers → Except XervError Unit
  | [] => .ok ()
  | .ok _ :: rest => askTriggers rest
  | .error e :: _ => .error e

/-- From one of the given states to another one, and then the triggers. -/
def switch (p : Pipeline) (allowed : PipelineState → Bool) (next : PipelineState) (triggers : TriggerAnswers) :
    LifecycleExit :=
  if allowed p.state then ⟨askTriggers triggers, { p with state := next }, false⟩
  else ⟨.error (.circuitBreakerOpen p.id.text 0 0), p, false⟩

def start (p : Pipeline) : LifecycleExit :=
  p.switch (fun state => state = .initializing || state = .stopped) .running []

def pause (p : Pipeline) (triggers : TriggerAnswers) : LifecycleExit :=
  p.switch (fun state => state = .running) .paused triggers

def resume (p : Pipeline) (triggers : TriggerAnswers) : LifecycleExit :=
  p.switch (fun state => state = .paused) .running triggers

/-- `loads` is what the wait loop reads; `none` where it still waits. -/
def drain (p : Pipeline) (triggers : TriggerAnswers) (loads : List ℕ) : Option LifecycleExit :=
  if p.state ≠ .running ∧ p.state ≠ .paused then some ⟨.ok (), p, false⟩
  else
    match askTriggers triggers with
    | .error e => some ⟨.error e, { p with state := .draining }, false⟩
    | .ok _ => if 0 ∈ loads then some ⟨.ok (), { p with state := .stopped }, true⟩ else none

def stop (p : Pipeline) (triggers : TriggerAnswers) : LifecycleExit :=
  match askTriggers triggers with
  | .error e => ⟨.error e, p, false⟩
  | .ok _ => ⟨.ok (), { p with state := .stopped }, false⟩

end Pipeline

inductive LifecycleCall where
  | start
  | pause (triggers : TriggerAnswers)
  | resume (triggers : TriggerAnswers)
  | drain (triggers : TriggerAnswers) (loads : List ℕ)
  | stop (triggers : TriggerAnswers)

namespace Pipeline

def perform (p : Pipeline) : LifecycleCall → Option LifecycleExit
  | .start => some p.start
  | .pause triggers => some (p.pause triggers)
  | .resume triggers => some (p.resume triggers)
  | .drain triggers loads => p.drain triggers loads
  | .stop triggers => some (p.stop triggers)

/-- The states in which traces may be active that a drain has to wait for. -/
def mayBeActive (p : Pipeline) : Bool := p.state = .running || p.state = .paused

/-- A call that returns an error leaves the pipeline as it was; and where traces may be active, a later
drain that returns `Ok` has seen that none is. -/
structure FailsAtomically (p : Pipeline) (call : LifecycleCall) : Prop where
  unchanged : ∀ exit e, p.perform call = some exit → exit.result = .error e → exit.pipeline = p
  drained : ∀ exit e, p.perform call = some exit → exit.result = .error e → p.mayBeActive = true →
    ∀ triggers loads exit', exit.pipeline.drain triggers loads = some exit' → exit'.result = .ok () →
      exit'.sawNone = true

def someFail (triggers : TriggerAnswers) : Bool := triggers.any fun answer => !answer.isOk

/-- The state is changed, and then a trigger fails. -/
def leftHalfway (p : Pipeline) : LifecycleCall → Bool
  | .start => false
  | .pause triggers => p.state = .running && someFail triggers
  | .resume triggers => p.state = .paused && someFail triggers
  | .drain triggers _ => p.mayBeActive && someFail triggers
  | .stop _ => false

theorem askTriggers_cases (triggers : TriggerAnswers) :
    (someFail triggers = false ∧ askTriggers triggers = .ok ()) ∨
      (someFail triggers = true ∧ ∃ e, askTriggers triggers = .error e) := by
  induction triggers with
  | nil => exact .inl ⟨rfl, rfl⟩
  | cons answer rest ih =>
    cases answer with
    | error e => exact .inr ⟨rfl, e, rfl⟩
    | ok u => exact ih

theorem drain_sawNone {p : Pipeline} (hactive : p.mayBeActive = true) (triggers : TriggerAnswers)
    (loads : List ℕ) (exit : LifecycleExit) (h : p.drain triggers loads = some exit)
    (hok : exit.result = .ok ()) : exit.sawNone = true := by
  unfold mayBeActive at hactive
  rw [Bool.or_eq_true, decide_eq_true_eq, decide_eq_true_eq] at hactive
  unfold drain at h
  split at h
  · rename_i hneither
    exact absurd hactive (by tauto)
  · split at h
    · cases h
      cases hok
    · split at h
      · cases h
        rfl
      · cases h

theorem failsAtomically_of_unchanged {p : Pipeline} {call : LifecycleCall}
    (h : ∀ exit e, p.perform call = some exit → exit.result = .error e → exit.pipeline = p) :
    p.FailsAtomically call := by
  refine ⟨h, fun exit e hexit he hactive triggers loads exit' hdrain hok => ?_⟩
  rw [h exit e hexit he] at hdrain
  exact drain_sawNone hactive triggers loads exit' hdrain hok

theorem switch_unchanged_iff (p : Pipeline) (allowed : PipelineState → Bool) (next : PipelineState)
    (triggers : TriggerAnswers) (hnext : allowed next = false) :
    (∀ e, (p.switch allowed next triggers).result = .error e → (p.switch allowed next triggers).pipeline = p) ↔
      (allowed p.state && someFail triggers) = false := by
  unfold switch
  by_cases hallowed : allowed p.state = true
  · rw [if_pos hallowed, hallowed, Bool.true_and]
    rcases askTriggers_cases triggers with ⟨hnone, hok⟩ | ⟨hfail, e, he⟩
    · rw [hok, hnone]
      exact iff_of_true nofun rfl
    · rw [he, hfail]
      refine iff_of_false (fun hall => ?_) nofun
      have hsame := congrArg Pipeline.state (hall e rfl)
      rw [← hsame, hnext] at hallowed
      cases hallowed
  · rw [if_neg hallowed]
    rw [Bool.not_eq_true] at hallowed
    rw [hallowed]
    exact iff_of_true (fun _ _ => rfl) rfl

theorem drain_unchanged_iff (p : Pipeline) (triggers : TriggerAnswers) (loads : List ℕ) :
    (∀ exit e, p.drain triggers loads = some exit → exit.result = .error e → exit.pipeline = p) ↔
      (p.mayBeActive && someFail triggers) = false := by
  unfold drain mayBeActive
  by_cases hneither : p.state ≠ .running ∧ p.state ≠ .paused
  · rw [if_pos hneither, decide_eq_false hneither.1, decide_eq_false hneither.2]
    refine iff_of_true (fun exit e hexit he => ?_) rfl
    cases hexit
    cases he
  · have hactive : p.state = .running ∨ p.state = .paused := by tauto
    rw [if_neg hneither, ← Bool.decide_or, decide_eq_true hactive, Bool.true_and]
    rcases askTriggers_cases triggers with ⟨hnone, hok⟩ | ⟨hfail, e, he⟩
    · rw [hok, hnone]
      refine iff_of_true (fun exit e hexit he => ?_) rfl
      dsimp only at hexit
      split at hexit
      · cases hexit
        cases he
      · cases hexit
    · rw [he, hfail]
      refine iff_of_false (fun hall => ?_) nofun
      have hsame := congrArg Pipeline.state (hall _ e rfl rfl)
      rcases hactive with hrunning | hpaused
      · rw [hrunning] at hsame
        cases hsame
      · rw [hpaused] at hsame
        cases hsame

theorem stop_unchanged (p : Pipeline) (triggers : TriggerAnswers) (e : XervError)
    (h : (p.stop triggers).result = .error e) : (p.stop triggers).pipeline = p := by
  unfold stop at *
  split at h
  · rfl
  · cases h

theorem unchanged_iff (p : Pipeline) (call : LifecycleCall) :
    (∀ exit e, p.perform call = some exit → exit.result = .error e → exit.pipeline = p) ↔
      p.leftHalfway call = false := by
  have hsome (exit₀ : LifecycleExit) :
      (∀ exit e, some exit₀ = some exit → exit.result = .error e → exit.pipeline = p) ↔
        ∀ e, exit₀.result = .error e → exit₀.pipeline = p := by
    constructor
    · exact fun h e he => h exit₀ e rfl he
    · rintro h exit e ⟨⟩ he
      exact h e he
  cases call with
  | start =>
    refine (hsome p.start).trans (iff_of_true (fun e he => ?_) rfl)
    unfold start switch at *
    split at he
    · cases he
    · rename_i hnot
      rw [if_neg hnot]
  | pause triggers => exact (hsome _).trans (switch_unchanged_iff p _ _ triggers rfl)
  | resume triggers => exact (hsome _).trans (switch_unchanged_iff p _ _ triggers rfl)
  | drain triggers loads => exact drain_unchanged_iff p triggers loads
  | stop triggers => exact (hsome _).trans (iff_of_true (p.stop_unchanged triggers) rfl)

/-- For every state and whatever the triggers answer: a lifecycle call that returns an error leaves the
pipeline as it was, and a drain after it still waits for the active traces, if and only if it is not a
`pause`, `resume` or `drain` that is allowed in the state and meets a failing trigger. -/
theorem lifecycle_failsAtomically_iff (p : Pipeline) (call : LifecycleCall) :
    p.FailsAtomically call ↔ p.leftHalfway call = false := by
  rw [← unchanged_iff]
  exact ⟨FailsAtomically.unchanged, failsAtomically_of_unchanged⟩

def runningPipeline : Pipeline := ⟨⟨"orders", 1⟩, .running⟩

def stopFails : TriggerAnswers := [.error (.configValue "port" "address in use")]

/-- A trigger fails to stop: the drain fails and leaves the pipeline draining, and the drain that is
tried next returns `Ok` at once, whatever is still active. -/
theorem failed_drain_skips_wait :
    (∃ exit e, runningPipeline.drain stopFails [3] = some exit ∧ exit.result = .error e ∧
      exit.pipeline.state = .draining ∧
      exit.pipeline.drain stopFails [3] = some ⟨.ok (), exit.pipeline, false⟩) ∧
      ¬ runningPipeline.FailsAtomically (.drain stopFails [3]) := by
  refine ⟨⟨_, _, rfl, rfl, rfl, rfl⟩, fun hatomic => ?_⟩
  have hsame := hatomic.unchanged _ _ rfl rfl
  exact absurd (congrArg Pipeline.state hsame) (by decide)

end Pipeline
end Xerv
