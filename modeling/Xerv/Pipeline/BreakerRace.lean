import Xerv.Pipeline.CircuitBreaker

/-!
# The circuit breaker under concurrent calls

Every acquisition of a lock and every atomic update is one step. `record_failure` holds `failures` while
it reads the state, and `allow_request` holds `opened_at` while it moves to `HalfOpen`; every other lock is
released in the step that takes it.
-/

namespace Xerv
open Xerv.Lib

/-- What a call in progress does next. -/
inductive BreakerPhase where
  | allowState | allowOpenedAt | allowHalfOpen | allowStore | allowReject
  | successState | successAdd | successClosed | successOpenedAt | successFailures
  | failureFailures (now : ℕ) | failureState (now : ℕ) | failureOpen (now : ℕ) (halfOpen : Bool)
  | failureOpenedAt (now : ℕ) (halfOpen : Bool) | failureStore
  | resetClosed | resetOpenedAt | resetFailures | resetStore
  | returned (allowed : Option Bool)
  deriving DecidableEq, Repr

namespace BreakerPhase

/-- `record_failure` takes the time first. -/
def first (c : TimedCall) : BreakerPhase :=
  match c.call with
  | .allowRequest => .allowState
  | .recordSuccess => .successState
  | .recordFailure => .failureFailures c.time
  | .reset => .resetClosed

def next (b : CircuitBreaker) (now : ℕ) : BreakerPhase → CircuitBreaker × BreakerPhase
  | .allowState => (b, if b.state = .opened then .allowOpenedAt else .returned (some true))
  | .allowOpenedAt => (b, if b.recovers now then .allowHalfOpen else .allowReject)
  | .allowHalfOpen => ({ b with state := .halfOpen }, .allowStore)
  | .allowStore => ({ b with halfOpenSuccesses := 0 }, .returned (some true))
  | .allowReject => ({ b with rejectedCount := b.rejectedCount + 1 }, .returned (some false))
  | .successState => (b, if b.state = .halfOpen then .successAdd else .returned none)
  | .successAdd =>
    let successes := b.halfOpenSuccesses + 1
    ({ b with halfOpenSuccesses := successes },
      if b.config.successThreshold.toUInt64 ≤ successes then .successClosed else .returned none)
  | .successClosed => ({ b with state := .closed }, .successOpenedAt)
  | .successOpenedAt => ({ b with openedAt := none }, .successFailures)
  | .successFailures => ({ b with failures := [] }, .returned none)
  | .failureFailures now => (b.pushFailure now, .failureState now)
  | .failureState now =>
    (b, match b.state with
      | .closed =>
        if b.config.failureThreshold.toNat ≤ b.failures.length then .failureOpen now false else .returned none
      | .halfOpen => .failureOpen now true
      | .opened => .returned none)
  | .failureOpen now halfOpen => ({ b with state := .opened }, .failureOpenedAt now halfOpen)
  | .failureOpenedAt now halfOpen =>
    ({ b with openedAt := some now }, if halfOpen then .failureStore else .returned none)
  | .failureStore => ({ b with halfOpenSuccesses := 0 }, .returned none)
  | .resetClosed => ({ b with state := .closed }, .resetOpenedAt)
  | .resetOpenedAt => ({ b with openedAt := none }, .resetFailures)
  | .resetFailures => ({ b with failures := [] }, .resetStore)
  | .resetStore => ({ b with halfOpenSuccesses := 0 }, .returned none)
  | .returned allowed => (b, .returned allowed)

def hasReturned : BreakerPhase → Bool
  | .returned _ => true
  | _ => false

def holdsFailures : BreakerPhase → Bool
  | .failureState _ => true
  | _ => false

def holdsOpenedAt : BreakerPhase → Bool
  | .allowHalfOpen | .allowStore => true
  | _ => false

def takesFailures : BreakerPhase → Bool
  | .failureFailures _ | .successFailures | .resetFailures => true
  | _ => false

/-- About to write `opened_at = Some(now)`, after `state = Open`. -/
def stamps : BreakerPhase → Bool
  | .failureOpenedAt _ _ => true
  | _ => false

/-- About to write `opened_at = None`, after `state = Closed`. -/
def unstamps : BreakerPhase → Bool
  | .successOpenedAt | .resetOpenedAt => true
  | _ => false

/-- A lock that the call takes for writing is held by another. -/
def waits (p : BreakerPhase) (calls : List BreakerPhase) : Bool :=
  (p.takesFailures && calls.any holdsFailures) || ((p.stamps || p.unstamps) && calls.any holdsOpenedAt)

end BreakerPhase

structure BreakerRun where
  shared : CircuitBreaker
  calls : List BreakerPhase
  deriving DecidableEq, Repr

inductive BreakerAction where
  | enter (c : TimedCall)
  | advance (i now : ℕ)
  deriving DecidableEq, Repr

namespace BreakerRun

def start (config : CircuitBreakerConfig) : BreakerRun := ⟨.new config, []⟩

def step (s : BreakerRun) : BreakerAction → Option BreakerRun
  | .enter c => some { s with calls := s.calls ++ [.first c] }
  | .advance i now =>
    s.calls[i]?.bind fun p =>
      if p.hasReturned || p.waits s.calls then none
      else some ⟨(p.next s.shared now).1, s.calls.set i (p.next s.shared now).2⟩

def Quiet (s : BreakerRun) : Prop := ∀ p ∈ s.calls, p.hasReturned = true

end BreakerRun

/-- `Open`, with no time from which to recover. -/
def CircuitBreaker.Stuck (b : CircuitBreaker) : Prop := b.state = .opened ∧ b.openedAt = none

instance (b : CircuitBreaker) : Decidable b.Stuck := inferInstanceAs (Decidable (_ ∧ _))

instance (s : BreakerRun) : Decidable s.Quiet := inferInstanceAs (Decidable (∀ p ∈ s.calls, _))

/-! ### A call on its own -/

section Alone
variable {b : CircuitBreaker} {calls : List BreakerPhase}

def CircuitBreaker.answer (b : CircuitBreaker) (c : TimedCall) : Option Bool :=
  if c.call = .allowRequest then some (b.allowRequest c.time).1 else none

def BreakerPhase.finish (now : ℕ) : ℕ → CircuitBreaker × BreakerPhase → CircuitBreaker × BreakerPhase
  | 0, s => s
  | n + 1, s => finish now n (s.2.next s.1 now)

theorem any_of_returned {during : BreakerPhase → Bool} (hdone : ∀ answer, during (.returned answer) = false)
    (hcalls : ∀ q ∈ calls, q.hasReturned = true) : calls.any during = false := by
  refine List.any_eq_false.mpr fun q hq => ?_
  cases q with
  | returned answer =>
    rw [hdone answer]
    exact Bool.false_ne_true
  | _ => cases hcalls _ hq

theorem not_waits_of_returned (p : BreakerPhase) (hcalls : ∀ q ∈ calls, q.hasReturned = true) :
    p.waits (calls ++ [p]) = false := by
  have hfailures : calls.any BreakerPhase.holdsFailures = false := any_of_returned (fun _ => rfl) hcalls
  have hopened : calls.any BreakerPhase.holdsOpenedAt = false := any_of_returned (fun _ => rfl) hcalls
  unfold BreakerPhase.waits
  rw [List.any_append, List.any_append, hfailures, hopened]
  cases p with
  | _ => rfl

theorem finishes_alone (now n : ℕ) (p : BreakerPhase) (hcalls : ∀ q ∈ calls, q.hasReturned = true) :
    ∃ actions, Machine.run BreakerRun.step ⟨b, calls ++ [p]⟩ actions =
      some ⟨(BreakerPhase.finish now n (b, p)).1, calls ++ [(BreakerPhase.finish now n (b, p)).2]⟩ := by
  induction n generalizing b p with
  | zero => exact ⟨[], rfl⟩
  | succ n ih =>
    obtain ⟨actions, hrun⟩ := ih (b := (p.next b now).1) (p.next b now).2
    by_cases hp : p.hasReturned = true
    · have hnext : p.next b now = (b, p) := by
        cases p with
        | returned => rfl
        | _ => cases hp
      rw [hnext] at hrun
      refine ⟨actions, ?_⟩
      rw [BreakerPhase.finish, hnext]
      exact hrun
    · have hstep : BreakerRun.step ⟨b, calls ++ [p]⟩ (.advance calls.length now) =
          some ⟨(p.next b now).1, calls ++ [(p.next b now).2]⟩ := by
        simp [BreakerRun.step, hp, not_waits_of_returned p hcalls]
      exact ⟨.advance calls.length now :: actions, (Machine.run_cons hstep actions).trans hrun⟩

theorem finish_first (b : CircuitBreaker) (c : TimedCall) :
    BreakerPhase.finish c.time 5 (b, .first c) = (b.perform c, .returned (b.answer c)) := by
  obtain ⟨call, time⟩ := c
  cases call with
  | allowRequest =>
    rcases b.allowRequest_cases time with ⟨hstate, heq⟩ | ⟨hstate, hrecovers, heq⟩ | ⟨hstate, hrecovers, heq⟩
    · simp [BreakerPhase.finish, BreakerPhase.first, BreakerPhase.next, CircuitBreaker.perform,
        CircuitBreaker.answer, hstate, heq]
    · simp [BreakerPhase.finish, BreakerPhase.first, BreakerPhase.next, CircuitBreaker.perform,
        CircuitBreaker.answer, hstate, hrecovers, heq]
    · simp [BreakerPhase.finish, BreakerPhase.first, BreakerPhase.next, CircuitBreaker.perform,
        CircuitBreaker.answer, hstate, hrecovers, heq]
  | recordSuccess =>
    rcases b.recordSuccess_cases with ⟨hstate, heq⟩ | ⟨hstate, hreached, heq⟩ | ⟨hstate, hfew, heq⟩
    · simp [BreakerPhase.finish, BreakerPhase.first, BreakerPhase.next, CircuitBreaker.perform,
        CircuitBreaker.answer, hstate, heq]
    · simp [BreakerPhase.finish, BreakerPhase.first, BreakerPhase.next, CircuitBreaker.perform,
        CircuitBreaker.answer, hstate, hreached, heq]
    · simp [BreakerPhase.finish, BreakerPhase.first, BreakerPhase.next, CircuitBreaker.perform,
        CircuitBreaker.answer, hstate, hfew, heq]
  | recordFailure =>
    have hpush : (b.pushFailure time).state = b.state := rfl
    have hconfig : (b.pushFailure time).config = b.config := rfl
    rcases b.recordFailure_cases time with ⟨hstate, hreached, heq⟩ | ⟨hstate, hfew, heq⟩ | ⟨hstate, heq⟩ |
      ⟨hstate, heq⟩
    · simp [BreakerPhase.finish, BreakerPhase.first, BreakerPhase.next, CircuitBreaker.perform,
        CircuitBreaker.answer, hpush, hconfig, hstate, hreached, heq]
    · simp [BreakerPhase.finish, BreakerPhase.first, BreakerPhase.next, CircuitBreaker.perform,
        CircuitBreaker.answer, hpush, hconfig, hstate, hfew, heq]
    · simp [BreakerPhase.finish, BreakerPhase.first, BreakerPhase.next, CircuitBreaker.perform,
        CircuitBreaker.answer, hpush, hstate, heq]
    · simp [BreakerPhase.finish, BreakerPhase.first, BreakerPhase.next, CircuitBreaker.perform,
        CircuitBreaker.answer, hpush, hstate, heq]
  | reset => rfl

/-- A call that no other overlaps does what the call does in one piece. -/
theorem performs_alone (s : BreakerRun) (hquiet : s.Quiet) (c : TimedCall) :
    ∃ actions, Machine.run BreakerRun.step s (.enter c :: actions) =
      some ⟨s.shared.perform c, s.calls ++ [.returned (s.shared.answer c)]⟩ := by
  obtain ⟨actions, hrun⟩ := finishes_alone (b := s.shared) c.time 5 (.first c) hquiet
  rw [finish_first] at hrun
  exact ⟨actions, hrun⟩

end Alone

/-! ### Never stuck open -/

theorem BreakerPhase.next_cases (p : BreakerPhase) (b : CircuitBreaker) (now : ℕ) :
    (p.next b now).1.state ≠ .opened ∨ (p.next b now).1.openedAt ≠ none ∨ (p.next b now).2.stamps = true ∨
      ((p.next b now).1.state = b.state ∧ p.stamps = false ∧
        ((p.next b now).1.openedAt = b.openedAt ∨ p.unstamps = true)) := by
  cases p with
  | allowHalfOpen => exact .inl nofun
  | successClosed => exact .inl nofun
  | resetClosed => exact .inl nofun
  | failureOpenedAt => exact .inr (.inl nofun)
  | failureOpen => exact .inr (.inr (.inl rfl))
  | successOpenedAt => exact .inr (.inr (.inr ⟨rfl, rfl, .inr rfl⟩))
  | resetOpenedAt => exact .inr (.inr (.inr ⟨rfl, rfl, .inr rfl⟩))
  | _ => exact .inr (.inr (.inr ⟨rfl, rfl, .inl rfl⟩))

namespace BreakerRun
variable {s s' : BreakerRun}

theorem advance_cases {i now : ℕ} (h : s.step (.advance i now) = some s') :
    ∃ p, s.calls[i]? = some p ∧ p.hasReturned = false ∧ p.waits s.calls = false ∧
      s' = ⟨(p.next s.shared now).1, s.calls.set i (p.next s.shared now).2⟩ := by
  obtain ⟨p, hp, hnext⟩ := Option.bind_eq_some_iff.mp h
  by_cases hidle : (p.hasReturned || p.waits s.calls) = true
  · rw [if_pos hidle] at hnext
    cases hnext
  · rw [if_neg hidle] at hnext
    rw [Bool.not_eq_true, Bool.or_eq_false_iff] at hidle
    exact ⟨p, hp, hidle.1, hidle.2, (Option.some.inj hnext).symm⟩

def opening (s : BreakerRun) : Bool := s.calls.any BreakerPhase.stamps

/-- A close or a reset clears `opened_at` of a breaker that a failure has opened since. -/
def clearsOpened (s : BreakerRun) : BreakerAction → Bool
  | .enter _ => false
  | .advance i _ => s.calls[i]?.any BreakerPhase.unstamps && s.shared.state = .opened && !s.opening

/-- An open breaker without its time is about to get it. -/
def Stamping (s : BreakerRun) : Prop := s.shared.Stuck → s.opening = true

theorem start_stamping (config : CircuitBreakerConfig) : (start config).Stamping := fun h => by cases h.1

theorem opening_set {i : ℕ} {p q : BreakerPhase} {b : CircuitBreaker} (hp : s.calls[i]? = some p)
    (hstamps : p.stamps = false) (hopening : s.opening = true) : opening ⟨b, s.calls.set i q⟩ = true := by
  obtain ⟨r, hr, hstamp⟩ := List.any_eq_true.mp hopening
  obtain ⟨j, hj⟩ := List.getElem?_of_mem hr
  have hij : i ≠ j := by
    rintro rfl
    rw [hp] at hj
    cases hj
    cases hstamps.symm.trans hstamp
  refine List.any_eq_true.mpr ⟨r, List.mem_of_getElem? (i := j) ?_, hstamp⟩
  rw [List.getElem?_set_ne hij]
  exact hj

theorem step_stamping (a : BreakerAction) (hclears : s.clearsOpened a = false) (h : s.Stamping)
    (hs : s.step a = some s') : s'.Stamping := by
  cases a with
  | enter c =>
    cases hs
    intro hstuck
    refine List.any_append.trans ?_
    rw [Bool.or_eq_true]
    exact .inl (h hstuck)
  | advance i now =>
    obtain ⟨p, hp, -, -, rfl⟩ := advance_cases hs
    rintro ⟨hstate, hopenedAt⟩
    obtain hne | hsome | hstamp | ⟨hsame, hstamps, hrest⟩ := p.next_cases s.shared now
    · exact absurd hstate hne
    · exact absurd hopenedAt hsome
    · have hlt : i < s.calls.length := (List.getElem?_eq_some_iff.mp hp).1
      exact List.any_eq_true.mpr ⟨_, List.mem_set hlt _, hstamp⟩
    · have hopened : s.shared.state = .opened := hsame.symm.trans hstate
      refine opening_set hp hstamps ?_
      rcases hrest with hkept | hunstamps
      · exact h ⟨hopened, hkept.symm.trans hopenedAt⟩
      · have hlate : s.clearsOpened (.advance i now) = !s.opening := by
          simp [clearsOpened, hp, hunstamps, hopened]
        rw [hlate] at hclears
        simpa using hclears

theorem Quiet.not_opening (h : s.Quiet) : s.opening = false := any_of_returned (fun _ => rfl) h

end BreakerRun

open BreakerRun in
/-- In a run in which no close or reset clears the time of a breaker opened since, no state in which every
call has returned is stuck open. -/
theorem breaker_never_sticks (config : CircuitBreakerConfig) (actions : List BreakerAction)
    (hclears : Machine.happens step clearsOpened (start config) actions = false)
    (before : List BreakerAction) (s : BreakerRun) (hpre : before <+: actions)
    (hbefore : Machine.run step (start config) before = some s) (hquiet : s.Quiet) : ¬ s.shared.Stuck := by
  have hstamping : s.Stamping :=
    Machine.run_history clearsOpened (fun _ s => s.Stamping)
      (fun _ s a s' hclears h hs => step_stamping a hclears h hs) before []
      (Machine.happens_prefix clearsOpened hpre hclears) (start_stamping config) hbefore
  intro hstuck
  cases hquiet.not_opening.symm.trans (hstamping hstuck)

def touchyConfig : CircuitBreakerConfig := ⟨1, 60, 30, 1⟩

/-- A failure that has read `Closed`, and a reset that goes on to clear. -/
def failureUnderReset (rest : List BreakerAction) : List BreakerAction :=
  [.enter ⟨.recordFailure, 7⟩, .advance 0 7, .advance 0 7, .enter ⟨.reset, 8⟩, .advance 1 8, .advance 0 8] ++ rest

theorem recovers_of_time_last :
    ¬ (⟨⟨touchyConfig, .opened, [], 0, some 7, 0⟩, [.returned none, .returned none]⟩ : BreakerRun).shared.Stuck :=
  breaker_never_sticks touchyConfig
    (failureUnderReset [.advance 1 9, .advance 1 9, .advance 1 9, .advance 0 10]) (by decide)
    (failureUnderReset [.advance 1 9, .advance 1 9, .advance 1 9, .advance 0 10]) _ List.prefix_rfl
    (by decide) (by decide)

/-- Where the reset clears the time last, the breaker is open for good. -/
theorem sticks_after_reset :
    ¬ ∀ (config : CircuitBreakerConfig) (actions : List BreakerAction) (s : BreakerRun),
      Machine.run BreakerRun.step (BreakerRun.start config) actions = some s → s.Quiet → ¬ s.shared.Stuck := by
  intro h
  exact h touchyConfig (failureUnderReset [.advance 0 9, .advance 1 9, .advance 1 9, .advance 1 9])
    ⟨⟨touchyConfig, .opened, [], 0, none, 0⟩, [.returned none, .returned none]⟩ (by decide) (by decide)
    (by decide)

theorem CircuitBreaker.Stuck.perform {b : CircuitBreaker} (h : b.Stuck) {c : TimedCall} (hcall : c.call ≠ .reset) :
    (b.perform c).Stuck := by
  obtain ⟨hstate, hopenedAt⟩ := h
  have hnever : b.recovers c.time = false := by rw [CircuitBreaker.recovers, hopenedAt, Option.any_none]
  obtain ⟨call, time⟩ := c
  cases call with
  | allowRequest =>
    change (b.allowRequest time).2.Stuck
    rcases b.allowRequest_cases time with ⟨hne, -⟩ | ⟨-, hrecovers, -⟩ | ⟨-, -, heq⟩
    · exact absurd hstate hne
    · cases hnever.symm.trans hrecovers
    · rw [heq]
      exact ⟨hstate, hopenedAt⟩
  | recordSuccess =>
    change b.recordSuccess.Stuck
    rcases b.recordSuccess_cases with ⟨-, heq⟩ | ⟨hhalf, -⟩ | ⟨hhalf, -⟩
    · rw [heq]
      exact ⟨hstate, hopenedAt⟩
    · cases hstate.symm.trans hhalf
    · cases hstate.symm.trans hhalf
  | recordFailure =>
    change (b.recordFailure time).Stuck
    rcases b.recordFailure_cases time with ⟨hclosed, -⟩ | ⟨hclosed, -⟩ | ⟨hhalf, -⟩ | ⟨-, heq⟩
    · cases hstate.symm.trans hclosed
    · cases hstate.symm.trans hclosed
    · cases hstate.symm.trans hhalf
    · rw [heq]
      exact ⟨hstate, hopenedAt⟩
  | reset => exact absurd rfl hcall

/-- From a breaker that is stuck open no request is allowed before a reset. -/
theorem refuses_until_reset {b : CircuitBreaker} (h : b.Stuck) (calls : List TimedCall)
    (hcalls : ∀ c ∈ calls, c.call ≠ .reset) (now : ℕ) :
    ((calls.foldl CircuitBreaker.perform b).allowRequest now).1 = false := by
  induction calls generalizing b with
  | nil =>
    rcases b.allowRequest_cases now with ⟨hne, -⟩ | ⟨-, hrecovers, -⟩ | ⟨-, -, heq⟩
    · exact absurd h.1 hne
    · rw [CircuitBreaker.recovers, h.2] at hrecovers
      cases hrecovers
    · exact congrArg Prod.fst heq
  | cons c calls ih =>
    exact ih (h.perform (hcalls c List.mem_cons_self)) fun d hd => hcalls d (List.mem_cons_of_mem c hd)

end Xerv
