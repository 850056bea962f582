import Mathlib.Data.List.DropRight
import Xerv.Lib.Machine
import Xerv.Lib.SlidingWindow

/-!
# The circuit breaker (`circuit_breaker.rs`)

Instants are counted in nanoseconds; `duration_since` and `elapsed` are 0 where the other instant is
the later one. Here every call ends before the next one begins.
-/

namespace Xerv
open Xerv.Lib

inductive CircuitState where
  | closed | opened | halfOpen
  deriving DecidableEq, Repr

structure CircuitBreakerConfig where
  failureThreshold : UInt32
  failureWindowSecs : UInt64
  recoveryTimeoutSecs : UInt64
  successThreshold : UInt32
  deriving DecidableEq, Repr

/-- `CircuitBreakerConfig::default`. -/
def CircuitBreakerConfig.standard : CircuitBreakerConfig := ⟨5, 60, 30, 3⟩

/-- `Duration::from_secs`. -/
def fromSecs (secs : UInt64) : ℕ := secs.toNat * 1000000000

structure CircuitBreaker where
  config : CircuitBreakerConfig
  state : CircuitState
  failures : List ℕ
  halfOpenSuccesses : UInt64
  openedAt : Option ℕ
  rejectedCount : UInt64
  deriving DecidableEq, Repr

namespace CircuitBreaker

def new (config : CircuitBreakerConfig) : CircuitBreaker := ⟨config, .closed, [], 0, none, 0⟩

def withDefaults : CircuitBreaker := new .standard

def window (b : CircuitBreaker) : ℕ := fromSecs b.config.failureWindowSecs

def recovers (b : CircuitBreaker) (now : ℕ) : Bool :=
  b.openedAt.any fun openedAt => fromSecs b.config.recoveryTimeoutSecs ≤ now - openedAt

def allowRequest (b : CircuitBreaker) (now : ℕ) : Bool × CircuitBreaker :=
  match b.state with
  | .closed => (true, b)
  | .opened =>
    if b.recovers now then (true, { b with state := .halfOpen, halfOpenSuccesses := 0 })
    else (false, { b with rejectedCount := b.rejectedCount + 1 })
  | .halfOpen => (true, b)

def recordSuccess (b : CircuitBreaker) : CircuitBreaker :=
  if b.state = .halfOpen then
    let successes := b.halfOpenSuccesses + 1
    if b.config.successThreshold.toUInt64 ≤ successes then
      { b with state := .closed, openedAt := none, failures := [], halfOpenSuccesses := successes }
    else { b with halfOpenSuccesses := successes }
  else b

def stale (b : CircuitBreaker) (now oldest : ℕ) : Bool := b.window < now - oldest

/-- Without the failures outside the window, and with this one. -/
def pushFailure (b : CircuitBreaker) (now : ℕ) : CircuitBreaker :=
  { b with failures := b.failures.dropWhile (b.stale now) ++ [now] }

def recordFailure (b : CircuitBreaker) (now : ℕ) : CircuitBreaker :=
  let b := b.pushFailure now
  match b.state with
  | .closed =>
    if b.config.failureThreshold.toNat ≤ b.failures.length then
      { b with state := .opened, openedAt := some now }
    else b
  | .halfOpen => { b with state := .opened, openedAt := some now, halfOpenSuccesses := 0 }
  | .opened => b

def failureCount (b : CircuitBreaker) (now : ℕ) : ℕ := b.failures.countP fun t => now - t ≤ b.window

def reset (b : CircuitBreaker) : CircuitBreaker :=
  { b with state := .closed, openedAt := none, failures := [], halfOpenSuccesses := 0 }

end CircuitBreaker

inductive BreakerCall where
  | allowRequest | recordSuccess | recordFailure | reset
  deriving DecidableEq, Repr

structure TimedCall where
  call : BreakerCall
  time : ℕ
  deriving DecidableEq, Repr

namespace CircuitBreaker

def perform (b : CircuitBreaker) (c : TimedCall) : CircuitBreaker :=
  match c.call with
  | .allowRequest => (b.allowRequest c.time).2
  | .recordSuccess => b.recordSuccess
  | .recordFailure => b.recordFailure c.time
  | .reset => b.reset

def after (config : CircuitBreakerConfig) (calls : List TimedCall) : CircuitBreaker :=
  calls.foldl perform (new config)

end CircuitBreaker

/-! ### What has happened -/

/-- A call with the states before and after it. -/
structure BreakerStep where
  before : CircuitState
  call : BreakerCall
  time : ℕ
  after : CircuitState
  deriving DecidableEq, Repr

namespace BreakerStep

/-- A close or a reset. -/
def closes (s : BreakerStep) : Bool := s.call = .reset || (s.before ≠ .closed && s.after = .closed)

def opens (s : BreakerStep) : Bool := s.before ≠ .opened && s.after = .opened

def testing (s : BreakerStep) : Bool := s.before = .halfOpen && s.call ≠ .recordFailure

end BreakerStep

def CircuitBreaker.stepOf (b : CircuitBreaker) (c : TimedCall) : BreakerStep :=
  ⟨b.state, c.call, c.time, (b.perform c).state⟩

def CircuitBreaker.steps (b : CircuitBreaker) : List TimedCall → List BreakerStep
  | [] => []
  | c :: calls => b.stepOf c :: (b.perform c).steps calls

/-- The steps of the calls, from a new breaker on. -/
def breakerLog (config : CircuitBreakerConfig) (calls : List TimedCall) : List BreakerStep :=
  (CircuitBreaker.new config).steps calls

/-- The times of the failures recorded since the last close or reset. -/
def failuresSinceClose (log : List BreakerStep) : List ℕ :=
  ((log.rtakeWhile fun s => !s.closes).filter fun s => s.call = .recordFailure).map BreakerStep.time

def lastOpening (log : List BreakerStep) : Option ℕ := (log.filter BreakerStep.opens).getLast?.map BreakerStep.time

/-- The successes recorded in `HalfOpen` up to now, with no failure in between. -/
def halfOpenStreak (log : List BreakerStep) : ℕ :=
  (log.rtakeWhile BreakerStep.testing).countP fun s => s.call = .recordSuccess

section Log
variable (config : CircuitBreakerConfig) (calls : List TimedCall) (c : TimedCall)

theorem after_concat : CircuitBreaker.after config (calls ++ [c]) = (CircuitBreaker.after config calls).perform c :=
  Machine.foldl_concat _ _ _ _

theorem steps_concat (b : CircuitBreaker) :
    b.steps (calls ++ [c]) = b.steps calls ++ [(calls.foldl CircuitBreaker.perform b).stepOf c] := by
  induction calls generalizing b with
  | nil => rfl
  | cons d calls ih => exact congrArg (b.stepOf d :: ·) (ih (b.perform d))

theorem breakerLog_concat :
    breakerLog config (calls ++ [c]) = breakerLog config calls ++ [(CircuitBreaker.after config calls).stepOf c] :=
  steps_concat calls c _

variable (log : List BreakerStep) (s : BreakerStep)

theorem failuresSinceClose_concat :
    failuresSinceClose (log ++ [s]) =
      if s.closes then [] else failuresSinceClose log ++ if s.call = .recordFailure then [s.time] else [] := by
  unfold failuresSinceClose
  by_cases hs : s.closes = true
  · rw [if_pos hs, List.rtakeWhile_concat_neg _ _ _ (by simp [hs])]
    rfl
  · rw [if_neg hs, List.rtakeWhile_concat_pos _ _ _ (by simp [hs]), List.filter_append, List.map_append]
    by_cases hcall : s.call = .recordFailure
    · simp [hcall]
    · simp [hcall]

theorem lastOpening_concat : lastOpening (log ++ [s]) = if s.opens then some s.time else lastOpening log := by
  unfold lastOpening
  by_cases hs : s.opens = true
  · simp [List.filter_append, hs]
  · simp [List.filter_append, hs]

theorem halfOpenStreak_concat :
    halfOpenStreak (log ++ [s]) =
      if s.testing then halfOpenStreak log + if s.call = .recordSuccess then 1 else 0 else 0 := by
  unfold halfOpenStreak
  by_cases hs : s.testing = true
  · rw [if_pos hs, List.rtakeWhile_concat_pos _ _ _ hs, List.countP_append]
    by_cases hcall : s.call = .recordSuccess
    · simp [hcall]
    · simp [hcall]
  · rw [if_neg hs, List.rtakeWhile_concat_neg _ _ _ hs]
    rfl

end Log

/-! ### The automaton -/

namespace CircuitBreaker
variable {b : CircuitBreaker}

theorem allowRequest_cases (b : CircuitBreaker) (now : ℕ) :
    (b.state ≠ .opened ∧ b.allowRequest now = (true, b)) ∨
      (b.state = .opened ∧ b.recovers now = true ∧
        b.allowRequest now = (true, { b with state := .halfOpen, halfOpenSuccesses := 0 })) ∨
      (b.state = .opened ∧ b.recovers now = false ∧
        b.allowRequest now = (false, { b with rejectedCount := b.rejectedCount + 1 })) := by
  unfold allowRequest
  cases hstate : b.state with
  | closed => exact .inl ⟨nofun, rfl⟩
  | halfOpen => exact .inl ⟨nofun, rfl⟩
  | opened =>
    cases hrecovers : b.recovers now with
    | true => exact .inr (.inl ⟨rfl, rfl, rfl⟩)
    | false => exact .inr (.inr ⟨rfl, rfl, rfl⟩)

theorem allowRequest_of_ne (b : CircuitBreaker) {now : ℕ} (h : b.state ≠ .opened) : b.allowRequest now = (true, b) := by
  rcases b.allowRequest_cases now with ⟨-, heq⟩ | ⟨hopened, -⟩ | ⟨hopened, -⟩
  · exact heq
  · exact absurd hopened h
  · exact absurd hopened h

theorem recordSuccess_cases (b : CircuitBreaker) :
    (b.state ≠ .halfOpen ∧ b.recordSuccess = b) ∨
      (b.state = .halfOpen ∧ b.config.successThreshold.toUInt64 ≤ b.halfOpenSuccesses + 1 ∧
        b.recordSuccess = { b with
          state := .closed, openedAt := none, failures := [], halfOpenSuccesses := b.halfOpenSuccesses + 1 }) ∨
      (b.state = .halfOpen ∧ ¬ b.config.successThreshold.toUInt64 ≤ b.halfOpenSuccesses + 1 ∧
        b.recordSuccess = { b with halfOpenSuccesses := b.halfOpenSuccesses + 1 }) := by
  unfold recordSuccess
  by_cases hstate : b.state = .halfOpen
  · rw [if_pos hstate]
    by_cases hreached : b.config.successThreshold.toUInt64 ≤ b.halfOpenSuccesses + 1
    · exact .inr (.inl ⟨hstate, hreached, if_pos hreached⟩)
    · exact .inr (.inr ⟨hstate, hreached, if_neg hreached⟩)
  · exact .inl ⟨hstate, if_neg hstate⟩

theorem recordFailure_cases (b : CircuitBreaker) (now : ℕ) :
    (b.state = .closed ∧ b.config.failureThreshold.toNat ≤ (b.pushFailure now).failures.length ∧
        b.recordFailure now = { b.pushFailure now with state := .opened, openedAt := some now }) ∨
      (b.state = .closed ∧ ¬ b.config.failureThreshold.toNat ≤ (b.pushFailure now).failures.length ∧
        b.recordFailure now = b.pushFailure now) ∨
      (b.state = .halfOpen ∧ b.recordFailure now =
        { b.pushFailure now with state := .opened, openedAt := some now, halfOpenSuccesses := 0 }) ∨
      (b.state = .opened ∧ b.recordFailure now = b.pushFailure now) := by
  have hpush : (b.pushFailure now).state = b.state := rfl
  have hconfig : (b.pushFailure now).config = b.config := rfl
  unfold recordFailure
  dsimp only
  rw [hpush, hconfig]
  cases hstate : b.state with
  | closed =>
    by_cases hreached : b.config.failureThreshold.toNat ≤ (b.pushFailure now).failures.length
    · exact .inl ⟨rfl, hreached, if_pos hreached⟩
    · exact .inr (.inl ⟨rfl, hreached, if_neg hreached⟩)
  | halfOpen => exact .inr (.inr (.inl ⟨rfl, rfl⟩))
  | opened => exact .inr (.inr (.inr ⟨rfl, rfl⟩))

theorem dropWhile_stale (b : CircuitBreaker) (now : ℕ) {ts : List ℕ} (h : ts.Pairwise (· ≤ ·)) :
    ts.dropWhile (b.stale now) = ts.filter fun t => now - t ≤ b.window := dropAged_eq_filter b.window now h

/-- The breaker knows of its history what it decides by. -/
structure Recalls (b : CircuitBreaker) (log : List BreakerStep) (now : ℕ) : Prop where
  failures : ∃ old, failuresSinceClose log = old ++ b.failures ∧ ∀ t ∈ old, b.stale now t = true
  sorted : b.failures.Pairwise (· ≤ ·)
  past : ∀ t ∈ b.failures, t ≤ now
  opened : b.state = .opened → b.openedAt = lastOpening log
  streak : b.state = .halfOpen → b.halfOpenSuccesses.toNat = halfOpenStreak log
  few : b.state = .halfOpen → b.halfOpenSuccesses.toNat ≤ b.config.successThreshold.toNat
  stamped : b.openedAt.isSome = true ↔ b.state ≠ .closed

theorem Recalls.new (config : CircuitBreakerConfig) : (new config).Recalls [] 0 where
  failures := ⟨[], rfl, fun t ht => absurd ht List.not_mem_nil⟩
  sorted := .nil
  past _ ht := absurd ht List.not_mem_nil
  opened h := by cases h
  streak h := by cases h
  few h := by cases h
  stamped := by simp [CircuitBreaker.new]

variable {log : List BreakerStep} {now : ℕ}

theorem Recalls.counted (h : b.Recalls log now) {time : ℕ} (htime : now ≤ time) :
    ((failuresSinceClose log ++ [time]).filter fun t => time - t ≤ b.window) = (b.pushFailure time).failures := by
  obtain ⟨old, heq, hold⟩ := h.failures
  have hout : (old.filter fun t => time - t ≤ b.window) = [] := by
    refine List.filter_eq_nil_iff.mpr fun t ht => ?_
    have hstale := of_decide_eq_true (hold t ht)
    rw [decide_eq_true_eq]
    omega
  have hself : ([time].filter fun t => time - t ≤ b.window) = [time] := by simp
  rw [heq, List.filter_append, List.filter_append, hout, hself, List.nil_append]
  unfold pushFailure
  rw [dropWhile_stale b time h.sorted]

theorem Recalls.later (h : b.Recalls log now) {time : ℕ} (htime : now ≤ time) : b.Recalls log time where
  failures := by
    obtain ⟨old, heq, hold⟩ := h.failures
    refine ⟨old, heq, fun t ht => ?_⟩
    have hstale := of_decide_eq_true (hold t ht)
    exact decide_eq_true (by omega)
  sorted := h.sorted
  past t ht := (h.past t ht).trans htime
  opened := h.opened
  streak := h.streak
  few := h.few
  stamped := h.stamped

theorem Recalls.pushed (h : b.Recalls log now) :
    (∃ old, failuresSinceClose log ++ [now] = old ++ (b.pushFailure now).failures ∧
      ∀ t ∈ old, b.stale now t = true) ∧
    (b.pushFailure now).failures.Pairwise (· ≤ ·) ∧ ∀ t ∈ (b.pushFailure now).failures, t ≤ now := by
  obtain ⟨old, heq, hold⟩ := h.failures
  have hkept : (b.failures.dropWhile (b.stale now)).Sublist b.failures := List.dropWhile_sublist _
  refine ⟨⟨old ++ b.failures.takeWhile (b.stale now), ?_, ?_⟩, ?_, ?_⟩
  · change _ = old ++ b.failures.takeWhile _ ++ (b.failures.dropWhile _ ++ [now])
    rw [← List.append_assoc, List.append_assoc old, List.takeWhile_append_dropWhile, heq]
  · intro t ht
    rcases List.mem_append.mp ht with ht | ht
    · exact hold t ht
    · exact List.mem_takeWhile_imp ht
  · refine List.pairwise_append.mpr ⟨h.sorted.sublist hkept, List.pairwise_singleton _ _, fun t ht u hu => ?_⟩
    rw [List.mem_singleton.mp hu]
    exact h.past t (hkept.subset ht)
  · intro t ht
    rcases List.mem_append.mp ht with ht | ht
    · exact h.past t (hkept.subset ht)
    · exact Nat.le_of_eq (List.mem_singleton.mp ht)

theorem Recalls.failures_kept (h : b.Recalls log now) {s : BreakerStep} (hcloses : s.closes = false)
    (hcall : s.call ≠ .recordFailure) :
    ∃ old, failuresSinceClose (log ++ [s]) = old ++ b.failures ∧ ∀ t ∈ old, b.stale now t = true := by
  rw [failuresSinceClose_concat, hcloses, if_neg hcall, List.append_nil]
  exact h.failures

theorem Recalls.asked (h : b.Recalls log now) :
    (b.perform ⟨.allowRequest, now⟩).Recalls (log ++ [b.stepOf ⟨.allowRequest, now⟩]) now := by
  have hperform : b.perform ⟨.allowRequest, now⟩ = (b.allowRequest now).2 := rfl
  obtain ⟨hstate, heq⟩ | ⟨hstate, -, heq⟩ | ⟨hstate, -, heq⟩ := b.allowRequest_cases now
  · rw [heq] at hperform
    have hcloses : (b.stepOf ⟨.allowRequest, now⟩).closes = false := by
      simp [BreakerStep.closes, stepOf, hperform]
    rw [hperform]
    refine ⟨h.failures_kept hcloses nofun, h.sorted, h.past, fun hopened => absurd hopened hstate, fun hhalf => ?_,
      h.few, h.stamped⟩
    have htesting : (b.stepOf ⟨.allowRequest, now⟩).testing = true :=
      Bool.and_eq_true_iff.mpr ⟨decide_eq_true hhalf, rfl⟩
    rw [halfOpenStreak_concat, htesting]
    exact h.streak hhalf
  · rw [heq] at hperform
    have hcloses : (b.stepOf ⟨.allowRequest, now⟩).closes = false := by
      simp [BreakerStep.closes, stepOf, hperform]
    have hstamped := h.stamped.mpr (by rw [hstate]; nofun)
    rw [hperform]
    refine ⟨h.failures_kept hcloses nofun, h.sorted, h.past, nofun, fun _ => ?_, fun _ => Nat.zero_le _,
      iff_of_true hstamped nofun⟩
    rw [halfOpenStreak_concat]
    simp [BreakerStep.testing, stepOf, hstate]
  · rw [heq] at hperform
    have hcloses : (b.stepOf ⟨.allowRequest, now⟩).closes = false := by
      simp [BreakerStep.closes, stepOf, hperform, hstate]
    have hopens : (b.stepOf ⟨.allowRequest, now⟩).opens = false := by
      simp [BreakerStep.opens, stepOf, hstate]
    rw [hperform]
    refine ⟨h.failures_kept hcloses nofun, h.sorted, h.past, fun _ => ?_, fun hhalf => ?_, h.few, h.stamped⟩
    · rw [lastOpening_concat, hopens]
      exact h.opened hstate
    · cases hstate.symm.trans hhalf

theorem Recalls.succeeded (h : b.Recalls log now) :
    (b.perform ⟨.recordSuccess, now⟩).Recalls (log ++ [b.stepOf ⟨.recordSuccess, now⟩]) now := by
  have hperform : b.perform ⟨.recordSuccess, now⟩ = b.recordSuccess := rfl
  obtain ⟨hstate, heq⟩ | ⟨hstate, -, heq⟩ | ⟨hstate, hfew, heq⟩ := b.recordSuccess_cases
  · rw [heq] at hperform
    have hcloses : (b.stepOf ⟨.recordSuccess, now⟩).closes = false := by
      simp [BreakerStep.closes, stepOf, hperform]
    have hopens : (b.stepOf ⟨.recordSuccess, now⟩).opens = false := by
      simp [BreakerStep.opens, stepOf, hperform]
    rw [hperform]
    refine ⟨h.failures_kept hcloses nofun, h.sorted, h.past, fun hopened => ?_, fun hhalf => absurd hhalf hstate,
      h.few, h.stamped⟩
    rw [lastOpening_concat, hopens]
    exact h.opened hopened
  · rw [heq] at hperform
    have hcloses : (b.stepOf ⟨.recordSuccess, now⟩).closes = true := by
      simp [BreakerStep.closes, stepOf, hperform, hstate]
    rw [hperform]
    refine ⟨⟨[], ?_, fun t ht => absurd ht List.not_mem_nil⟩, .nil, fun t ht => absurd ht List.not_mem_nil, nofun,
      nofun, nofun, iff_of_false nofun fun hne => hne rfl⟩
    rw [failuresSinceClose_concat, hcloses]
    rfl
  · rw [heq] at hperform
    have hcloses : (b.stepOf ⟨.recordSuccess, now⟩).closes = false := by
      simp [BreakerStep.closes, stepOf, hperform, hstate]
    have hcount : (b.halfOpenSuccesses + 1).toNat = b.halfOpenSuccesses.toNat + 1 := by
      have hle := h.few hstate
      have hlt := b.config.successThreshold.toNat_lt
      rw [UInt64.toNat_add]
      exact Nat.mod_eq_of_lt (by simp; omega)
    have hreached : b.halfOpenSuccesses.toNat + 1 < b.config.successThreshold.toNat := by
      rw [UInt64.le_iff_toNat_le, hcount] at hfew
      simpa using hfew
    rw [hperform]
    refine ⟨h.failures_kept hcloses nofun, h.sorted, h.past, fun hopened => ?_, fun _ => ?_, fun _ => ?_, h.stamped⟩
    · cases hstate.symm.trans hopened
    · rw [halfOpenStreak_concat]
      simpa [BreakerStep.testing, stepOf, hstate] using hcount.trans (congrArg (· + 1) (h.streak hstate))
    · exact hcount.trans_le (Nat.le_of_lt hreached)

theorem failuresSinceClose_failed (log : List BreakerStep)
    (hcloses : (b.stepOf ⟨.recordFailure, now⟩).closes = false) :
    failuresSinceClose (log ++ [b.stepOf ⟨.recordFailure, now⟩]) = failuresSinceClose log ++ [now] := by
  rw [failuresSinceClose_concat, hcloses]
  rfl

theorem Recalls.failed_opens (h : b.Recalls log now) (hstate : b.state ≠ .opened) {successes : UInt64}
    (hperform : b.perform ⟨.recordFailure, now⟩ =
      { b.pushFailure now with state := .opened, openedAt := some now, halfOpenSuccesses := successes }) :
    (b.perform ⟨.recordFailure, now⟩).Recalls (log ++ [b.stepOf ⟨.recordFailure, now⟩]) now := by
  obtain ⟨hfailures, hsorted, hpast⟩ := h.pushed
  have hcloses : (b.stepOf ⟨.recordFailure, now⟩).closes = false := by
    simp [BreakerStep.closes, stepOf, hperform]
  have hopens : (b.stepOf ⟨.recordFailure, now⟩).opens = true := by
    simp [BreakerStep.opens, stepOf, hperform, hstate]
  rw [hperform]
  refine ⟨failuresSinceClose_failed log hcloses ▸ hfailures, hsorted, hpast, fun _ => ?_, nofun, nofun,
    iff_of_true rfl nofun⟩
  rw [lastOpening_concat, hopens]
  rfl

theorem Recalls.failed (h : b.Recalls log now) :
    (b.perform ⟨.recordFailure, now⟩).Recalls (log ++ [b.stepOf ⟨.recordFailure, now⟩]) now := by
  have hperform : b.perform ⟨.recordFailure, now⟩ = b.recordFailure now := rfl
  obtain ⟨hfailures, hsorted, hpast⟩ := h.pushed
  obtain ⟨hstate, -, heq⟩ | ⟨hstate, -, heq⟩ | ⟨hstate, heq⟩ | ⟨hstate, heq⟩ := b.recordFailure_cases now
  · exact h.failed_opens (by rw [hstate]; nofun) (hperform.trans heq)
  · rw [heq] at hperform
    have hcloses : (b.stepOf ⟨.recordFailure, now⟩).closes = false := by
      simp [BreakerStep.closes, stepOf, hstate]
    rw [hperform]
    refine ⟨failuresSinceClose_failed log hcloses ▸ hfailures, hsorted, hpast, fun hopened => ?_, fun hhalf => ?_,
      fun hhalf => ?_, h.stamped⟩
    · cases hstate.symm.trans hopened
    · cases hstate.symm.trans hhalf
    · cases hstate.symm.trans hhalf
  · exact h.failed_opens (by rw [hstate]; nofun) (hperform.trans heq)
  · rw [heq] at hperform
    have hafter : (b.pushFailure now).state = .opened := hstate
    have hcloses : (b.stepOf ⟨.recordFailure, now⟩).closes = false := by
      simp [BreakerStep.closes, stepOf, hperform, hafter]
    have hopens : (b.stepOf ⟨.recordFailure, now⟩).opens = false := by
      simp [BreakerStep.opens, stepOf, hstate]
    rw [hperform]
    refine ⟨failuresSinceClose_failed log hcloses ▸ hfailures, hsorted, hpast, fun _ => ?_, fun hhalf => ?_,
      fun hhalf => ?_, h.stamped⟩
    · rw [lastOpening_concat, hopens]
      exact h.opened hstate
    · cases hstate.symm.trans hhalf
    · cases hstate.symm.trans hhalf

theorem Recalls.cleared (b : CircuitBreaker) (log : List BreakerStep) (now : ℕ) :
    (b.perform ⟨.reset, now⟩).Recalls (log ++ [b.stepOf ⟨.reset, now⟩]) now where
  failures := by
    have hcloses : (b.stepOf ⟨.reset, now⟩).closes = true := by simp [BreakerStep.closes, stepOf]
    refine ⟨[], ?_, fun t ht => absurd ht List.not_mem_nil⟩
    rw [failuresSinceClose_concat, hcloses]
    rfl
  sorted := .nil
  past _ ht := absurd ht List.not_mem_nil
  opened := nofun
  streak := nofun
  few := nofun
  stamped := iff_of_false nofun fun hne => hne rfl

/-- Every call keeps what the breaker knows of its history. -/
theorem Recalls.perform (h : b.Recalls log now) (c : TimedCall) (htime : now ≤ c.time) :
    (b.perform c).Recalls (log ++ [b.stepOf c]) c.time := by
  obtain ⟨call, time⟩ := c
  have hlater := h.later htime
  cases call with
  | allowRequest => exact hlater.asked
  | recordSuccess => exact hlater.succeeded
  | recordFailure => exact hlater.failed
  | reset => exact .cleared b log time

/-- `HalfOpen` becomes `Closed` after as many successes in it as the threshold. -/
def ClosesBySuccesses (b : CircuitBreaker) (log : List BreakerStep) (c : TimedCall) : Prop :=
  b.state = .halfOpen → (b.perform c).state = .closed →
    b.config.successThreshold.toNat ≤ halfOpenStreak (log ++ [b.stepOf c])

/-- What a call does to a breaker with this history. -/
structure FollowsAutomaton (b : CircuitBreaker) (log : List BreakerStep) (c : TimedCall) : Prop where
  trips : b.state = .closed → ((b.perform c).state ≠ .closed ↔ c.call = .recordFailure ∧
    b.config.failureThreshold.toNat ≤
      ((failuresSinceClose log ++ [c.time]).filter fun t => c.time - t ≤ b.window).length)
  refuses : b.state = .opened → ∃ opening, lastOpening log = some opening ∧
    ((b.allowRequest c.time).1 = false ↔ c.time - opening < fromSecs b.config.recoveryTimeoutSecs)
  closes : c.call ≠ .reset → b.ClosesBySuccesses log c
  reopens : b.state = .halfOpen → c.call = .recordFailure → (b.perform c).state = .opened
  stamped : (b.perform c).openedAt.isSome = true ↔ (b.perform c).state ≠ .closed

theorem Recalls.trips (h : b.Recalls log now) (c : TimedCall) (htime : now ≤ c.time) (hstate : b.state = .closed) :
    (b.perform c).state ≠ .closed ↔ c.call = .recordFailure ∧ b.config.failureThreshold.toNat ≤
      ((failuresSinceClose log ++ [c.time]).filter fun t => c.time - t ≤ b.window).length := by
  rw [h.counted htime]
  obtain ⟨call, time⟩ := c
  cases call with
  | allowRequest =>
    refine iff_of_false (fun hne => hne ?_) nofun
    change (b.allowRequest time).2.state = _
    rw [b.allowRequest_of_ne (by rw [hstate]; nofun)]
    exact hstate
  | recordSuccess =>
    refine iff_of_false (fun hne => hne ?_) nofun
    rcases b.recordSuccess_cases with ⟨-, heq⟩ | ⟨hother, -⟩ | ⟨hother, -⟩
    · exact (congrArg state heq).trans hstate
    · cases hstate.symm.trans hother
    · cases hstate.symm.trans hother
  | recordFailure =>
    change (b.recordFailure time).state ≠ _ ↔ _
    rcases b.recordFailure_cases time with ⟨-, hreached, heq⟩ | ⟨-, hfew, heq⟩ | ⟨hother, -⟩ | ⟨hother, -⟩
    · rw [heq]
      exact iff_of_true nofun ⟨rfl, hreached⟩
    · rw [heq]
      exact iff_of_false (fun hne => hne hstate) fun hboth => hfew hboth.2
    · cases hstate.symm.trans hother
    · cases hstate.symm.trans hother
  | reset => exact iff_of_false (fun hne => hne rfl) nofun

theorem Recalls.refuses (h : b.Recalls log now) (time : ℕ) (hstate : b.state = .opened) :
    ∃ opening, lastOpening log = some opening ∧
      ((b.allowRequest time).1 = false ↔ time - opening < fromSecs b.config.recoveryTimeoutSecs) := by
  obtain ⟨opening, hopening⟩ := Option.isSome_iff_exists.mp (h.stamped.mpr (by rw [hstate]; nofun))
  refine ⟨opening, (h.opened hstate).symm.trans hopening, ?_⟩
  have hrecovers : b.recovers time = decide (fromSecs b.config.recoveryTimeoutSecs ≤ time - opening) := by
    rw [recovers, hopening, Option.any_some]
  unfold allowRequest
  rw [hstate, hrecovers]
  dsimp only
  split
  · rename_i hle
    exact iff_of_false nofun (Nat.not_lt_of_le (of_decide_eq_true hle))
  · rename_i hlt
    exact iff_of_true rfl (Nat.lt_of_not_le fun hle => hlt (decide_eq_true hle))

theorem Recalls.closes (h : b.Recalls log now) (c : TimedCall) (hreset : c.call ≠ .reset) :
    b.ClosesBySuccesses log c := by
  intro hstate hclosed
  obtain ⟨call, time⟩ := c
  cases call with
  | allowRequest =>
    have hsame : b.perform ⟨.allowRequest, time⟩ = b := by
      change (b.allowRequest time).2 = b
      rw [b.allowRequest_of_ne (by rw [hstate]; nofun)]
    rw [hsame] at hclosed
    cases hstate.symm.trans hclosed
  | recordSuccess =>
    change b.recordSuccess.state = _ at hclosed
    have htesting : (b.stepOf ⟨.recordSuccess, time⟩).testing = true :=
      Bool.and_eq_true_iff.mpr ⟨decide_eq_true hstate, rfl⟩
    have hsuccess : (b.stepOf ⟨.recordSuccess, time⟩).call = .recordSuccess := rfl
    rw [halfOpenStreak_concat, htesting, if_pos rfl, if_pos hsuccess, ← h.streak hstate]
    rcases b.recordSuccess_cases with ⟨hother, -⟩ | ⟨-, hreached, -⟩ | ⟨-, -, heq⟩
    · exact absurd hstate hother
    · rw [UInt64.le_iff_toNat_le, UInt64.toNat_add] at hreached
      exact (UInt32.toNat_toUInt64 _).symm.trans_le (hreached.trans (Nat.mod_le _ _))
    · rw [heq] at hclosed
      cases hstate.symm.trans hclosed
  | recordFailure =>
    change (b.recordFailure time).state = _ at hclosed
    rcases b.recordFailure_cases time with ⟨hother, -⟩ | ⟨hother, -⟩ | ⟨-, heq⟩ | ⟨hother, -⟩
    · cases hstate.symm.trans hother
    · cases hstate.symm.trans hother
    · rw [heq] at hclosed
      cases hclosed
    · cases hstate.symm.trans hother
  | reset => exact absurd rfl hreset

theorem reopens (hstate : b.state = .halfOpen) {c : TimedCall} (hcall : c.call = .recordFailure) :
    (b.perform c).state = .opened := by
  unfold perform
  rw [hcall]
  dsimp only
  rcases b.recordFailure_cases c.time with ⟨hother, -⟩ | ⟨hother, -⟩ | ⟨-, heq⟩ | ⟨hother, -⟩
  · cases hstate.symm.trans hother
  · cases hstate.symm.trans hother
  · rw [heq]
  · cases hstate.symm.trans hother

/-- After calls in the order of their times the breaker knows of them what it decides by. -/
theorem recalls_after (config : CircuitBreakerConfig) (calls : List TimedCall)
    (htimes : (calls.map TimedCall.time).Pairwise (· ≤ ·)) :
    ∃ now, (after config calls).Recalls (breakerLog config calls) now ∧ ∀ time,
      (∀ t ∈ calls.map TimedCall.time, t ≤ time) → now ≤ time := by
  induction calls using List.reverseRecOn with
  | nil => exact ⟨0, .new config, fun time _ => Nat.zero_le time⟩
  | append_singleton calls c ih =>
    rw [List.map_append, List.pairwise_append] at htimes
    obtain ⟨now, hrecalls, hnow⟩ := ih htimes.1
    refine ⟨c.time, ?_, fun time htime => htime c.time (by simp)⟩
    rw [after_concat, breakerLog_concat]
    exact hrecalls.perform c (hnow c.time fun t ht => htimes.2.2 t ht c.time List.mem_cons_self)

end CircuitBreaker

open CircuitBreaker in
/-- For every configuration and every sequence of calls in the order of their times, each call moves the
breaker as the automaton says, a reset apart, which closes it from every state. -/
theorem breaker_automaton (config : CircuitBreakerConfig) (calls : List TimedCall)
    (htimes : (calls.map TimedCall.time).Pairwise (· ≤ ·)) (before : List TimedCall) (c : TimedCall)
    (hpre : before ++ [c] <+: calls) :
    (after config before).FollowsAutomaton (breakerLog config before) c := by
  have hsorted := htimes.sublist (hpre.sublist.map TimedCall.time)
  rw [List.map_append, List.pairwise_append] at hsorted
  obtain ⟨now, h, hnow⟩ := recalls_after config before hsorted.1
  have htime : now ≤ c.time := hnow c.time fun t ht => hsorted.2.2 t ht c.time List.mem_cons_self
  exact ⟨h.trips c htime, h.refuses c.time, h.closes c, fun hstate hcall => reopens hstate hcall, (h.perform c htime).stamped⟩

def testConfig : CircuitBreakerConfig := ⟨3, 60, 1, 2⟩

def failuresAt (times : List ℕ) : List TimedCall := times.map fun t => ⟨.recordFailure, t⟩

/-- The third failure within the window, after one that is too old. -/
theorem trips_at_threshold :
    ((CircuitBreaker.after testConfig (failuresAt [0, 60000000001, 60000000002])).perform
      ⟨.recordFailure, 60000000003⟩).state ≠ .closed :=
  ((breaker_automaton testConfig (failuresAt [0, 60000000001, 60000000002, 60000000003]) (by decide)
    (failuresAt [0, 60000000001, 60000000002]) ⟨.recordFailure, 60000000003⟩ List.prefix_rfl).trips
      (by decide)).mpr ⟨rfl, by decide⟩

theorem reset_closes :
    ¬ (CircuitBreaker.after testConfig
        (failuresAt [0, 1, 2] ++ [⟨.allowRequest, 1000000002⟩])).ClosesBySuccesses
      (breakerLog testConfig (failuresAt [0, 1, 2] ++ [⟨.allowRequest, 1000000002⟩])) ⟨.reset, 1000000003⟩ := by
  intro h
  exact absurd (h (by decide) rfl) (by decide)

end Xerv
