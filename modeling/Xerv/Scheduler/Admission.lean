import Xerv.Lib.FiniteMap
import Xerv.Scheduler.Exits

/-!
# The concurrency limit of an executor

`Executor.traces` as the one map that all calls share. `start_trace` and `resume_trace`
compare its length with `max_concurrent_traces` and insert their trace in a later step;
`resume_suspended_trace` inserts without a comparison. Any number of `execute_trace` calls
run on the entries, any number of them on one id. What a call does between its check
and its insertion (creating the arena, rebuilding the outputs) does not touch the map.
-/

namespace Xerv
open Xerv.Lib

/-- A call of `start_trace`, `resume_trace` or `resume_suspended_trace` before its insertion. -/
structure Entering where
  traceId : TraceId
  state : TraceState
  checked : Bool

structure SharedTraces where
  traces : FiniteMap TraceId TraceState
  entering : List Entering
  calls : List (TraceId × ExecState)

inductive MapAction where
  | startTrace (tid : TraceId) (triggerId : String) (data : RelPtr)
  | resumeTrace (tid : TraceId) (st : TraceState)
  | resumeSuspendedTrace (tid : TraceId) (st : TraceState)
  | abandon (i : ℕ)
  | insertTrace (i : ℕ)
  | executeTrace (tid : TraceId) (arena : Table RelPtr Bytes) (wal : List WalRecord)
  | step (i : ℕ) (a : Action)

namespace SharedTraces

def empty : SharedTraces := ⟨∅, [], []⟩

def atLimit (maxConcurrentTraces : ℕ) (x : SharedTraces) : Bool := maxConcurrentTraces ≤ x.traces.size

def stepCall (ex : Executor) (x : SharedTraces) (tid : TraceId) (s : ExecState) (a : Action) :
    Option (FiniteMap TraceId TraceState × ExecState) :=
  (ex.step tid { s with trace := x.traces.get tid } a).map fun s' =>
    match s'.trace with
    | some st => (x.traces.insert tid st, s')
    | none => (x.traces.remove tid, s')

def step (ex : Executor) (maxConcurrentTraces : ℕ) (x : SharedTraces) : MapAction → Option SharedTraces
  | .startTrace tid triggerId data =>
    if x.atLimit maxConcurrentTraces then some x
    else some { x with entering := x.entering ++ [⟨tid, .new tid triggerId data, true⟩] }
  | .resumeTrace tid st =>
    if x.atLimit maxConcurrentTraces then some x
    else some { x with entering := x.entering ++ [⟨tid, st, true⟩] }
  | .resumeSuspendedTrace tid st => some { x with entering := x.entering ++ [⟨tid, st, false⟩] }
  -- the arena cannot be created or the WAL cannot be read
  | .abandon i => x.entering[i]?.map fun _ => { x with entering := x.entering.eraseIdx i }
  -- the WAL record that follows may fail; the entry stays
  | .insertTrace i =>
    x.entering[i]?.map fun e =>
      { x with traces := x.traces.insert e.traceId e.state, entering := x.entering.eraseIdx i }
  | .executeTrace tid arena wal =>
    match x.traces.get tid with
    | none => some x
    | some st => some { x with calls := x.calls ++ [(tid, .start st arena wal)] }
  | .step i a =>
    x.calls[i]?.bind fun call =>
      (x.stepCall ex call.1 call.2 a).map fun r =>
        { x with traces := r.1, calls := x.calls.set i (call.1, r.2) }

/-- The insertion that the action makes, of an id that the map does not hold. -/
def newEntry (x : SharedTraces) : MapAction → Option Entering
  | .insertTrace i => x.entering[i]?.filter fun e => !x.traces.contains e.traceId
  | _ => none

/-- A call whose check passed inserts into a map that others have filled since. -/
def overtaken (maxConcurrentTraces : ℕ) (x : SharedTraces) (a : MapAction) : Bool :=
  x.atLimit maxConcurrentTraces && (x.newEntry a).any fun e => e.checked

/-- `resume_suspended_trace`, which makes no check, inserts into a full map. -/
def unchecked (maxConcurrentTraces : ℕ) (x : SharedTraces) (a : MapAction) : Bool :=
  x.atLimit maxConcurrentTraces && (x.newEntry a).any fun e => !e.checked

def exceeds (maxConcurrentTraces : ℕ) (x : SharedTraces) (a : MapAction) : Bool :=
  x.overtaken maxConcurrentTraces a || x.unchecked maxConcurrentTraces a

variable {ex : Executor} {limit : ℕ} {x x' : SharedTraces}

theorem exceeds_eq (x : SharedTraces) (a : MapAction) :
    x.exceeds limit a = (x.atLimit limit && (x.newEntry a).isSome) := by
  unfold exceeds overtaken unchecked
  cases x.newEntry a with
  | none => simp
  | some e =>
    cases hc : e.checked with
    | true => simp [hc]
    | false => simp [hc]

theorem step_trace_none {tid : TraceId} {s s' : ExecState} (a : Action) (hs : s.trace = none)
    (h : ex.step tid s a = some s') : s'.trace = none := by
  cases Executor.step_cases a h with
  | ready st hp ht =>
    rw [hs] at ht
    cases ht
  | spawn n rest st hp ht hn =>
    rw [hs] at ht
    cases ht
  | finish t behaviour now walError ht hr =>
    unfold Executor.finishTask
    split
    · exact hs
    · exact hs
  | join t output hp ht hf hsusp => simp [ExecState.record, ExecState.joinTask, hs]
  | drain t output n hp ht hf hsusp => simp [ExecState.record, ExecState.joinTask, hs]
  | suspend n metadata now hp htasks => rfl
  | finalize now hp => rfl
  | stop a s' e hp htasks hphase htrace hwal harena hstarted hspawned hjoined =>
    rcases htrace with heq | heq
    · rw [heq, hs]
    · exact heq
  | _ => exact hs

theorem size_stepCall {tid : TraceId} {s : ExecState} (a : Action)
    {r : FiniteMap TraceId TraceState × ExecState} (h : x.stepCall ex tid s a = some r) :
    r.1.size ≤ x.traces.size := by
  obtain ⟨s', hs', rfl⟩ := Option.map_eq_some_iff.mp h
  cases hst : s'.trace with
  | none => exact FiniteMap.size_remove_le _ _
  | some st =>
    have hheld : x.traces.contains tid = true := by
      unfold FiniteMap.contains
      cases hget : x.traces.get tid with
      | some st₀ => rfl
      | none =>
        rw [step_trace_none a hget hs'] at hst
        cases hst
    show (x.traces.insert tid st).size ≤ x.traces.size
    rw [FiniteMap.size_insert, if_pos hheld]

/-- A step lets the map grow only by an insertion of a new id, and then by one. -/
theorem size_step (a : MapAction) (hs : x.step ex limit a = some x') :
    if (x.newEntry a).isSome then x'.traces.size = x.traces.size + 1
    else x'.traces.size ≤ x.traces.size := by
  cases a with
  | startTrace tid triggerId data =>
    unfold step at hs
    dsimp only at hs
    split_ifs at hs
    · cases hs
      exact le_rfl
    · cases hs
      exact le_rfl
  | resumeTrace tid st =>
    unfold step at hs
    dsimp only at hs
    split_ifs at hs
    · cases hs
      exact le_rfl
    · cases hs
      exact le_rfl
  | resumeSuspendedTrace tid st =>
    cases hs
    exact le_rfl
  | abandon i =>
    obtain ⟨e, -, rfl⟩ := Option.map_eq_some_iff.mp hs
    exact le_rfl
  | insertTrace i =>
    obtain ⟨e, he, rfl⟩ := Option.map_eq_some_iff.mp hs
    simp only [newEntry, he, FiniteMap.size_insert]
    cases hc : x.traces.contains e.traceId with
    | true => simp [Option.filter, hc]
    | false => simp [Option.filter, hc]
  | executeTrace tid arena wal =>
    unfold step at hs
    dsimp only at hs
    split at hs
    · cases hs
      exact le_rfl
    · cases hs
      exact le_rfl
  | step i a =>
    obtain ⟨call, -, hcall⟩ := Option.bind_eq_some_iff.mp hs
    obtain ⟨r, hr, rfl⟩ := Option.map_eq_some_iff.mp hcall
    exact size_stepCall a hr

theorem within_limit_step (a : MapAction) (hx : x.traces.size ≤ limit)
    (hs : x.step ex limit a = some x') : x'.traces.size ≤ limit ↔ x.exceeds limit a = false := by
  have hsize := size_step a hs
  rw [exceeds_eq]
  unfold atLimit
  cases hnew : (x.newEntry a).isSome with
  | true =>
    rw [hnew, if_pos rfl] at hsize
    simp only [Bool.and_true, decide_eq_false_iff_not]
    omega
  | false =>
    rw [hnew] at hsize
    have hle : x'.traces.size ≤ x.traces.size := hsize
    simp only [Bool.and_false, iff_true]
    omega

/-- In every interleaving of calls on an executor, whatever the limit: the map holds at most
`max_concurrent_traces` traces in every state reached, if and only if no `start_trace` or `resume_trace`
inserts a new trace after other calls have filled the map since its check, and no
`resume_suspended_trace` inserts a new trace into a full map. -/
theorem within_limit_throughout_iff (ex : Executor) (maxConcurrentTraces : ℕ) (actions : List MapAction)
    (x : SharedTraces) (hrun : Machine.run (step ex maxConcurrentTraces) empty actions = some x) :
    (∀ before x', before <+: actions → Machine.run (step ex maxConcurrentTraces) empty before = some x' →
        x'.traces.size ≤ maxConcurrentTraces) ↔
      Machine.happens (step ex maxConcurrentTraces) (exceeds maxConcurrentTraces) empty actions = false :=
  Machine.throughout_iff (exceeds maxConcurrentTraces) (fun _ => True)
    (fun x => x.traces.size ≤ maxConcurrentTraces) (fun _ _ _ _ _ => trivial)
    (fun _ a _ _ hx hs => within_limit_step a hx hs) actions trivial (Nat.zero_le _) hrun

def startAll (tid : TraceId) : List MapAction := [.startTrace tid "webhook" RelPtr.null, .insertTrace 0]

def inTurn : List MapAction :=
  startAll sampleTrace ++ [.executeTrace sampleTrace Table.empty []] ++ Executor.lineRun.map (.step 0) ++
    startAll otherTrace

theorem in_turn_within_limit :
    ∃ x, Machine.run (step Executor.lineExecutor 1) empty inTurn = some x ∧
      x.traces.contains otherTrace = true ∧ x.traces.size ≤ 1 := by
  have hend : (Machine.run (step Executor.lineExecutor 1) empty inTurn).any
      (fun x => x.traces.contains otherTrace) = true := by decide +kernel
  obtain ⟨x, hx, hlater⟩ := (Option.any_eq_true _ _).mp hend
  have hall := (within_limit_throughout_iff Executor.lineExecutor 1 inTurn x hx).mpr (by decide)
  exact ⟨x, hx, hlater, hall _ x List.prefix_rfl hx⟩

def bothChecked : List MapAction :=
  [.startTrace sampleTrace "webhook" RelPtr.null, .startTrace otherTrace "webhook" RelPtr.null,
    .insertTrace 0, .insertTrace 0]

/-- With a limit of one the map then holds two traces. -/
theorem both_checked_exceed_limit :
    ∃ x, Machine.run (step Executor.lineExecutor 1) empty bothChecked = some x ∧ x.traces.size = 2 := by
  have hend : (Machine.run (step Executor.lineExecutor 1) empty bothChecked).any
      (fun x => x.traces.size = 2) = true := by decide +kernel
  obtain ⟨x, hx, hsize⟩ := (Option.any_eq_true _ _).mp hend
  exact ⟨x, hx, by simpa using hsize⟩

end SharedTraces
end Xerv
