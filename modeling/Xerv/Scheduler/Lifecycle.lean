import Xerv.Lib.Machine
import Xerv.Scheduler.Restore
import Xerv.Wal.TraceLog

/-!
# The life of one trace

After `start_trace` a trace goes through calls of `execute_trace`, suspensions, resumes,
crashes and recoveries, in any order that the code allows. One call of `execute_trace` runs
at a time; the end of a `suspend_trace`, where the trace is removed from the map of active
traces, may come after a resume has put it there again. A resume sees the first `read`
records of the log, those that have left the write buffer. Other traces use the store and
the log at any time.
-/

namespace Xerv
open Xerv.Lib

/-! ### States and actions -/

/-- One trace. `pending` is the request of the node that is draining the tasks, `removing` counts the
calls of `suspend_trace` that have released the trace and not yet removed it, and `decided` only
records which decisions have been accepted, and with which output. -/
structure Life where
  exec : ExecState
  pending : Option (SuspensionRequest × RelPtr)
  store : MemorySuspensionStore
  removing : ℕ
  restarted : Bool
  decided : List (NodeId × NodeOutput)

/-- What the clock, `serde_json`, the arena and the log give to one `suspend_trace`. -/
structure SuspendArgs where
  arenaPath : String
  pipelineId : Option String
  now : ℤ
  later : ℤ
  text : String
  stamp : UInt64
  flushError : Option XervError
  walError : Option WalWriteError

/-- One resume that gets as far as the new trace state. -/
structure ResumeArgs where
  decision : ResumeDecision
  read : ℕ
  data : RelPtr
  arena : Table RelPtr Bytes
  stamp : UInt64
  walError : Option WalWriteError

/-- One `recover_all`, as far as it is about this trace; `arena` is `none` if it cannot be loaded. -/
structure RecoverArgs where
  serde : SerdeJson
  withStore : Bool
  pipelineId : String
  arenaDir : String
  time : String
  now : ℤ
  maxConcurrentTraces : ℕ
  running : ℕ
  arena : Option (Table RelPtr Bytes)
  stamp : UInt64
  walError : Option WalWriteError

inductive LifeAction where
  | exec (a : Action)
  | execute
  | suspend (args : SuspendArgs)
  | removeTrace
  | resume (hookId : String) (args : ResumeArgs)
  | takeHook (hookId : String) (decision : ResumeDecision)
  | crash (kept : ℕ)
  | recover (args : RecoverArgs)
  | otherSuspend (state : SuspendedTraceState)

/-- `start_trace`, and the call of `execute_trace` after it. -/
def Life.begin (tid : TraceId) (triggerId : String) (input : RelPtr) (arena : Table RelPtr Bytes)
    (earlier : List WalRecord) (now : UInt64) (store : MemorySuspensionStore) : Life where
  exec := .start (.new tid triggerId input) arena (earlier ++ [.traceStart tid now])
  pending := none
  store := store
  removing := 0
  restarted := false
  decided := []

def ExecState.down (wal : List WalRecord) : ExecState :=
  ⟨none, Table.empty, Keys.empty, [], wal, .returned (.ok ()), [], 0⟩

/-- The rebuilt trace is put into the map and its resume is logged; `execute_trace` is called if that
was possible. -/
def ExecState.rebuild (tid : TraceId) (wal : List WalRecord) (st : TraceState)
    (arena : Table RelPtr Bytes) (stamp : UInt64) (walError : Option WalWriteError) : ExecState :=
  match walError with
  | some e => { ExecState.start st arena wal with phase := .returned (.error (.walWrite e.traceId e.cause)) }
  | none => .start st arena (wal ++ [.traceResumed tid stamp])

namespace Life
variable (ex : Executor) (tid : TraceId)

/-! ### Steps -/

/-- The request of a node whose result is taken from the join set. -/
def requestOf (life : Life) : Action → Option (SuspensionRequest × RelPtr)
  | .join n =>
    match Executor.finishedResult life.exec n with
    | some (.ok (.suspend request data)) => some (request, data)
    | _ => life.pending
  | _ => life.pending

def giveUp (life : Life) (e : XervError) : Life := { life with exec := life.exec.giveUp e }

/-- `suspend_trace` until it drops its guard on the trace. -/
def suspendTrace (life : Life) (n : NodeId) (request : SuspensionRequest) (args : SuspendArgs) : Life :=
  if ex.hasSuspensionStore then
    match life.exec.trace, args.flushError with
    | none, _ => life.giveUp (.nodeExecution n tid "Trace not found during suspension")
    | some _, some e => life.giveUp e
    | some _, none =>
      match life.store.suspend (suspendedState request tid n args.arenaPath args.pipelineId args.now
          args.later) with
      | .error e => life.giveUp e
      | .ok store =>
        match args.walError with
        | some e => { life.giveUp (.walWrite e.traceId e.cause) with store := store }
        | none =>
          { life with
            store := store
            removing := life.removing + 1
            exec := { life.exec with
              wal := life.exec.wal ++ [(WalRecord.traceSuspended tid n args.stamp).withMetadata args.text]
              phase := .returned (.ok ()) } }
  else life.giveUp (.suspensionFailed tid "No suspension store configured")

/-- The trace state of a resume. -/
def resumed (life : Life) (suspended : SuspendedTraceState) (args : ResumeArgs) : TraceState :=
  resumedState suspended
    (replay Table.empty ((life.exec.wal.take args.read).map WalRecord.readBack) tid)
    args.decision args.data

def resumeTrace (life : Life) (suspended : SuspendedTraceState) (store : MemorySuspensionStore)
    (args : ResumeArgs) : Life :=
  { life with
    store := store
    exec := .rebuild tid life.exec.wal (life.resumed tid suspended args) args.arena args.stamp args.walError
    decided := life.decided ++ match args.walError with
      | some _ => []
      | none => [(suspended.suspendedAt, .complete args.decision.outputPort args.data 0)] }

/-- `resume_from`, and `retry_nodes` without the nodes to retry. -/
def rerunFrom (args : RecoverArgs) (state : TraceRecoveryState) (nodes : List NodeId) : Option TraceState :=
  let completed := nodes.foldl (fun completed n => completed.remove n) state.completedNodes
  (Executor.resumeTrace args.maxConcurrentTraces (some args.pipelineId) args.running
    { state with completedNodes := completed }).toOption

/-- The trace state that `recover_all` runs again, if it does. -/
def rerun (life : Life) (args : RecoverArgs) : Option TraceState :=
  if args.arena.isSome then
    (replay Table.empty (life.exec.wal.map WalRecord.readBack) tid).bind fun state =>
      match determineAction state with
      | .resumeFrom _ => rerunFrom args state []
      | .retryNodes nodes => rerunFrom args state nodes
      | .awaitResume _ | .skip _ => none
  else none

/-- The store after `recover_all`. -/
def restore (life : Life) (args : RecoverArgs) : MemorySuspensionStore :=
  let replayer : CrashReplayer :=
    ⟨if args.withStore then some life.store else none, args.pipelineId, args.arenaDir⟩
  match replay Table.empty (life.exec.wal.map WalRecord.readBack) tid with
  | none => life.store
  | some state =>
    match determineAction state with
    | .awaitResume suspendedAt =>
      (suspendInto replayer.suspensionStore
        (replayer.restoredState args.serde tid suspendedAt state args.time args.now)).getD life.store
    | _ => life.store

def recoverTrace (life : Life) (args : RecoverArgs) : Life :=
  match life.rerun tid args with
  | some st =>
    { life with
      restarted := false
      exec := .rebuild tid life.exec.wal st (args.arena.getD Table.empty) args.stamp args.walError }
  | none => { life with restarted := false, store := life.restore tid args }

def step (life : Life) : LifeAction → Option Life
  | .exec a =>
    match a with
    | .suspend .. => none
    | a => (ex.step tid life.exec a).map fun s => { life with exec := s, pending := life.requestOf a }
  | .execute =>
    match life.exec.phase, life.exec.trace with
    | .returned _, some st => some { life with exec := .start st life.exec.arena life.exec.wal }
    | _, _ => none
  | .suspend args =>
    match life.exec.phase, life.pending with
    | .draining n, some (request, _) =>
      if life.exec.tasks.isEmpty then some (life.suspendTrace ex tid n request args) else none
    | _, _ => none
  | .removeTrace =>
    match life.removing with
    | 0 => none
    | removing + 1 =>
      some { life with removing := removing, exec := { life.exec with trace := none } }
  | .resume hookId args =>
    match life.exec.phase, life.store.resume hookId args.decision with
    | .returned _, .ok (suspended, store) =>
      if suspended.traceId = tid then some (life.resumeTrace tid suspended store args) else none
    | _, _ => none
  | .takeHook hookId decision =>
    -- a resume of another trace, or one of this trace that fails
    match life.store.resume hookId decision with
    | .ok (_, store) => some { life with store := store }
    | .error _ => none
  | .crash kept =>
    some { life with
      exec := .down (life.exec.wal.take kept)
      pending := none
      store := .new
      removing := 0
      restarted := true }
  | .recover args => if life.restarted then some (life.recoverTrace tid args) else none
  | .otherSuspend state =>
    match life.store.suspend state with
    | .ok store => if state.traceId = tid then none else some { life with store := store }
    | .error _ => none

/-! ### What a step can do -/

/-- The steps one by one, as far as they are about the call of `execute_trace`, the log and the
decisions. -/
inductive Step (life : Life) : LifeAction → ExecState → List (NodeId × NodeOutput) → Prop
  | exec (a : Action) (s : ExecState) (hs : ex.Step tid life.exec a s) :
    Step life (.exec a) s life.decided
  | execute (st : TraceState) (ht : life.exec.trace = some st) :
    Step life .execute (.start st life.exec.arena life.exec.wal) life.decided
  | suspendFails (args : SuspendArgs) (n : NodeId) (e : XervError)
    (hp : life.exec.phase = .draining n) : Step life (.suspend args) (life.exec.giveUp e) life.decided
  | suspend (args : SuspendArgs) (n : NodeId) (hp : life.exec.phase = .draining n)
    (htasks : life.exec.tasks = []) :
    Step life (.suspend args)
      { life.exec with
        wal := life.exec.wal ++ [(WalRecord.traceSuspended tid n args.stamp).withMetadata args.text]
        phase := .returned (.ok ()) }
      life.decided
  | removeTrace : Step life .removeTrace { life.exec with trace := none } life.decided
  | resume (hookId : String) (args : ResumeArgs) (suspended : SuspendedTraceState)
    (hs : life.store.suspensions hookId = some suspended) (hid : suspended.traceId = tid) :
    Step life (.resume hookId args)
      (.rebuild tid life.exec.wal (life.resumed tid suspended args) args.arena args.stamp args.walError)
      (life.decided ++ match args.walError with
        | some _ => []
        | none => [(suspended.suspendedAt, .complete args.decision.outputPort args.data 0)])
  | crash (kept : ℕ) : Step life (.crash kept) (.down (life.exec.wal.take kept)) life.decided
  | rerun (args : RecoverArgs) (st : TraceState) (hst : life.rerun tid args = some st) :
    Step life (.recover args)
      (.rebuild tid life.exec.wal st (args.arena.getD Table.empty) args.stamp args.walError) life.decided
  | restore (args : RecoverArgs) (hnone : life.rerun tid args = none) :
    Step life (.recover args) life.exec life.decided
  | takeHook (hookId : String) (decision : ResumeDecision) :
    Step life (.takeHook hookId decision) life.exec life.decided
  | otherSuspend (state : SuspendedTraceState) :
    Step life (.otherSuspend state) life.exec life.decided

variable {ex tid} {life life' : Life}

theorem suspendTrace_step (n : NodeId) (request : SuspensionRequest) (args : SuspendArgs)
    (hp : life.exec.phase = .draining n) (htasks : life.exec.tasks = []) :
    Step ex tid life (.suspend args) (life.suspendTrace ex tid n request args).exec
      (life.suspendTrace ex tid n request args).decided := by
  have hfail (e : XervError) :
      Step ex tid life (.suspend args) (life.giveUp e).exec (life.giveUp e).decided :=
    .suspendFails args n e hp
  unfold suspendTrace
  split
  · cases life.exec.trace with
    | none => exact hfail _
    | some st =>
      cases args.flushError with
      | some e => exact hfail e
      | none =>
        dsimp only
        split
        · exact hfail _
        · cases args.walError with
          | some e => exact hfail _
          | none => exact .suspend args n hp htasks
  · exact hfail _

theorem recoverTrace_step (args : RecoverArgs) :
    Step ex tid life (.recover args) (life.recoverTrace tid args).exec
      (life.recoverTrace tid args).decided := by
  unfold recoverTrace
  cases hst : life.rerun tid args with
  | some st => exact .rerun args st hst
  | none => exact .restore args hst

theorem step_cases (a : LifeAction) (h : life.step ex tid a = some life') :
    Step ex tid life a life'.exec life'.decided := by
  unfold step at h
  cases a with
  | exec a =>
    have hmap (h : (ex.step tid life.exec a).map (fun s =>
        ({ life with exec := s, pending := life.requestOf a } : Life)) = some life') :
        Step ex tid life (.exec a) life'.exec life'.decided := by
      obtain ⟨s, hs, rfl⟩ := Option.map_eq_some_iff.mp h
      exact .exec a s (Executor.step_cases a hs)
    cases a with
    | suspend metadata now failure => cases h
    | _ => exact hmap h
  | execute =>
    dsimp only at h
    split at h
    · rename_i st hp ht
      cases h
      exact .execute st ht
    · cases h
  | suspend args =>
    dsimp only at h
    split at h
    · rename_i n request data hp hpending
      split at h
      · rename_i hempty
        cases h
        exact suspendTrace_step n request args hp (List.isEmpty_iff.mp hempty)
      · cases h
    · cases h
  | removeTrace =>
    dsimp only at h
    split at h
    · cases h
    · cases h
      exact .removeTrace
  | resume hookId args =>
    dsimp only at h
    split at h
    · rename_i r suspended store hp hres
      split at h
      · rename_i hid
        cases h
        refine .resume hookId args suspended ?_ hid
        unfold MemorySuspensionStore.resume at hres
        split at hres
        · cases hres
        · rename_i state hstate
          cases hres
          exact hstate
      · cases h
    · cases h
  | takeHook hookId decision =>
    dsimp only at h
    split at h
    · cases h
      exact .takeHook hookId decision
    · cases h
  | crash kept =>
    cases h
    exact .crash kept
  | recover args =>
    dsimp only at h
    split at h
    · cases h
      exact recoverTrace_step args
    · cases h
  | otherSuspend state =>
    dsimp only at h
    split at h
    · split at h
      · cases h
      · cases h
        exact .otherSuspend state
    · cases h

end Life

/-! ### What holds in every state -/

namespace Executor

/-- The log begins with the start of the trace, the trace in the map is that of the running call, and
the node that has suspended the trace has no output. -/
structure Alive (ex : Executor) (tid : TraceId) (s : ExecState) : Prop where
  log : StartsFirst tid s.wal
  live : ∀ st, s.trace = some st →
    ∃ st₀, ex.Safe st₀ s ∧ ex.Coherent st₀ (s.tasks.map Task.node) st
  waiting : ∀ n st, s.phase = .draining n → s.trace = some st →
    st.outputs n = none ∧ n ∉ s.tasks.map Task.node

variable {ex : Executor} {tid : TraceId} {s s' : ExecState}

theorem step_log (a : Action) (hs : ex.Step tid s a s') :
    ∃ later, s'.wal = s.wal ++ later ∧ ∀ r ∈ later, r.traceId = tid → r.recordType.follows := by
  have hnone (h : s'.wal = s.wal) : ∃ later, s'.wal = s.wal ++ later ∧
      ∀ r ∈ later, r.traceId = tid → r.recordType.follows :=
    ⟨[], by rw [h, List.append_nil], List.forall_mem_nil _⟩
  have hone (r : WalRecord) (hr : r.traceId = tid → r.recordType.follows) :
      ∀ x ∈ [r], x.traceId = tid → x.recordType.follows := by
    intro x hx
    rw [List.mem_singleton.mp hx]
    exact hr
  cases hs with
  | finish t behaviour now walError ht hr =>
    have hrecord (r : WalRecord) (hb : behaviour.record tid t.node now = some r) :
        r.recordType.follows := by
      unfold NodeBehaviour.record at hb
      split at hb <;> cases hb <;> exact ⟨nofun, nofun, nofun⟩
    unfold finishTask
    split
    · exact ⟨[], (List.append_nil _).symm, List.forall_mem_nil _⟩
    · refine ⟨_, rfl, fun r hr _ => ?_⟩
      exact hrecord r (Option.mem_toList.mp hr)
  | suspend n metadata now hp htasks =>
    exact ⟨_, rfl, hone _ fun _ => ⟨nofun, nofun, nofun⟩⟩
  | finalize now hp => exact ⟨_, rfl, hone _ fun _ => ⟨nofun, nofun, nofun⟩⟩
  | otherRecord r hr => exact ⟨_, rfl, hone r fun he => absurd he hr⟩
  | stop _ _ e hp htasks hphase htrace hwal harena hstarted hspawned hjoined => exact hnone hwal
  | _ => exact hnone rfl

theorem step_trace_none (a : Action) (hs : ex.Step tid s a s') (h : s.trace = none) :
    s'.trace = none ∧ s'.started = s.started := by
  cases hs with
  | ready st hp ht =>
    rw [h] at ht
    cases ht
  | spawn n rest st hp ht hn =>
    rw [h] at ht
    cases ht
  | finish t behaviour now walError ht hr =>
    have hq : Quiet s (ex.finishTask tid s t.node behaviour now walError) := finishTask_quiet _ _ _ _
    exact ⟨hq.trace.trans h, hq.started⟩
  | join t output hp ht hf hs =>
    refine ⟨?_, rfl⟩
    show s.trace.map _ = none
    rw [h]
    rfl
  | drain t output n hp ht hf hs =>
    refine ⟨?_, rfl⟩
    show s.trace.map _ = none
    rw [h]
    rfl
  | stop _ _ e hp htasks hphase htrace hwal harena hstarted hspawned hjoined =>
    refine ⟨?_, hstarted⟩
    rcases htrace with htrace | htrace
    · exact htrace.trans h
    · exact htrace
  | suspend n metadata now hp htasks => exact ⟨rfl, rfl⟩
  | finalize now hp => exact ⟨rfl, rfl⟩
  | _ => exact ⟨h, rfl⟩

theorem Alive.step_live (h : ex.Alive tid s) (a : Action) (hs : ex.Step tid s a s')
    (st' : TraceState) (ht' : s'.trace = some st') :
    ∃ st st₀, s.trace = some st ∧ ex.Safe st₀ s ∧ ex.Coherent st₀ (s.tasks.map Task.node) st ∧
      ex.Safe st₀ s' ∧ ex.Coherent st₀ (s'.tasks.map Task.node) st' := by
  cases ht : s.trace with
  | none =>
    rw [(step_trace_none a hs ht).1] at ht'
    cases ht'
  | some st =>
    obtain ⟨st₀, hsafe, hco⟩ := h.live st ht
    have hall : ∀ x, s.trace = some x → ex.Coherent st₀ (s.tasks.map Task.node) x := by
      intro x hx
      rw [ht] at hx
      cases hx
      exact hco
    exact ⟨st, st₀, rfl, hsafe, hco, hsafe.step a hs, coherent_step a hsafe hall hs st' ht'⟩

theorem Alive.step_waiting (h : ex.Alive tid s) (a : Action) (hs : ex.Step tid s a s') (n : NodeId)
    (st' : TraceState) (hp' : s'.phase = .draining n) (ht' : s'.trace = some st') :
    st'.outputs n = none ∧ n ∉ s'.tasks.map Task.node := by
  obtain ⟨st, st₀, ht, hsafe, hco, _⟩ := h.step_live a hs st' ht'
  have hquiet (hq : Quiet s s') : st'.outputs n = none ∧ n ∉ s'.tasks.map Task.node := by
    rw [hq.nodes]
    exact h.waiting n st' (hq.phase.symm.trans hp') (hq.trace.symm.trans ht')
  cases hs with
  | ready st hp ht => cases hp'
  | spawn m rest st hp ht hn => cases hp'
  | spawnDone hp =>
    dsimp only at hp'
    split at hp'
    · cases hp'
    · cases hp'
  | acquire t ht hq hfree => exact hquiet (setStatus_quiet _ _)
  | arenaWrite t ptr data ht hr hfree => exact h.waiting n st' hp' ht'
  | finish t behaviour now walError ht hr => exact hquiet (finishTask_quiet _ _ _ _)
  | join t output hp htask hf hs => cases hp'
  | joinSuspend t output hp htask hf hs =>
    cases hp'
    have hst : st = st' := Option.some.inj (ht.symm.trans ht')
    subst hst
    refine ⟨hco.outputs_none _ (hco.taskOpen _ (List.mem_map_of_mem htask)), fun hmem => ?_⟩
    exact (mem_joinTask t t.node hmem).2 rfl
  | drain t output m hp htask hf hs =>
    obtain ⟨hnone, hnot⟩ := h.waiting n st hp' ht
    have hne : n ≠ t.node := by
      intro he
      exact hnot (he ▸ List.mem_map_of_mem htask)
    have hst : some (st.recordOutput t.node output) = some st' := by
      have hmap : s.trace.map (fun st => st.recordOutput t.node output) = some st' := ht'
      rw [ht] at hmap
      exact hmap
    cases hst
    exact ⟨(Table.insert_ne _ _ hne).trans hnone, fun hmem => hnot (mem_joinTask t n hmem).1⟩
  | drainSkip t r m hp htask hf hr =>
    obtain ⟨hnone, hnot⟩ := h.waiting n st' hp' ht'
    exact ⟨hnone, fun hmem => hnot (mem_joinTask t n hmem).1⟩
  | suspend m metadata now hp htasks => cases hp'
  | finalize now hp => cases hp'
  | stop _ _ e hp htasks hphase htrace hwal harena hstarted hspawned hjoined =>
    rw [hphase] at hp'
    cases hp'
  | otherRecord r hr => exact h.waiting n st' hp' ht'

theorem Alive.exec (h : ex.Alive tid s) (a : Action) (hs : ex.Step tid s a s') : ex.Alive tid s' := by
  refine ⟨?_, fun st' ht' => ?_, fun n st' => h.step_waiting a hs n st'⟩
  · obtain ⟨later, hwal, hlater⟩ := step_log a hs
    rw [hwal]
    exact h.log.append later hlater
  · obtain ⟨_, st₀, _, _, _, hsafe, hco⟩ := h.step_live a hs st' ht'
    exact ⟨st₀, hsafe, hco⟩

theorem alive_start (ex : Executor) (st : TraceState)
    (hst : ∀ n, st.completed n = (st.outputs n).isSome) (arena : Table RelPtr Bytes)
    (wal : List WalRecord) (hwal : StartsFirst tid wal) : ex.Alive tid (ExecState.start st arena wal) := by
  refine ⟨hwal, fun st' ht' => ?_, nofun⟩
  cases ht'
  exact ⟨st, safe_start ex st arena wal, coherent_start ex st hst⟩

theorem alive_rebuild (ex : Executor) (wal : List WalRecord) (st : TraceState)
    (hst : ∀ n, st.completed n = (st.outputs n).isSome) (arena : Table RelPtr Bytes) (stamp : UInt64)
    (walError : Option WalWriteError) (hwal : StartsFirst tid wal) :
    ex.Alive tid (.rebuild tid wal st arena stamp walError) := by
  cases walError with
  | none =>
    refine alive_start ex st hst arena _ (hwal.append _ fun r hr _ => ?_)
    rw [List.mem_singleton.mp hr]
    exact ⟨nofun, nofun, nofun⟩
  | some e =>
    have hstart := alive_start ex st hst arena wal hwal
    exact hstart.exec .findReady (.stop _ _ _ nofun rfl rfl (.inl rfl) rfl rfl rfl (fun _ hn => hn)
      (Nat.le_refl _))

end Executor

namespace Life
variable {ex : Executor} {tid : TraceId} {life life' : Life}

theorem rerun_outputs (args : RecoverArgs) (st : TraceState) (h : life.rerun tid args = some st) :
    ∀ n, st.completed n = (st.outputs n).isSome := by
  have hresume (state : TraceRecoveryState) (nodes : List NodeId)
      (hst : rerunFrom args state nodes = some st) : st.Initial := by
    unfold rerunFrom Executor.resumeTrace at hst
    dsimp only at hst
    split at hst
    · cases hst
    · cases hst
      exact TraceState.initial_fromRecovery _ _ _ _
  unfold rerun at h
  split at h
  · obtain ⟨state, _, hst⟩ := Option.bind_eq_some_iff.mp h
    split at hst
    · exact (hresume state [] hst).outputs
    · exact (hresume state _ hst).outputs
    · cases hst
    · cases hst
  · cases h

theorem alive_step (a : LifeAction) (h : ex.Alive tid life.exec) (hs : life.step ex tid a = some life') :
    ex.Alive tid life'.exec := by
  have hstep := step_cases a hs
  generalize life'.exec = s' at hstep ⊢
  generalize life'.decided = decided at hstep
  cases hstep with
  | exec a _ hstep => exact h.exec a hstep
  | execute st ht =>
    obtain ⟨_, _, hco⟩ := h.live st ht
    exact Executor.alive_start ex st hco.outputs _ _ h.log
  | suspendFails args n e hp =>
    exact h.exec .findReady (.stop _ _ e (by simp [hp]) rfl rfl (.inl rfl) rfl rfl rfl (fun _ hn => hn)
      (Nat.le_add_right _ _))
  | suspend args n hp htasks =>
    refine ⟨h.log.append _ fun r hr _ => ?_, fun st ht => ?_, nofun⟩
    · rw [List.mem_singleton.mp hr]
      exact ⟨nofun, nofun, nofun⟩
    · obtain ⟨st₀, hsafe, hco⟩ := h.live st ht
      exact ⟨st₀, hsafe.ended (.ok ()) htasks rfl (.inl rfl) rfl (fun _ hn => hn) (Nat.le_add_right _ _),
        hco⟩
  | removeTrace => exact ⟨h.log, nofun, fun n st _ => nofun⟩
  | resume hookId args suspended hsusp hid =>
    exact Executor.alive_rebuild ex _ _ (fun _ => rfl) _ _ _ h.log
  | crash kept => exact ⟨h.log.isPrefix _ (List.take_prefix _ _), nofun, fun n st => nofun⟩
  | rerun args st hst => exact Executor.alive_rebuild ex _ st (rerun_outputs args st hst) _ _ _ h.log
  | restore args hnone => exact h
  | takeHook hookId decision => exact h
  | otherSuspend state => exact h

theorem alive_begin (ex : Executor) (triggerId : String) (input : RelPtr) (arena : Table RelPtr Bytes)
    (earlier : List WalRecord) (hearlier : ∀ r ∈ earlier, r.traceId ≠ tid) (now : UInt64)
    (store : MemorySuspensionStore) :
    ex.Alive tid (begin tid triggerId input arena earlier now store).exec :=
  Executor.alive_start ex _ (fun _ => rfl) arena _ (startsFirst_start earlier hearlier now)

theorem alive_run (actions : List LifeAction) (h : ex.Alive tid life.exec)
    (hrun : Machine.run (step ex tid) life actions = some life') : ex.Alive tid life'.exec :=
  Machine.run_invariant (fun life => ex.Alive tid life.exec) (fun _ a _ h hs => alive_step a h hs)
    actions h hrun

end Life

/-! ### What is rebuilt from the log -/

def loggedOutput (tid : TraceId) (wal : List WalRecord) (n : NodeId) : Option NodeOutput :=
  if isOpen tid wal then (loggedLocation tid wal n).map fun loc => loc.output "out" else none

section Rebuilt
variable {tid : TraceId} {wal : List WalRecord}

theorem loggedOutput_some (h : StartsFirst tid wal) (state : TraceRecoveryState)
    (hs : replay Table.empty (wal.map WalRecord.readBack) tid = some state) (n : NodeId) :
    (state.completedNodes n).map (fun loc => loc.output "out") = loggedOutput tid wal n := by
  have hopen : isOpen tid wal = true := by
    rw [← isOpen_readBack, ← isSome_replay, hs]
    rfl
  rw [loggedOutput, hopen, (h.replayed state hs).2 n]
  rfl

theorem resumedState_outputs (h : StartsFirst tid wal) (suspended : SuspendedTraceState)
    (decision : ResumeDecision) (data : RelPtr) (n : NodeId) :
    (resumedState suspended (replay Table.empty (wal.map WalRecord.readBack) tid) decision data).outputs n =
      if n = suspended.suspendedAt then some (.complete decision.outputPort data 0)
      else loggedOutput tid wal n := by
  show (resumedOutputs _ suspended.suspendedAt decision data) n = _
  unfold resumedOutputs
  by_cases hn : n = suspended.suspendedAt
  · rw [if_pos hn, hn]
    exact Table.insert_self _ _ _
  · rw [if_neg hn]
    refine (Table.insert_ne _ _ hn).trans ?_
    cases hs : replay Table.empty (wal.map WalRecord.readBack) tid with
    | some state => exact loggedOutput_some h state hs n
    | none =>
      have hclosed : isOpen tid wal = false := by
        rw [← isOpen_readBack, ← isSome_replay, hs]
        rfl
      rw [loggedOutput, hclosed]
      rfl

theorem Life.rerun_logged {life : Life} (h : StartsFirst tid life.exec.wal) (args : RecoverArgs)
    (st : TraceState) (hst : life.rerun tid args = some st) (n : NodeId) :
    st.outputs n = loggedOutput tid life.exec.wal n := by
  unfold rerun at hst
  split at hst
  · obtain ⟨state, hs, hst⟩ := Option.bind_eq_some_iff.mp hst
    have hfrom (hst : rerunFrom args state [] = some st) :
        st.outputs n = loggedOutput tid life.exec.wal n := by
      unfold rerunFrom Executor.resumeTrace at hst
      dsimp only at hst
      split at hst
      · cases hst
      · cases hst
        exact loggedOutput_some h state hs n
    -- nodes are never logged as started, so there is nothing to retry
    have hstarted := (h.replayed state hs).1
    cases ha : determineAction state with
    | resumeFrom node =>
      rw [ha] at hst
      exact hfrom hst
    | retryNodes nodes =>
      unfold determineAction at ha
      split at ha
      · cases ha
      · split at ha
        · rename_i hne
          exact absurd hstarted hne
        · split at ha
          · cases ha
          · cases ha
    | awaitResume node =>
      rw [ha] at hst
      cases hst
    | skip reason =>
      rw [ha] at hst
      cases hst
  · cases hst

end Rebuilt

end Xerv
