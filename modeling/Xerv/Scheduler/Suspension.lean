import Xerv.Scheduler.Recovery

/-!
# Suspension and resume (`scheduler/suspension.rs`, `suspension/store.rs`, `suspension/request.rs`)

`suspend_trace` puts a trace into the suspension store and logs it;
`resume_suspended_trace` takes it out again, rebuilds its state from the log and the
decision, and runs it. The steps between the removal from the store and the call of
`execute_trace` can fail, and nothing puts the suspension back. Times are seconds; what
the file system, the arena and the log answer is the environment of a call.
-/

namespace Xerv
open Xerv.Lib

/-! ### Requests and decisions -/

structure SuspendedTraceState where
  hookId : String
  traceId : TraceId
  suspendedAt : NodeId
  arenaPath : String
  createdAt : ℤ
  expiresAt : Option ℤ
  timeoutAction : TimeoutAction
  metadata : Json
  pipelineId : String
  deriving DecidableEq

namespace SuspendedTraceState

def new (hookId : String) (traceId : TraceId) (suspendedAt : NodeId) (arenaPath pipelineId : String)
    (now : ℤ) : SuspendedTraceState :=
  ⟨hookId, traceId, suspendedAt, arenaPath, now, none, .reject, .null, pipelineId⟩

/-- The timeout is cast to `i64`. -/
def withTimeout (s : SuspendedTraceState) (secs : UInt64) (action : TimeoutAction) (now : ℤ) :
    SuspendedTraceState :=
  { s with expiresAt := some (now + secs.toBitVec.toInt), timeoutAction := action }

def withMetadata (s : SuspendedTraceState) (metadata : Json) : SuspendedTraceState :=
  { s with metadata := metadata }

end SuspendedTraceState

inductive ResumeDecision where
  | approve (responseData : Option Json)
  | reject (reason : Option String)
  | escalate (details : Option Json)
  deriving DecidableEq

def ResumeDecision.outputPort : ResumeDecision → String
  | approve _ => "out"
  | reject _ => "rejected"
  | escalate _ => "escalated"

def optionalJson (v : Option Json) : Json := v.getD .null

/-- `decision_data` of `resume_suspended_trace`. -/
def ResumeDecision.data : ResumeDecision → Option Json
  | approve responseData => responseData
  | reject reason =>
    some (.object [("rejected", .bool true), ("reason", optionalJson (reason.map .string))])
  | escalate details => some (.object [("escalated", .bool true), ("details", optionalJson details)])

/-! ### The store -/

structure MemorySuspensionStore where
  suspensions : Table String SuspendedTraceState
  pendingResumes : Table String ResumeDecision

namespace MemorySuspensionStore

def new : MemorySuspensionStore := ⟨Table.empty, Table.empty⟩

def suspend (store : MemorySuspensionStore) (state : SuspendedTraceState) :
    Except XervError MemorySuspensionStore :=
  if (store.suspensions state.hookId).isSome then
    .error (.suspensionFailed state.traceId ("Hook ID '" ++ state.hookId ++ "' already in use"))
  else .ok { store with suspensions := store.suspensions.insert state.hookId state }

def resume (store : MemorySuspensionStore) (hookId : String) (decision : ResumeDecision) :
    Except XervError (SuspendedTraceState × MemorySuspensionStore) :=
  match store.suspensions hookId with
  | none => .error (.hookNotFound hookId)
  | some state =>
    .ok (state, ⟨store.suspensions.remove hookId, store.pendingResumes.insert hookId decision⟩)

end MemorySuspensionStore

/-! ### Suspending -/

def decimal (n : ℕ) : Json := .number (String.ofList (padded 10 1 n))

/-- `{:?}` of a `TimeoutAction`. -/
def TimeoutAction.debug : TimeoutAction → String
  | approve => "Approve"
  | reject => "Reject"
  | escalate => "Escalate"

/-- The state that `suspend_trace` puts into the store. -/
def suspendedState (request : SuspensionRequest) (traceId : TraceId) (node : NodeId)
    (arenaPath : String) (pipelineId : Option String) (now later : ℤ) : SuspendedTraceState :=
  let suspended := (SuspendedTraceState.new request.hookId traceId node arenaPath
    (pipelineId.getD "unknown") now).withMetadata request.metadata
  match request.timeoutSecs with
  | some secs => suspended.withTimeout secs request.timeoutAction later
  | none => suspended

/-- The metadata of the `TraceSuspended` record. -/
def suspensionMetadata (request : SuspensionRequest) (pending : RelPtr) : Json :=
  .object [("hook_id", .string request.hookId),
    ("pending_data_offset", decimal pending.offset.toNat),
    ("pending_data_size", decimal pending.size.toNat),
    ("timeout_secs", optionalJson (request.timeoutSecs.map fun secs => decimal secs.toNat)),
    ("timeout_action", .string request.timeoutAction.debug)]

/-! ### Resuming -/

/-- The outputs that the log and the decision give. -/
def resumedOutputs (recovery : Option TraceRecoveryState) (node : NodeId) (decision : ResumeDecision)
    (data : RelPtr) : Table NodeId NodeOutput :=
  let logged : Table NodeId NodeOutput := match recovery with
    | none => Table.empty
    | some recovery => recovery.completedNodes.mapValues fun loc => loc.output "out"
  logged.insert node (.complete decision.outputPort data 0)

/-- The trace state that `resume_suspended_trace` puts into the executor. -/
def resumedState (suspended : SuspendedTraceState) (recovery : Option TraceRecoveryState)
    (decision : ResumeDecision) (data : RelPtr) : TraceState :=
  .fromRecovery suspended.traceId suspended.pipelineId RelPtr.null
    (resumedOutputs recovery suspended.suspendedAt decision data)

/-- What the executor keeps besides the configuration: its store, its active traces and the log. -/
structure Runtime where
  store : Option MemorySuspensionStore
  traces : Table TraceId TraceState
  wal : List WalRecord

/-- What the file system, `serde_json`, the arena and the log answer to one resume. -/
structure ResumeEnv where
  arenaOpen : Except String Unit
  incomplete : Except XervError TraceMap
  toVec : Json → Except String Bytes
  writeBytes : Bytes → Except XervError RelPtr
  walWrite : Except WalWriteError Unit
  now : UInt64

def ResumeEnv.decisionPtr (env : ResumeEnv) (decision : ResumeDecision) : Except XervError RelPtr :=
  match decision.data with
  | none => .ok RelPtr.null
  | some data =>
    match env.toVec data with
    | .error e => .error (.serialization ("Failed to serialize decision data: " ++ e))
    | .ok bytes => env.writeBytes bytes

/-- `resume_suspended_trace` up to the call of `execute_trace`. -/
def resumeSuspendedTrace (rt : Runtime) (hookId : String) (decision : ResumeDecision)
    (env : ResumeEnv) : Runtime × Except XervError TraceId :=
  match rt.store with
  | none => (rt, .error (.hookNotFound hookId))
  | some store =>
    match store.resume hookId decision with
    | .error e => (rt, .error e)
    | .ok (suspended, store) =>
      let rt := { rt with store := some store }
      match env.arenaOpen with
      | .error e =>
        (rt, .error (.arenaCreate suspended.arenaPath
          ("Failed to reopen arena for suspended trace: " ++ e)))
      | .ok () =>
        match env.incomplete with
        | .error e => (rt, .error e)
        | .ok incomplete =>
          match env.decisionPtr decision with
          | .error e => (rt, .error e)
          | .ok data =>
            let state := resumedState suspended (incomplete suspended.traceId) decision data
            let rt := { rt with traces := rt.traces.insert suspended.traceId state }
            match env.walWrite with
            | .error e => (rt, .error (.walWrite e.traceId e.cause))
            | .ok () =>
              ({ rt with wal := rt.wal ++ [.traceResumed suspended.traceId env.now] },
                .ok suspended.traceId)

def Runtime.suspension (rt : Runtime) (hookId : String) : Option SuspendedTraceState :=
  rt.store.bind fun store => store.suspensions hookId

/-- A resume that fails leaves the suspension and the active traces as they were, and the hook can
still be resumed. -/
structure ResumeFailureSafe (rt : Runtime) (hookId : String) (decision : ResumeDecision)
    (env : ResumeEnv) : Prop where
  store : ∀ e, (resumeSuspendedTrace rt hookId decision env).2 = .error e →
    (resumeSuspendedTrace rt hookId decision env).1.suspension hookId = rt.suspension hookId
  traces : ∀ e, (resumeSuspendedTrace rt hookId decision env).2 = .error e →
    (resumeSuspendedTrace rt hookId decision env).1.traces = rt.traces
  again : ∀ e, (resumeSuspendedTrace rt hookId decision env).2 = .error e →
    (rt.suspension hookId).isSome = true →
      ∃ env' traceId, (resumeSuspendedTrace
        (resumeSuspendedTrace rt hookId decision env).1 hookId decision env').2 = .ok traceId

/-- Nothing that the resume asks for fails. -/
structure ResumeEnv.Sound (env : ResumeEnv) (decision : ResumeDecision) : Prop where
  arenaOpen : env.arenaOpen = .ok ()
  incomplete : ∃ incomplete, env.incomplete = .ok incomplete
  decisionPtr : ∃ data, env.decisionPtr decision = .ok data
  walWrite : env.walWrite = .ok ()

section Resume
variable {rt : Runtime} {hookId : String} {decision : ResumeDecision} {env : ResumeEnv}

theorem resume_unknown (decision : ResumeDecision) (env : ResumeEnv)
    (h : rt.suspension hookId = none) :
    resumeSuspendedTrace rt hookId decision env = (rt, .error (.hookNotFound hookId)) := by
  unfold resumeSuspendedTrace
  cases hs : rt.store with
  | none => rfl
  | some store =>
    have hnone : store.suspensions hookId = none := by simpa [Runtime.suspension, hs] using h
    simp only [MemorySuspensionStore.resume, hnone]

/-- A hook that is suspended leaves the store before anything can fail. -/
theorem resume_consumes (state : SuspendedTraceState) (h : rt.suspension hookId = some state) :
    (resumeSuspendedTrace rt hookId decision env).1.suspension hookId = none := by
  obtain ⟨store, hs, hstate⟩ := Option.bind_eq_some_iff.mp h
  unfold resumeSuspendedTrace
  simp only [hs, MemorySuspensionStore.resume, hstate]
  split
  · simp [Runtime.suspension]
  · split
    · simp [Runtime.suspension]
    · split
      · simp [Runtime.suspension]
      · split
        · simp [Runtime.suspension]
        · simp [Runtime.suspension]

theorem resume_ok_iff (state : SuspendedTraceState) (h : rt.suspension hookId = some state) :
    (∃ traceId, (resumeSuspendedTrace rt hookId decision env).2 = .ok traceId) ↔
      env.Sound decision := by
  obtain ⟨store, hs, hstate⟩ := Option.bind_eq_some_iff.mp h
  unfold resumeSuspendedTrace
  simp only [hs, MemorySuspensionStore.resume, hstate]
  constructor
  · rintro ⟨traceId, hok⟩
    split at hok
    · cases hok
    · rename_i hopen
      split at hok
      · cases hok
      · rename_i incomplete hread
        split at hok
        · cases hok
        · rename_i data hdata
          split at hok
          · cases hok
          · rename_i hwrite
            exact ⟨hopen, ⟨incomplete, hread⟩, ⟨data, hdata⟩, hwrite⟩
  · rintro ⟨hopen, ⟨incomplete, hread⟩, ⟨data, hdata⟩, hwrite⟩
    simp only [hopen, hread, hdata, hwrite]
    exact ⟨_, rfl⟩

theorem resume_unknown_safe (h : rt.suspension hookId = none) :
    ResumeFailureSafe rt hookId decision env := by
  have hres := resume_unknown decision env h
  refine ⟨fun e _ => ?_, fun e _ => ?_, fun e _ hsome => ?_⟩
  · rw [hres]
  · rw [hres]
  · rw [h] at hsome
    cases hsome

/-- The failure of a resume is harmless exactly when the hook was not suspended or nothing fails. -/
theorem resume_failure_safe_iff (rt : Runtime) (hookId : String) (decision : ResumeDecision)
    (env : ResumeEnv) :
    ResumeFailureSafe rt hookId decision env ↔
      rt.suspension hookId = none ∨ env.Sound decision := by
  constructor
  · intro h
    cases hsusp : rt.suspension hookId with
    | none => exact .inl rfl
    | some state =>
      refine .inr ((resume_ok_iff state hsusp).mp ?_)
      cases hres : (resumeSuspendedTrace rt hookId decision env).2 with
      | ok traceId => exact ⟨traceId, rfl⟩
      | error e =>
        have hkept := h.store e hres
        rw [resume_consumes state hsusp, hsusp] at hkept
        cases hkept
  · rintro (hnone | hsound)
    · exact resume_unknown_safe hnone
    · cases hsusp : rt.suspension hookId with
      | none => exact resume_unknown_safe hsusp
      | some state =>
        obtain ⟨traceId, hok⟩ := (resume_ok_iff state hsusp).mpr hsound
        have hno (e : XervError) (he : (resumeSuspendedTrace rt hookId decision env).2 = .error e) :
            False := by
          rw [hok] at he
          cases he
        exact ⟨fun e he => (hno e he).elim, fun e he => (hno e he).elim, fun e he => (hno e he).elim⟩

end Resume

def approvalStored : SuspendedTraceState :=
  .new "approval" sampleTrace 1 "/tmp/xerv/trace.bin" "orders" 0

def approvalRuntime : Runtime :=
  ⟨some ⟨Table.empty.insert "approval" approvalStored, Table.empty⟩, Table.empty,
    [.traceStart sampleTrace 0, .traceSuspended sampleTrace 1 0]⟩

def unreadableLog : ResumeEnv where
  arenaOpen := .ok ()
  incomplete := .error (.walRead "Failed to read record: failed to fill whole buffer")
  toVec _ := .ok []
  writeBytes _ := .ok RelPtr.null
  walWrite := .ok ()
  now := 0

/-- The log cannot be read: the resume fails and the suspension is gone. -/
theorem failed_resume_drops_suspension :
    ¬ ResumeFailureSafe approvalRuntime "approval" (.approve none) unreadableLog := by
  intro h
  have hkept := h.store (.walRead "Failed to read record: failed to fill whole buffer") rfl
  exact absurd hkept (by decide)

end Xerv
