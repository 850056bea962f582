import Xerv.Scheduler.Suspension
import Xerv.Wal.Visible

/-!
# Crash recovery of all traces (`xerv-executor/src/recovery/mod.rs`)

`recover_all` replays the log and acts on every incomplete trace: a suspended one goes back
into the suspension store, any other is run again. A restored suspension is built from the
metadata of its `TraceSuspended` record. The record has the timeout and its action, but they
are not read back, and it does not have the metadata of the request.
-/

namespace Xerv
open Xerv.Lib

inductive RecoveryAction where
  | resumeFrom (node : NodeId)
  | retryNodes (nodes : List NodeId)
  | awaitResume (suspendedAt : NodeId)
  | skip (reason : String)

structure RecoveryReport where
  recovered : List TraceId
  awaitingResume : List TraceId
  skipped : List (TraceId × String)

def RecoveryReport.new : RecoveryReport := ⟨[], [], []⟩

structure CrashReplayer where
  suspensionStore : Option MemorySuspensionStore
  pipelineId : String
  arenaDir : String

/-- `serde_json` on texts. -/
structure SerdeJson where
  toString : Json → String
  fromStr : String → Except String Json

def determineAction (state : TraceRecoveryState) : RecoveryAction :=
  match state.suspendedAt with
  | some suspendedAt => .awaitResume suspendedAt
  | none =>
    if state.startedNodes ≠ [] then .retryNodes state.startedNodes
    else
      match state.lastCompletedNode with
      | some last => .resumeFrom last
      | none => .resumeFrom 0

/-- `Path::join`. -/
def joinPath (dir file : String) : String :=
  if dir.isEmpty || dir.endsWith "/" then dir ++ file else dir ++ "/" ++ file

/-- The arena of a trace, as `Arena::create` and the recovery name it. -/
def arenaFile (dir : String) (t : TraceId) : String :=
  joinPath dir (String.ofList ("trace_".toList ++ t.uuid ++ ".bin".toList))

def recoveredHook (t : TraceId) : String := String.ofList ("recovered_".toList ++ t.uuid)

/-- The hook and the metadata that `restore_suspended_trace` takes from the log. -/
def restoredMetadata (serde : SerdeJson) (t : TraceId) (metadata : Option String) (time : String) :
    String × Json :=
  match metadata with
  | some text =>
    match serde.fromStr text with
    | .ok parsed =>
      (((parsed.get "hook_id").bind Json.asStr).getD (recoveredHook t),
        (parsed.insert "recovered" (.bool true)).insert "recovery_time" (.string time))
    | .error e =>
      (recoveredHook t, .object [("recovered", .bool true), ("recovery_time", .string time),
        ("metadata_parse_error", .string e)])
  | none =>
    (recoveredHook t, .object [("recovered", .bool true), ("recovery_time", .string time),
      ("note", .string "No suspension metadata found in WAL")])

/-- The state that `restore_suspended_trace` puts into the store. -/
def CrashReplayer.restoredState (replayer : CrashReplayer) (serde : SerdeJson) (t : TraceId)
    (suspendedAt : NodeId) (state : TraceRecoveryState) (time : String) (now : ℤ) :
    SuspendedTraceState :=
  let (hookId, metadata) := restoredMetadata serde t state.suspensionMetadata time
  (SuspendedTraceState.new hookId t suspendedAt (arenaFile replayer.arenaDir t) replayer.pipelineId
    now).withMetadata metadata

/-- What running one trace again does: it may suspend once more, and it ends. -/
structure Rerun where
  suspends : Option SuspendedTraceState
  result : Except String Unit

/-- What the clock and the executor do during one `recover_all`. -/
structure RecoverEnv where
  serde : SerdeJson
  time : String
  now : ℤ
  rerun : TraceId → Rerun

/-- The store and the report while `recover_all` goes through the traces. -/
structure Recovering where
  store : Option MemorySuspensionStore
  report : RecoveryReport

def suspendInto (store : Option MemorySuspensionStore) (state : SuspendedTraceState) :
    Option MemorySuspensionStore :=
  store.map fun store => match store.suspend state with
    | .ok store => store
    | .error _ => store

def Recovering.rerun (r : Recovering) (env : RecoverEnv) (t : TraceId) (what : String) : Recovering :=
  let store := match (env.rerun t).suspends with
    | some state => suspendInto r.store { state with traceId := t }
    | none => r.store
  match (env.rerun t).result with
  | .ok () => ⟨store, { r.report with recovered := r.report.recovered ++ [t] }⟩
  | .error e => ⟨store, { r.report with skipped := r.report.skipped ++ [(t, what ++ " failed: " ++ e)] }⟩

/-- The body of the loop of `recover_all`. -/
def CrashReplayer.recoverTrace (replayer : CrashReplayer) (env : RecoverEnv) (incomplete : TraceMap)
    (r : Recovering) (t : TraceId) : Recovering :=
  match incomplete t with
  | none => r
  | some state =>
    match determineAction state with
    | .resumeFrom _ => r.rerun env t "Resume"
    | .retryNodes _ => r.rerun env t "Retry"
    | .awaitResume suspendedAt =>
      ⟨suspendInto r.store (replayer.restoredState env.serde t suspendedAt state env.time env.now),
        { r.report with awaitingResume := r.report.awaitingResume ++ [t] }⟩
    | .skip reason => { r with report := { r.report with skipped := r.report.skipped ++ [(t, reason)] } }

def CrashReplayer.recoverTraces (replayer : CrashReplayer) (env : RecoverEnv) (incomplete : TraceMap)
    (order : List TraceId) : Recovering :=
  order.foldl (replayer.recoverTrace env incomplete) ⟨replayer.suspensionStore, .new⟩

/-- `recover_all`; `order` is the order in which the hash map gives its traces. -/
def CrashReplayer.recoverAll (replayer : CrashReplayer) (env : RecoverEnv) (crc : Bytes → UInt32)
    (d : FileDir) (order : List TraceId) : Except XervError Recovering :=
  match getIncompleteTraces crc d with
  | .error e => .error e
  | .ok incomplete => .ok (replayer.recoverTraces env incomplete order)

/-! ### What ends up in the store -/

def RecoveryAction.awaits : RecoveryAction → Bool
  | .awaitResume _ => true
  | _ => false

/-- The suspension that the recovery of one trace tries to store. -/
def CrashReplayer.attempt (replayer : CrashReplayer) (env : RecoverEnv) (incomplete : TraceMap)
    (t : TraceId) : Option SuspendedTraceState :=
  (incomplete t).bind fun state => match determineAction state with
    | .awaitResume suspendedAt =>
      some (replayer.restoredState env.serde t suspendedAt state env.time env.now)
    | .resumeFrom _ | .retryNodes _ => (env.rerun t).suspends.map fun x => { x with traceId := t }
    | .skip _ => none

def awaiting (incomplete : TraceMap) (t : TraceId) : Bool :=
  (incomplete t).any fun state => (determineAction state).awaits

section Loop
variable {replayer : CrashReplayer} {env : RecoverEnv} {incomplete : TraceMap}

theorem attempt_traceId (t : TraceId) (x : SuspendedTraceState)
    (h : replayer.attempt env incomplete t = some x) : x.traceId = t := by
  obtain ⟨state, _, hx⟩ := Option.bind_eq_some_iff.mp h
  have hrerun (y : SuspendedTraceState)
      (hy : (env.rerun t).suspends.map (fun x => { x with traceId := t }) = some y) :
      y.traceId = t := by
    obtain ⟨z, _, rfl⟩ := Option.map_eq_some_iff.mp hy
    rfl
  cases ha : determineAction state with
  | awaitResume suspendedAt =>
    rw [ha] at hx
    cases hx
    rfl
  | resumeFrom node =>
    rw [ha] at hx
    exact hrerun x hx
  | retryNodes nodes =>
    rw [ha] at hx
    exact hrerun x hx
  | skip reason =>
    rw [ha] at hx
    cases hx

theorem rerun_store (r : Recovering) (t : TraceId) (what : String) :
    (r.rerun env t what).store =
      ((env.rerun t).suspends.map fun x => { x with traceId := t }).elim r.store (suspendInto r.store) := by
  unfold Recovering.rerun
  cases (env.rerun t).result with
  | ok u => cases (env.rerun t).suspends <;> rfl
  | error e => cases (env.rerun t).suspends <;> rfl

theorem rerun_awaiting (r : Recovering) (t : TraceId) (what : String) :
    (r.rerun env t what).report.awaitingResume = r.report.awaitingResume := by
  unfold Recovering.rerun
  cases (env.rerun t).result with
  | ok u => rfl
  | error e => rfl

theorem recoverTrace_store (r : Recovering) (t : TraceId) :
    (replayer.recoverTrace env incomplete r t).store =
      (replayer.attempt env incomplete t).elim r.store (suspendInto r.store) := by
  unfold CrashReplayer.recoverTrace CrashReplayer.attempt
  cases hs : incomplete t with
  | none => rfl
  | some state =>
    rw [Option.bind_some]
    dsimp only
    cases determineAction state with
    | resumeFrom node => exact rerun_store r t "Resume"
    | retryNodes nodes => exact rerun_store r t "Retry"
    | awaitResume suspendedAt => rfl
    | skip reason => rfl

theorem recoverTrace_awaiting (r : Recovering) (t : TraceId) :
    (replayer.recoverTrace env incomplete r t).report.awaitingResume =
      r.report.awaitingResume ++ if awaiting incomplete t then [t] else [] := by
  unfold CrashReplayer.recoverTrace awaiting
  cases hs : incomplete t with
  | none => simp
  | some state =>
    rw [Option.any_some]
    dsimp only
    cases determineAction state with
    | resumeFrom node => simp [rerun_awaiting, RecoveryAction.awaits]
    | retryNodes nodes => simp [rerun_awaiting, RecoveryAction.awaits]
    | awaitResume suspendedAt => simp [RecoveryAction.awaits]
    | skip reason => simp [RecoveryAction.awaits]

theorem suspendInto_some (store : MemorySuspensionStore) (x : SuspendedTraceState) :
    ∃ store', suspendInto (some store) x = some store' ∧ ∀ hook, store'.suspensions hook =
      (store.suspensions hook).or (if x.hookId = hook then some x else none) := by
  unfold suspendInto MemorySuspensionStore.suspend
  rw [Option.map_some]
  cases hx : store.suspensions x.hookId with
  | some y =>
    refine ⟨store, rfl, fun hook => ?_⟩
    by_cases hh : x.hookId = hook
    · subst hh
      rw [hx]
      rfl
    · rw [if_neg hh, Option.or_none]
  | none =>
    refine ⟨_, rfl, fun hook => ?_⟩
    by_cases hh : x.hookId = hook
    · subst hh
      rw [hx, if_pos rfl]
      exact Table.insert_self _ _ _
    · rw [if_neg hh, Option.or_none]
      exact Table.insert_ne _ _ fun he => hh he.symm

variable (replayer env incomplete) in
theorem recoverLoop (order : List TraceId) (r : Recovering) (store : MemorySuspensionStore)
    (hr : r.store = some store) :
    (order.foldl (replayer.recoverTrace env incomplete) r).report.awaitingResume =
      r.report.awaitingResume ++ order.filter (awaiting incomplete) ∧
    ∃ store', (order.foldl (replayer.recoverTrace env incomplete) r).store = some store' ∧
      ∀ hook, store'.suspensions hook = (store.suspensions hook).or
        ((order.filterMap (replayer.attempt env incomplete)).find? fun x => x.hookId = hook) := by
  induction order generalizing r store with
  | nil =>
    refine ⟨(List.append_nil _).symm, store, hr, fun hook => ?_⟩
    rw [List.filterMap_nil, List.find?_nil, Option.or_none]
  | cons t order ih =>
    have hone : ∃ store', (replayer.recoverTrace env incomplete r t).store = some store' ∧
        ∀ hook, store'.suspensions hook = (store.suspensions hook).or
          ((replayer.attempt env incomplete t).bind fun x => if x.hookId = hook then some x else none) := by
      rw [recoverTrace_store, hr]
      cases replayer.attempt env incomplete t with
      | none => exact ⟨store, rfl, fun hook => (Option.or_none).symm⟩
      | some x => exact suspendInto_some store x
    obtain ⟨store₁, hr₁, hs₁⟩ := hone
    obtain ⟨hawait, store₂, hr₂, hs₂⟩ := ih (replayer.recoverTrace env incomplete r t) store₁ hr₁
    refine ⟨?_, store₂, hr₂, fun hook => ?_⟩
    · rw [List.foldl_cons, hawait, recoverTrace_awaiting, List.append_assoc, List.filter_cons]
      split
      · rfl
      · rfl
    · rw [hs₂, hs₁, Option.or_assoc]
      cases ha : replayer.attempt env incomplete t with
      | none => simp [ha]
      | some x =>
        by_cases hh : x.hookId = hook
        · simp [ha, hh]
        · simp [ha, hh]

end Loop

/-! ### A suspension and a crash -/

/-- One call of `suspend_trace` and the log around it: `before` was written earlier and `after` until
the crash, in which time the trace stays suspended. -/
structure SuspendCall where
  request : SuspensionRequest
  traceId : TraceId
  node : NodeId
  pending : RelPtr
  arenaDir : String
  pipelineId : Option String
  now : ℤ
  later : ℤ
  stamp : UInt64
  before : List WalRecord
  after : List WalRecord
  quiet : ∀ r ∈ after, r.traceId ≠ traceId

namespace SuspendCall

def stored (c : SuspendCall) : SuspendedTraceState :=
  suspendedState c.request c.traceId c.node (arenaFile c.arenaDir c.traceId) c.pipelineId c.now c.later

def logged (c : SuspendCall) : Json := suspensionMetadata c.request c.pending

def record (c : SuspendCall) (serde : SerdeJson) : WalRecord :=
  (WalRecord.traceSuspended c.traceId c.node c.stamp).withMetadata (serde.toString c.logged)

def written (c : SuspendCall) (serde : SerdeJson) : List WalRecord :=
  c.before ++ c.record serde :: c.after

def replayer (c : SuspendCall) : CrashReplayer :=
  ⟨some .new, c.pipelineId.getD "unknown", c.arenaDir⟩

def entries (c : SuspendCall) (time : String) : List (String × Json) :=
  [("recovery_time", .string time), ("recovered", .bool true),
    ("hook_id", .string c.request.hookId),
    ("pending_data_offset", decimal c.pending.offset.toNat),
    ("pending_data_size", decimal c.pending.size.toNat),
    ("timeout_secs", optionalJson (c.request.timeoutSecs.map fun secs => decimal secs.toNat)),
    ("timeout_action", .string c.request.timeoutAction.debug)]

end SuspendCall

/-- Two states describe the same suspension; the second may have more metadata. -/
structure SameSuspension (a b : SuspendedTraceState) : Prop where
  hookId : b.hookId = a.hookId
  traceId : b.traceId = a.traceId
  suspendedAt : b.suspendedAt = a.suspendedAt
  arenaPath : b.arenaPath = a.arenaPath
  pipelineId : b.pipelineId = a.pipelineId
  expiresAt : b.expiresAt = a.expiresAt
  timeoutAction : b.timeoutAction = a.timeoutAction
  metadata : ∀ key value, a.metadata.get key = some value → b.metadata.get key = some value

/-- After the recovery the trace awaits its resume, and the store has its suspension as it was. -/
def PutBack (c : SuspendCall) (env : RecoverEnv) (crc : Bytes → UInt32) (d : FileDir)
    (order : List TraceId) : Prop :=
  ∃ r, c.replayer.recoverAll env crc d order = .ok r ∧ c.traceId ∈ r.report.awaitingResume ∧
    ∃ store restored, r.store = some store ∧ store.suspensions c.request.hookId = some restored ∧
      SameSuspension c.stored restored

/-- The trace was started, the record of the suspension has survived, there is no timeout, the
metadata of the request has nothing of its own, and no trace recovered earlier takes the hook. -/
structure Restorable (c : SuspendCall) (env : RecoverEnv) (crc : Bytes → UInt32) (d : FileDir)
    (order : List TraceId) : Prop where
  started : isOpen c.traceId c.before = true
  survives : ∃ rs, readAll crc d = .ok rs ∧ c.before.length < rs.length
  timeless : c.request.timeoutSecs = none
  covered : ∀ key value, c.request.metadata.get key = some value → (key, value) ∈ c.entries env.time
  free : ∀ incomplete, getIncompleteTraces crc d = .ok incomplete →
    ∀ t ∈ order.takeWhile (· ≠ c.traceId), ∀ x, c.replayer.attempt env incomplete t = some x →
      x.hookId ≠ c.request.hookId

section Crash
variable {c : SuspendCall} {env : RecoverEnv} {crc : Bytes → UInt32} {d : FileDir}
  {order : List TraceId}

theorem restored_entries (time : String) (key : String) (value : Json) :
    ((c.logged.insert "recovered" (.bool true)).insert "recovery_time" (.string time)).get key =
      some value ↔ (key, value) ∈ c.entries time := by
  have hobject : (c.logged.insert "recovered" (.bool true)).insert "recovery_time" (.string time) =
      .object (c.entries time) := by
    simp [SuspendCall.logged, suspensionMetadata, Json.insert, SuspendCall.entries]
  have hkeys : ((c.entries time).map Prod.fst).Nodup := by
    simp [SuspendCall.entries]
  rw [hobject]
  exact Json.get_object_iff _ hkeys key value

theorem restoredMetadata_logged
    (hround : env.serde.fromStr (env.serde.toString c.logged) = .ok c.logged) :
    restoredMetadata env.serde c.traceId (some (env.serde.toString c.logged)) env.time =
      (c.request.hookId,
        (c.logged.insert "recovered" (.bool true)).insert "recovery_time" (.string env.time)) := by
  have hhook : (c.logged.get "hook_id").bind Json.asStr = some c.request.hookId := rfl
  simp only [restoredMetadata, hround, hhook, Option.getD_some]

theorem stored_traceId : c.stored.traceId = c.traceId := by
  unfold SuspendCall.stored suspendedState
  cases c.request.timeoutSecs with
  | none => rfl
  | some secs => rfl

theorem sameSuspension_iff (now : ℤ) (time : String) :
    SameSuspension c.stored ((SuspendedTraceState.new c.request.hookId c.traceId c.node
        (arenaFile c.arenaDir c.traceId) (c.pipelineId.getD "unknown") now).withMetadata
          ((c.logged.insert "recovered" (.bool true)).insert "recovery_time" (.string time))) ↔
      c.request.timeoutSecs = none ∧
        ∀ key value, c.request.metadata.get key = some value → (key, value) ∈ c.entries time := by
  unfold SuspendCall.stored suspendedState
  cases ht : c.request.timeoutSecs with
  | some secs =>
    constructor
    · intro h
      have hexp := h.expiresAt
      cases hexp
    · rintro ⟨hnone, _⟩
      cases hnone
  | none =>
    constructor
    · intro h
      refine ⟨rfl, fun key value hv => ?_⟩
      exact (restored_entries time key value).mp (h.metadata key value hv)
    · rintro ⟨_, hall⟩
      refine ⟨rfl, rfl, rfl, rfl, rfl, rfl, rfl, fun key value hv => ?_⟩
      exact (restored_entries time key value).mpr (hall key value hv)

variable (c env) in
theorem replay_survived (seen : List WalRecord) (hseen : seen <+: c.written env.serde)
    (hlen : c.before.length < seen.length) (htext : env.serde.toString c.logged ≠ "") :
    (replay Table.empty (seen.map WalRecord.readBack) c.traceId).isSome = isOpen c.traceId c.before ∧
    ∀ state, replay Table.empty (seen.map WalRecord.readBack) c.traceId = some state →
      state.suspendedAt = some c.node ∧
        state.suspensionMetadata = some (env.serde.toString c.logged) := by
  obtain ⟨rest, hrest, rfl⟩ : ∃ rest, rest <+: c.after ∧ seen = c.before ++ c.record env.serde :: rest := by
    obtain ⟨tail, htail⟩ := hseen
    unfold SuspendCall.written at htail
    rcases List.append_eq_append_iff.mp htail with ⟨as, hbefore, _⟩ | ⟨bs, hs, hb⟩
    · rw [hbefore, List.length_append] at hlen
      omega
    · cases bs with
      | nil =>
        rw [hs, List.append_nil] at hlen
        omega
      | cons b bs =>
        obtain ⟨rfl, hafter⟩ := List.cons.inj hb
        exact ⟨bs, ⟨tail, hafter.symm⟩, hs⟩
  have hquiet : ∀ r ∈ rest.map WalRecord.readBack, r.traceId ≠ c.traceId := by
    intro r hr
    obtain ⟨x, hx, rfl⟩ := List.mem_map.mp hr
    exact c.quiet x (hrest.subset hx)
  have hmeta : (c.record env.serde).readBack.metadata = some (env.serde.toString c.logged) :=
    readBackText_of_ne _ fun he => htext (Option.some.inj he)
  have hreplay : replay Table.empty
      ((c.before ++ c.record env.serde :: rest).map WalRecord.readBack) c.traceId =
        (replay Table.empty (c.before.map WalRecord.readBack) c.traceId).map fun s =>
          { s with suspendedAt := some c.node
                   suspensionMetadata := (c.record env.serde).readBack.metadata } := by
    rw [List.map_append, List.map_cons, List.append_cons, replay_append, replay_others _ _ _ hquiet,
      replay_append, replay_singleton]
    exact Table.modify_self _ _ _
  rw [hreplay]
  refine ⟨?_, fun state hstate => ?_⟩
  · rw [Option.isSome_map, isSome_replay, isOpen_readBack]
  · obtain ⟨s, _, rfl⟩ := Option.map_eq_some_iff.mp hstate
    exact ⟨rfl, hmeta⟩

/-- Among the suspensions that are tried in order, the one of `owner` gets the hook if it is its own
and no earlier one has it. -/
theorem find_attempt_iff (attempt : TraceId → Option SuspendedTraceState)
    (hown : ∀ t x, attempt t = some x → x.traceId = t) (order : List TraceId) (hnodup : order.Nodup)
    (owner : TraceId) (howner : owner ∈ order) (x : SuspendedTraceState) (hx : attempt owner = some x)
    (hook : String) (y : SuspendedTraceState) :
    ((order.filterMap attempt).find? (fun x => x.hookId = hook) = some y ∧ y.traceId = owner) ↔
      y = x ∧ x.hookId = hook ∧ ∀ t ∈ order.takeWhile (· ≠ owner), ∀ z, attempt t = some z →
        z.hookId ≠ hook := by
  induction order with
  | nil => exact absurd howner List.not_mem_nil
  | cons t order ih =>
    obtain ⟨hnew, hrest⟩ := List.nodup_cons.mp hnodup
    by_cases ht : t = owner
    · subst ht
      have hnone (hy : (order.filterMap attempt).find? (fun x => x.hookId = hook) = some y)
          (hid : y.traceId = t) : False := by
        obtain ⟨t', ht', hy'⟩ := List.mem_filterMap.mp (List.mem_of_find?_eq_some hy)
        have hsame : t' = t := (hown t' y hy').symm.trans hid
        exact hnew (hsame ▸ ht')
      by_cases hh : x.hookId = hook
      · simp [hx, hh, eq_comm]
        intro he
        rw [← he]
        exact (hown t x hx).symm
      · simp only [List.filterMap_cons, hx, List.find?_cons, hh, decide_false, false_and, and_false,
          iff_false]
        exact fun h => hnone h.1 h.2
    · have howner' : owner ∈ order := (List.mem_cons.mp howner).resolve_left fun he => ht he.symm
      have ih := ih hrest howner'
      have hwhile : (t :: order).takeWhile (fun t => decide (t ≠ owner)) =
          t :: order.takeWhile (fun t => decide (t ≠ owner)) := by simp [ht]
      rw [hwhile]
      cases ha : attempt t with
      | none => simpa [ha] using ih
      | some z =>
        by_cases hz : z.hookId = hook
        · have hzt : z.traceId ≠ owner := fun he => ht ((hown t z ha).symm.trans he)
          simp only [List.filterMap_cons, ha, List.find?_cons, hz, decide_true, Option.some.injEq]
          constructor
          · rintro ⟨rfl, hid⟩
            exact absurd hid hzt
          · rintro ⟨_, _, hall⟩
            exact absurd hz (hall t List.mem_cons_self z ha)
        · simpa [ha, hz] using ih

variable (c env order) in
theorem recoverAll_ok (rs : List WalRecord) (hread : readAll crc d = .ok rs) :
    getIncompleteTraces crc d = .ok (replay Table.empty rs) ∧
    ∃ r store, c.replayer.recoverAll env crc d order = .ok r ∧ r.store = some store ∧
      r.report.awaitingResume = order.filter (awaiting (replay Table.empty rs)) ∧
      ∀ hook, store.suspensions hook =
        (order.filterMap (c.replayer.attempt env (replay Table.empty rs))).find?
          fun x => x.hookId = hook := by
  have hincomplete : getIncompleteTraces crc d = .ok (replay Table.empty rs) := by
    rw [getIncompleteTraces_readAll, hread]
    rfl
  obtain ⟨hawait, store, hstore, hs⟩ := recoverLoop c.replayer env (replay Table.empty rs) order
    ⟨some .new, .new⟩ .new rfl
  refine ⟨hincomplete, _, store, ?_, hstore, ?_, fun hook => ?_⟩
  · unfold CrashReplayer.recoverAll
    rw [hincomplete]
    rfl
  · rw [hawait]
    rfl
  · rw [hs hook]
    rfl

theorem attempt_suspended (incomplete : TraceMap) (t : TraceId) (state : TraceRecoveryState) (n : NodeId)
    (hstate : incomplete t = some state) (hn : state.suspendedAt = some n) :
    c.replayer.attempt env incomplete t =
      some (c.replayer.restoredState env.serde t n state env.time env.now) := by
  simp only [CrashReplayer.attempt, hstate, Option.bind_some, determineAction, hn]

theorem restoredState_logged (state : TraceRecoveryState)
    (hround : env.serde.fromStr (env.serde.toString c.logged) = .ok c.logged)
    (hmeta : state.suspensionMetadata = some (env.serde.toString c.logged)) :
    c.replayer.restoredState env.serde c.traceId c.node state env.time env.now =
      (SuspendedTraceState.new c.request.hookId c.traceId c.node (arenaFile c.arenaDir c.traceId)
        (c.pipelineId.getD "unknown") env.now).withMetadata
          ((c.logged.insert "recovered" (.bool true)).insert "recovery_time" (.string env.time)) := by
  simp only [CrashReplayer.restoredState, hmeta, restoredMetadata_logged hround]
  rfl

theorem awaiting_iff (incomplete : TraceMap) (t : TraceId) :
    awaiting incomplete t = true ↔ ∃ state n, incomplete t = some state ∧ state.suspendedAt = some n := by
  unfold awaiting
  rw [Option.any_eq_true]
  constructor
  · rintro ⟨state, hstate, hact⟩
    cases hn : state.suspendedAt with
    | some n => exact ⟨state, n, hstate, hn⟩
    | none =>
      simp only [determineAction, hn] at hact
      split at hact
      · cases hact
      · split at hact
        · cases hact
        · cases hact
  · rintro ⟨state, n, hstate, hn⟩
    refine ⟨state, hstate, ?_⟩
    simp only [determineAction, hn, RecoveryAction.awaits]

/-- Only its own record can bring the hook back: those of earlier suspensions have other hooks. -/
theorem survives_of_hook (seen : List WalRecord) (hseen : seen <+: c.written env.serde)
    (hunique : ∀ r ∈ c.before, r.traceId = c.traceId → r.recordType = .traceSuspended →
      (restoredMetadata env.serde c.traceId r.readBack.metadata env.time).1 ≠ c.request.hookId)
    (state : TraceRecoveryState) (n : NodeId)
    (hstate : replay Table.empty (seen.map WalRecord.readBack) c.traceId = some state)
    (hn : state.suspendedAt = some n)
    (hhook : (restoredMetadata env.serde c.traceId state.suspensionMetadata env.time).1 =
      c.request.hookId) : c.before.length < seen.length := by
  by_contra hle
  have hpre : seen <+: c.before := List.prefix_of_prefix_length_le hseen ⟨_, rfl⟩ (by omega)
  obtain ⟨x, hx, hid, htype, _, hmeta⟩ := replay_suspended c.traceId _ state n hstate hn
  obtain ⟨x', hx', rfl⟩ := List.mem_map.mp hx
  refine hunique x' (hpre.subset hx') hid htype ?_
  rw [← hmeta]
  exact hhook

theorem restorable_of_putBack (seen : List WalRecord)
    (hread : readAll crc d = .ok (seen.map WalRecord.readBack)) (hseen : seen <+: c.written env.serde)
    (hround : env.serde.fromStr (env.serde.toString c.logged) = .ok c.logged)
    (htext : env.serde.toString c.logged ≠ "")
    (hunique : ∀ r ∈ c.before, r.traceId = c.traceId → r.recordType = .traceSuspended →
      (restoredMetadata env.serde c.traceId r.readBack.metadata env.time).1 ≠ c.request.hookId)
    (hnodup : order.Nodup) (h : PutBack c env crc d order) : Restorable c env crc d order := by
  obtain ⟨hincomplete, r, store, hr, hstore, hawait, hfind⟩ := recoverAll_ok c env order _ hread
  obtain ⟨r', hr', hin, store', restored, hstore', hrest, hsame⟩ := h
  rw [hr] at hr'
  cases hr'
  rw [hstore] at hstore'
  cases hstore'
  rw [hawait] at hin
  obtain ⟨hin, hwaits⟩ := List.mem_filter.mp hin
  obtain ⟨state, n, hstate, hn⟩ := (awaiting_iff _ _).mp hwaits
  rw [hfind] at hrest
  obtain ⟨hy, hhook, hfree⟩ := (find_attempt_iff _ attempt_traceId order hnodup c.traceId hin _
    (attempt_suspended _ _ state n hstate hn) _ restored).mp ⟨hrest, hsame.traceId.trans stored_traceId⟩
  have hsurvives := survives_of_hook seen hseen hunique state n hstate hn hhook
  have hlogged := replay_survived c env seen hseen hsurvives htext
  obtain ⟨hat, hmeta⟩ := hlogged.2 state hstate
  have hnode : n = c.node := Option.some.inj (hn.symm.trans hat)
  subst hnode
  rw [hy, restoredState_logged state hround hmeta] at hsame
  obtain ⟨htimeless, hcovered⟩ := (sameSuspension_iff env.now env.time).mp hsame
  refine ⟨?_, ⟨_, hread, by rw [List.length_map]; exact hsurvives⟩, htimeless, hcovered, ?_⟩
  · rw [← hlogged.1, hstate]
    rfl
  · intro incomplete hinc
    rw [hincomplete] at hinc
    cases hinc
    exact hfree

theorem putBack_of_restorable (seen : List WalRecord)
    (hread : readAll crc d = .ok (seen.map WalRecord.readBack)) (hseen : seen <+: c.written env.serde)
    (hround : env.serde.fromStr (env.serde.toString c.logged) = .ok c.logged)
    (htext : env.serde.toString c.logged ≠ "") (hnodup : order.Nodup)
    (hmem : ∀ t, t ∈ order ↔
      (replay Table.empty (seen.map WalRecord.readBack) t).isSome = true)
    (h : Restorable c env crc d order) : PutBack c env crc d order := by
  obtain ⟨hincomplete, r, store, hr, hstore, hawait, hfind⟩ := recoverAll_ok c env order _ hread
  have hsurvives : c.before.length < seen.length := by
    obtain ⟨rs, hrs, hlt⟩ := h.survives
    rw [hread] at hrs
    cases hrs
    rwa [List.length_map] at hlt
  have hlogged := replay_survived c env seen hseen hsurvives htext
  rw [h.started] at hlogged
  obtain ⟨state, hstate⟩ := Option.isSome_iff_exists.mp hlogged.1
  obtain ⟨hat, hmeta⟩ := hlogged.2 state hstate
  have hin : c.traceId ∈ order := (hmem _).mpr hlogged.1
  have hx : c.replayer.attempt env (replay Table.empty (seen.map WalRecord.readBack)) c.traceId = _ :=
    attempt_suspended _ _ state c.node hstate hat
  rw [restoredState_logged state hround hmeta] at hx
  obtain ⟨hfound, _⟩ := (find_attempt_iff _ attempt_traceId order hnodup c.traceId hin _ hx
    c.request.hookId _).mpr ⟨rfl, rfl, h.free _ hincomplete⟩
  refine ⟨r, hr, ?_, store, _, hstore, (hfind _).trans hfound,
    (sameSuspension_iff env.now env.time).mpr ⟨h.timeless, h.covered⟩⟩
  rw [hawait]
  exact List.mem_filter.mpr ⟨hin, (awaiting_iff _ _).mpr ⟨state, c.node, hstate, hat⟩⟩

/-- A suspension survives a crash intact exactly when it is restorable, as long as its hook is not that
of an earlier suspension of the same trace. -/
theorem suspension_put_back_iff (c : SuspendCall) (env : RecoverEnv) (crc : Bytes → UInt32)
    (d : FileDir) (order : List TraceId)
    (hcrash : ∀ rs, readAll crc d = .ok rs →
      ∃ seen, rs = seen.map WalRecord.readBack ∧ seen <+: c.written env.serde)
    (horder : ∀ incomplete, getIncompleteTraces crc d = .ok incomplete →
      order.Nodup ∧ ∀ t, t ∈ order ↔ (incomplete t).isSome = true)
    (hround : env.serde.fromStr (env.serde.toString c.logged) = .ok c.logged)
    (htext : env.serde.toString c.logged ≠ "")
    (hunique : ∀ r ∈ c.before, r.traceId = c.traceId → r.recordType = .traceSuspended →
      (restoredMetadata env.serde c.traceId r.readBack.metadata env.time).1 ≠ c.request.hookId) :
    PutBack c env crc d order ↔ Restorable c env crc d order := by
  cases hread : readAll crc d with
  | error e =>
    constructor
    · rintro ⟨r, hr, _⟩
      unfold CrashReplayer.recoverAll at hr
      rw [getIncompleteTraces_readAll, hread] at hr
      cases hr
    · intro h
      obtain ⟨rs, hrs, _⟩ := h.survives
      rw [hread] at hrs
      cases hrs
  | ok rs =>
    obtain ⟨seen, rfl, hseen⟩ := hcrash rs hread
    obtain ⟨hnodup, hmem⟩ := horder _ (recoverAll_ok c env order _ hread).1
    constructor
    · exact restorable_of_putBack seen hread hseen hround htext hunique hnodup
    · exact putBack_of_restorable seen hread hseen hround htext hnodup hmem

end Crash

def orderCall (timeout : Option UInt64) : SuspendCall where
  request := ⟨"approval", timeout, .reject, .null⟩
  traceId := sampleTrace
  node := 1
  pending := RelPtr.null
  arenaDir := "/tmp/xerv"
  pipelineId := some "orders"
  now := 0
  later := 0
  stamp := 0
  before := [.traceStart sampleTrace 0]
  after := []
  quiet := nofun

def orderSerde (timeout : Option UInt64) (text : String) : SerdeJson where
  toString _ := text
  fromStr s := if s = text then .ok (orderCall timeout).logged else .error "expected value at line 1 column 1"

def orderEnv (timeout : Option UInt64) (text : String) : RecoverEnv :=
  ⟨orderSerde timeout text, "1970-01-01T00:00:10+00:00", 10, fun _ => ⟨none, .ok ()⟩⟩

def orderLog (timeout : Option UInt64) (text : String) : List WalOp :=
  ((orderCall timeout).written (orderSerde timeout text)).map fun r => .write r 0 0

def orderDisk (timeout : Option UInt64) (text : String) : FileDir :=
  (runWal crc32 (Wal.open WalConfig.default ∅ 0) (orderLog timeout text ++ [.flush])).disk.2

def untimedText : String :=
  "\x7b\"hook_id\":\"approval\",\"pending_data_offset\":0,\"pending_data_size\":0," ++
    "\"timeout_action\":\"Reject\",\"timeout_secs\":null\x7d"

def timedText : String :=
  "\x7b\"hook_id\":\"approval\",\"pending_data_offset\":0,\"pending_data_size\":0," ++
    "\"timeout_action\":\"Reject\",\"timeout_secs\":3600\x7d"

theorem readAll_orderDisk (timeout : Option UInt64) (text : String)
    (henc : ∀ r ∈ (orderCall timeout).written (orderSerde timeout text), r.Encodable) :
    readAll crc32 (orderDisk timeout text) =
      .ok (((orderCall timeout).written (orderSerde timeout text)).map WalRecord.readBack) :=
  readAll_run crc32 WalConfig.default 0 (orderLog timeout text) henc

/-- Without a timeout and without metadata of its own the suspension comes back. -/
theorem untimed_suspension_comes_back :
    PutBack (orderCall none) (orderEnv none untimedText) crc32 (orderDisk none untimedText)
      [sampleTrace] := by
  have hread := readAll_orderDisk none untimedText (by decide)
  refine (suspension_put_back_iff _ _ _ _ _ ?_ ?_ rfl (by decide) (by decide)).mpr
    ⟨by decide, ⟨_, hread, by decide⟩, rfl, nofun, ?_⟩
  · intro rs hrs
    rw [hread] at hrs
    cases hrs
    exact ⟨_, rfl, List.prefix_refl _⟩
  · intro incomplete hincomplete
    rw [getIncompleteTraces_readAll, hread] at hincomplete
    cases hincomplete
    refine ⟨List.nodup_singleton _, fun t => ?_⟩
    by_cases ht : t = sampleTrace
    · subst ht
      rw [isSome_replay, isOpen_readBack]
      decide
    · have hothers : ∀ r ∈ ((orderCall none).written (orderSerde none untimedText)).map
          WalRecord.readBack, r.traceId ≠ t := by
        have hown : ∀ r ∈ ((orderCall none).written (orderSerde none untimedText)).map
            WalRecord.readBack, r.traceId = sampleTrace := by decide
        exact fun r hr he => ht (he.symm.trans (hown r hr))
      rw [replay_others _ _ _ hothers]
      simp [ht, Table.empty]
  · intro incomplete _ t ht
    exact absurd ht (by simp [orderCall])

/-- A suspension with a timeout comes back without its deadline. -/
theorem recovery_drops_timeout :
    ¬ PutBack (orderCall (some 3600)) (orderEnv (some 3600) timedText) crc32
      (orderDisk (some 3600) timedText) [sampleTrace] := by
  rintro ⟨r, hr, _, store, restored, hstore, hrest, hsame⟩
  obtain ⟨_, r', store', hr', hstore', _, hfind⟩ := recoverAll_ok _ _ [sampleTrace] _
    (readAll_orderDisk (some 3600) timedText (by decide))
  rw [hr] at hr'
  cases hr'
  rw [hstore] at hstore'
  cases hstore'
  rw [hfind] at hrest
  obtain ⟨t, _, hattempt⟩ := List.mem_filterMap.mp (List.mem_of_find?_eq_some hrest)
  obtain ⟨state, _, hact⟩ := Option.bind_eq_some_iff.mp hattempt
  have hnone : restored.expiresAt = none := by
    cases ha : determineAction state with
    | awaitResume suspendedAt =>
      rw [ha] at hact
      cases hact
      rfl
    | resumeFrom node =>
      rw [ha] at hact
      cases hact
    | retryNodes nodes =>
      rw [ha] at hact
      cases hact
    | skip reason =>
      rw [ha] at hact
      cases hact
  have hexpires := hsame.expiresAt
  rw [hnone] at hexpires
  cases hexpires

end Xerv
