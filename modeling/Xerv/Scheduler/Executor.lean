import Xerv.Scheduler.Trace
import Xerv.Wal.Record

/-!
# Executing a trace (`xerv-executor/src/scheduler/executor.rs`)

`execute_trace` as a state machine. The loop body is cut at its suspension points
into the phases of `Phase`; a spawned task waits for a permit, runs and finishes,
in any interleaving with the loop and with the other tasks. A task's finish is
`execute_single_node` from the node's return on: the WAL record and the result. What
nodes do is up to the action (`NodeBehaviour`). Records of other traces may enter the
WAL at any time. `started` and `joined` only record the history of the run.
-/

namespace Xerv
open Xerv.Lib

/-- The fields of `Executor` and its configuration that `execute_trace` reads. -/
structure Executor where
  graph : FlowGraph
  executionOrder : List NodeId
  nodes : Keys NodeId
  maxConcurrentNodes : ℕ
  nodeTimeoutMs : UInt64
  hasSuspensionStore : Bool
  accepted : ∃ order order', graph.validate order = .ok () ∧ graph.HashOrder order' ∧
    graph.topologicalSort order' = .ok executionOrder

/-- `Executor::new`; the two sorts iterate over hash maps of their own. -/
def Executor.new (g : FlowGraph) (nodes : Keys NodeId) (maxConcurrentNodes : ℕ)
    (nodeTimeoutMs : UInt64) (hasSuspensionStore : Bool) (order order' : List NodeId)
    (horder' : g.HashOrder order') : Except XervError Executor :=
  match hv : g.validate order with
  | .error e => .error e
  | .ok () =>
    match hs : g.topologicalSort order' with
    | .error e => .error e
    | .ok sorted =>
      .ok ⟨g, sorted, nodes, maxConcurrentNodes, nodeTimeoutMs, hasSuspensionStore,
        order, order', hv, horder', hs⟩

theorem Executor.ordered (ex : Executor) : ex.graph.Ordered ex.executionOrder := by
  obtain ⟨order, order', hv, horder', hs⟩ := ex.accepted
  exact ex.graph.topologicalSort_ordered order' _ (ex.graph.validate_ok order hv) horder' hs

/-! ### Tasks -/

/-- `XervError::WalWrite`, as `Wal::write` returns it. -/
structure WalWriteError where
  traceId : TraceId
  cause : String
  deriving DecidableEq

def WalWriteError.text (e : WalWriteError) : String :=
  "E601: WAL write failed for trace " ++ e.traceId.text ++ ": " ++ e.cause

def nodeTimeoutText (n : NodeId) (traceId : TraceId) (timeoutMs : UInt64) : String :=
  "E302: Node " ++ nodeText n ++ " timed out after " ++ String.ofList (padded 10 1 timeoutMs.toNat) ++
    "ms in trace " ++ traceId.text

/-- How `node.execute` ends: an error is known by its text, and a task can be lost to a panic or a
cancellation. -/
inductive NodeBehaviour where
  | returns (output : NodeOutput)
  | fails (message : String)
  | timesOut
  | lost (panicked : Bool)
  deriving DecidableEq

inductive TaskResult where
  | ok (output : NodeOutput)
  | err (message : String)
  | lost (panicked : Bool)
  deriving DecidableEq

inductive TaskStatus where
  | queued
  | running
  | finished (result : TaskResult)
  deriving DecidableEq

structure Task where
  node : NodeId
  inputs : Table String RelPtr
  status : TaskStatus

/-- The record `execute_single_node` writes. -/
def NodeBehaviour.record (traceId : TraceId) (n : NodeId) (now : UInt64) :
    NodeBehaviour → Option WalRecord
  | .returns (.complete _ data schemaHash) =>
    some (.nodeDone traceId n data.offset data.size schemaHash now)
  | .returns (.error message _) => some (.nodeError traceId n message now)
  | .returns (.suspend ..) => none
  | .fails message => some (.nodeError traceId n message now)
  | .timesOut => some (.nodeError traceId n "Timeout" now)
  | .lost _ => none

/-- The result of the task when the record has been written. -/
def NodeBehaviour.result (traceId : TraceId) (n : NodeId) (timeoutMs : UInt64) :
    NodeBehaviour → TaskResult
  | .returns output => .ok output
  | .fails message => .err message
  | .timesOut => .err (nodeTimeoutText n traceId timeoutMs)
  | .lost panicked => .lost panicked

/-! ### States -/

inductive Phase where
  | findReady
  | spawning (ready : List NodeId)
  | joining
  | draining (node : NodeId)
  | finalizing
  | returned (result : Except XervError Unit)

structure ExecState where
  trace : Option TraceState
  arena : Table RelPtr Bytes
  spawned : Keys NodeId
  tasks : List Task
  wal : List WalRecord
  phase : Phase
  started : List NodeId
  joined : ℕ

def ExecState.start (st : TraceState) (arena : Table RelPtr Bytes) (wal : List WalRecord) : ExecState :=
  ⟨some st, arena, Keys.empty, [], wal, .findReady, [], 0⟩

namespace ExecState

def task? (s : ExecState) (n : NodeId) : Option Task := s.tasks.find? fun t => t.node = n

def setStatus (s : ExecState) (n : NodeId) (status : TaskStatus) : ExecState :=
  { s with tasks := s.tasks.map fun t => if t.node = n then { t with status := status } else t }

/-- `join_next` takes the task out of the set. -/
def joinTask (s : ExecState) (n : NodeId) : ExecState :=
  { s with tasks := s.tasks.filter fun t => t.node ≠ n, joined := s.joined + 1 }

/-- `return`: the join set is dropped, which aborts what is left in it. -/
def giveUp (s : ExecState) (e : XervError) : ExecState :=
  { s with tasks := [], phase := .returned (.error e) }

/-- `record_output`, if the trace is still there. -/
def record (s : ExecState) (n : NodeId) (output : NodeOutput) : ExecState :=
  { s with trace := s.trace.map fun st => st.recordOutput n output }

def runningCount (s : ExecState) : ℕ := s.tasks.countP fun t => t.status = .running

end ExecState

/-! ### Steps -/

inductive Action where
  | findReady
  | spawnNext
  | spawnDone
  | acquire (n : NodeId)
  | arenaWrite (n : NodeId) (ptr : RelPtr) (data : Bytes)
  | finish (n : NodeId) (behaviour : NodeBehaviour) (now : UInt64) (walError : Option WalWriteError)
  | join (n : NodeId)
  | drainJoin (n : NodeId)
  | suspend (metadata : String) (now : UInt64) (failure : Option XervError)
  | finalize (now : UInt64) (walError : Option WalWriteError)
  | otherRecord (r : WalRecord)

namespace Executor
variable (ex : Executor) (tid : TraceId)

def findReadyNodes (st : TraceState) (spawned : Keys NodeId) : List NodeId :=
  ex.executionOrder.filter fun n => !spawned n && st.isNodeReady n ex.graph

def spawn (s : ExecState) (n : NodeId) (rest : List NodeId) : ExecState :=
  let s := { s with spawned := s.spawned.insert n }
  match s.trace with
  | none => s.giveUp (.nodeExecution n tid "Trace not found")
  | some st =>
    if ex.nodes n then
      { s with
        trace := some (st.markExecuting n)
        tasks := s.tasks ++ [⟨n, st.collectInputs n ex.graph, .queued⟩]
        phase := .spawning rest
        started := s.started ++ [n] }
    else s.giveUp (.nodeNotFound (nodeText n))

/-- The end of `execute_single_node`. -/
def finishTask (s : ExecState) (n : NodeId) (behaviour : NodeBehaviour) (now : UInt64)
    (walError : Option WalWriteError) : ExecState :=
  match behaviour.record tid n now, walError with
  | some _, some e => s.setStatus n (.finished (.err e.text))
  | record, _ =>
    { s.setStatus n (.finished (behaviour.result tid n ex.nodeTimeoutMs)) with
      wal := s.wal ++ record.toList }

/-- The loop body after `join_next`, with `process_node_result`. -/
def processResult (s : ExecState) (n : NodeId) : TaskResult → ExecState
  | .ok (.suspend ..) => { s with phase := .draining n }
  | .ok output => { s.record n output with phase := .findReady }
  | .err message => { s.giveUp (.nodeExecution n tid message) with trace := none }
  | .lost panicked =>
    { s.giveUp (.nodePanic 0 tid
        (if panicked then "Node task panicked" else "Node task was cancelled")) with trace := none }

/-- The body of the draining loop of `process_node_result`. -/
def drainResult (s : ExecState) (n : NodeId) : TaskResult → ExecState
  | .ok output => if output.isSuspended then s else s.record n output
  | _ => s

/-- `suspend_trace`. A failure is one of the arena flush, the suspension store or the WAL; the JSON
text of the metadata comes from `serde_json`. -/
def suspendTrace (s : ExecState) (n : NodeId) (metadata : String) (now : UInt64)
    (failure : Option XervError) : ExecState :=
  if ex.hasSuspensionStore then
    match s.trace, failure with
    | none, _ => s.giveUp (.nodeExecution n tid "Trace not found during suspension")
    | some _, some e => s.giveUp e
    | some _, none =>
      { s with
        wal := s.wal ++ [(WalRecord.traceSuspended tid n now).withMetadata metadata]
        trace := none
        phase := .returned (.ok ()) }
  else s.giveUp (.suspensionFailed tid "No suspension store configured")

def finalizeTrace (s : ExecState) (now : UInt64) (walError : Option WalWriteError) : ExecState :=
  match walError with
  | some e => s.giveUp (.walWrite e.traceId e.cause)
  | none =>
    { s with
      wal := s.wal ++ [.traceComplete tid now]
      trace := none
      phase := .returned (.ok ()) }

def finishedResult (s : ExecState) (n : NodeId) : Option TaskResult :=
  (s.task? n).bind fun t =>
    match t.status with
    | .finished r => some r
    | _ => none

def step (s : ExecState) (action : Action) : Option ExecState :=
  match action, s.phase with
  | .findReady, .findReady =>
    match s.trace with
    | none => some (s.giveUp (.nodeExecution 0 tid "Trace not found"))
    | some st => some { s with phase := .spawning (ex.findReadyNodes st s.spawned) }
  | .spawnNext, .spawning (n :: rest) => some (ex.spawn tid s n rest)
  | .spawnDone, .spawning [] =>
    some { s with phase := if s.tasks.isEmpty then .finalizing else .joining }
  | .acquire n, _ =>
    if (s.task? n).any (fun t => t.status = .queued) && s.runningCount < ex.maxConcurrentNodes then
      some (s.setStatus n .running)
    else none
  | .arenaWrite n ptr data, _ =>
    if (s.task? n).any (fun t => t.status = .running) && (s.arena ptr).isNone then
      some { s with arena := s.arena.insert ptr data }
    else none
  | .finish n behaviour now walError, _ =>
    if (s.task? n).any fun t => t.status = .running then
      some (ex.finishTask tid s n behaviour now walError)
    else none
  | .join n, .joining =>
    (finishedResult s n).map fun r => processResult tid (s.joinTask n) n r
  | .drainJoin n, .draining _ =>
    (finishedResult s n).map fun r => drainResult (s.joinTask n) n r
  | .suspend metadata now failure, .draining n =>
    if s.tasks.isEmpty then some (ex.suspendTrace tid s n metadata now failure) else none
  | .finalize now walError, .finalizing => some (finalizeTrace tid s now walError)
  | .otherRecord r, _ => if r.traceId = tid then none else some { s with wal := s.wal ++ [r] }
  | _, _ => none

def run (s : ExecState) : List Action → Option ExecState
  | [] => some s
  | a :: as => (ex.step tid s a).bind fun s' => run s' as

def runIf (ok : ExecState → Action → Bool) (s : ExecState) : List Action → Option ExecState
  | [] => some s
  | a :: as => if ok s a then (ex.step tid s a).bind fun s' => runIf ok s' as else none

/-! ### What a step can do -/

/-- The steps one by one. `stop` covers every way out with an error. -/
inductive Step (s : ExecState) : Action → ExecState → Prop
  | ready (st : TraceState) (hp : s.phase = .findReady) (ht : s.trace = some st) :
    Step s .findReady { s with phase := .spawning (ex.findReadyNodes st s.spawned) }
  | spawn (n : NodeId) (rest : List NodeId) (st : TraceState) (hp : s.phase = .spawning (n :: rest))
    (ht : s.trace = some st) (hn : ex.nodes n = true) :
    Step s .spawnNext
      { s with
        spawned := s.spawned.insert n
        trace := some (st.markExecuting n)
        tasks := s.tasks ++ [⟨n, st.collectInputs n ex.graph, .queued⟩]
        phase := .spawning rest
        started := s.started ++ [n] }
  | spawnDone (hp : s.phase = .spawning []) :
    Step s .spawnDone { s with phase := if s.tasks.isEmpty then .finalizing else .joining }
  | acquire (t : Task) (ht : t ∈ s.tasks) (hq : t.status = .queued)
    (hfree : s.runningCount < ex.maxConcurrentNodes) :
    Step s (.acquire t.node) (s.setStatus t.node .running)
  | arenaWrite (t : Task) (ptr : RelPtr) (data : Bytes) (ht : t ∈ s.tasks)
    (hr : t.status = .running) (hfree : s.arena ptr = none) :
    Step s (.arenaWrite t.node ptr data) { s with arena := s.arena.insert ptr data }
  | finish (t : Task) (behaviour : NodeBehaviour) (now : UInt64) (walError : Option WalWriteError)
    (ht : t ∈ s.tasks) (hr : t.status = .running) :
    Step s (.finish t.node behaviour now walError)
      (ex.finishTask tid s t.node behaviour now walError)
  | join (t : Task) (output : NodeOutput) (hp : s.phase = .joining) (ht : t ∈ s.tasks)
    (hf : t.status = .finished (.ok output)) (hs : output.isSuspended = false) :
    Step s (.join t.node) { (s.joinTask t.node).record t.node output with phase := .findReady }
  | joinSuspend (t : Task) (output : NodeOutput) (hp : s.phase = .joining) (ht : t ∈ s.tasks)
    (hf : t.status = .finished (.ok output)) (hs : output.isSuspended = true) :
    Step s (.join t.node) { s.joinTask t.node with phase := .draining t.node }
  | drain (t : Task) (output : NodeOutput) (n : NodeId) (hp : s.phase = .draining n)
    (ht : t ∈ s.tasks) (hf : t.status = .finished (.ok output)) (hs : output.isSuspended = false) :
    Step s (.drainJoin t.node) ((s.joinTask t.node).record t.node output)
  | drainSkip (t : Task) (r : TaskResult) (n : NodeId) (hp : s.phase = .draining n)
    (ht : t ∈ s.tasks) (hf : t.status = .finished r)
    (hr : ∀ output, r = .ok output → output.isSuspended = true) :
    Step s (.drainJoin t.node) (s.joinTask t.node)
  | suspend (n : NodeId) (metadata : String) (now : UInt64) (hp : s.phase = .draining n)
    (htasks : s.tasks = []) :
    Step s (.suspend metadata now none)
      { s with
        wal := s.wal ++ [(WalRecord.traceSuspended tid n now).withMetadata metadata]
        trace := none
        phase := .returned (.ok ()) }
  | finalize (now : UInt64) (hp : s.phase = .finalizing) :
    Step s (.finalize now none)
      { s with
        wal := s.wal ++ [.traceComplete tid now]
        trace := none
        phase := .returned (.ok ()) }
  | stop (a : Action) (s' : ExecState) (e : XervError) (hp : ∀ r, s.phase ≠ .returned r)
    (htasks : s'.tasks = []) (hphase : s'.phase = .returned (.error e))
    (htrace : s'.trace = s.trace ∨ s'.trace = none) (hwal : s'.wal = s.wal)
    (harena : s'.arena = s.arena) (hstarted : s'.started = s.started)
    (hspawned : ∀ n, s.spawned n = true → s'.spawned n = true)
    (hjoined : s'.joined ≤ s.joined + s.tasks.length) : Step s a s'
  | otherRecord (r : WalRecord) (hr : r.traceId ≠ tid) :
    Step s (.otherRecord r) { s with wal := s.wal ++ [r] }

variable {ex tid} {s s' : ExecState}

theorem task?_some (n : NodeId) (t : Task) (h : s.task? n = some t) : t ∈ s.tasks ∧ t.node = n :=
  ⟨List.mem_of_find?_eq_some h, by simpa using List.find?_some h⟩

theorem task?_of_mem (hnodup : (s.tasks.map Task.node).Nodup) (t : Task) (ht : t ∈ s.tasks) :
    s.task? t.node = some t := by
  have hsome : (s.task? t.node).isSome = true :=
    List.find?_isSome.mpr ⟨t, ht, decide_eq_true rfl⟩
  obtain ⟨x, hx⟩ := Option.isSome_iff_exists.mp hsome
  obtain ⟨hmem, hnode⟩ := task?_some t.node x hx
  rw [hx, List.inj_on_of_nodup_map hnodup hmem ht hnode]

theorem task?_any (n : NodeId) (p : Task → Bool) (h : (s.task? n).any p = true) :
    ∃ t ∈ s.tasks, t.node = n ∧ p t = true := by
  obtain ⟨t, ht, hp⟩ := (Option.any_eq_true p (s.task? n)).mp h
  obtain ⟨hmem, hn⟩ := task?_some n t ht
  exact ⟨t, hmem, hn, hp⟩

theorem finishedResult_some (n : NodeId) (r : TaskResult) (h : finishedResult s n = some r) :
    ∃ t ∈ s.tasks, t.node = n ∧ t.status = .finished r := by
  unfold finishedResult at h
  obtain ⟨t, ht, hr⟩ := Option.bind_eq_some_iff.mp h
  obtain ⟨hmem, hn⟩ := task?_some n t ht
  refine ⟨t, hmem, hn, ?_⟩
  cases hs : t.status with
  | queued => simp [hs] at hr
  | running => simp [hs] at hr
  | finished r' =>
    rw [hs] at hr
    have hr' : r' = r := Option.some.inj hr
    rw [hr']

theorem spawn_step (n : NodeId) (rest : List NodeId) (hp : s.phase = .spawning (n :: rest)) :
    ex.Step tid s .spawnNext (ex.spawn tid s n rest) := by
  have hspawned : ∀ m, s.spawned m = true → s.spawned.insert n m = true :=
    fun m hm => (Keys.insert_true_iff _ _ _).mpr (.inr hm)
  unfold Executor.spawn
  dsimp only
  cases ht : s.trace with
  | none =>
    exact .stop _ _ _ (by simp [hp]) rfl rfl (.inl ht.symm) rfl rfl rfl hspawned
      (Nat.le_add_right _ _)
  | some st =>
    dsimp only
    split
    · rename_i hn
      exact .spawn n rest st hp ht hn
    · exact .stop _ _ _ (by simp [hp]) rfl rfl (.inl ht.symm) rfl rfl rfl hspawned
        (Nat.le_add_right _ _)

theorem joined_le (t : Task) (ht : t ∈ s.tasks) : s.joined + 1 ≤ s.joined + s.tasks.length := by
  have hpos := List.length_pos_of_mem ht
  omega

theorem join_step (t : Task) (r : TaskResult) (hp : s.phase = .joining) (ht : t ∈ s.tasks)
    (hf : t.status = .finished r) :
    ex.Step tid s (.join t.node) (processResult tid (s.joinTask t.node) t.node r) := by
  have hphase : ∀ r, s.phase ≠ .returned r := by simp [hp]
  cases r with
  | ok output =>
    cases output with
    | complete port data hash => exact .join t _ hp ht hf rfl
    | error message data => exact .join t _ hp ht hf rfl
    | suspend request data => exact .joinSuspend t _ hp ht hf rfl
  | err message =>
    exact .stop _ _ _ hphase rfl rfl (.inr rfl) rfl rfl rfl (fun _ hn => hn) (joined_le t ht)
  | lost panicked =>
    exact .stop _ _ _ hphase rfl rfl (.inr rfl) rfl rfl rfl (fun _ hn => hn) (joined_le t ht)

theorem drain_step (t : Task) (r : TaskResult) (n : NodeId) (hp : s.phase = .draining n)
    (ht : t ∈ s.tasks) (hf : t.status = .finished r) :
    ex.Step tid s (.drainJoin t.node) (drainResult (s.joinTask t.node) t.node r) := by
  cases r with
  | ok output =>
    unfold drainResult
    dsimp only
    split
    · rename_i hs
      refine .drainSkip t _ n hp ht hf fun output' h => ?_
      cases h
      exact hs
    · rename_i hs
      exact .drain t output n hp ht hf (by simpa using hs)
  | err message => exact .drainSkip t _ n hp ht hf fun _ h => by cases h
  | lost panicked => exact .drainSkip t _ n hp ht hf fun _ h => by cases h

theorem suspend_step (n : NodeId) (metadata : String) (now : UInt64) (failure : Option XervError)
    (hp : s.phase = .draining n) (htasks : s.tasks = []) :
    ex.Step tid s (.suspend metadata now failure) (ex.suspendTrace tid s n metadata now failure) := by
  have hphase : ∀ r, s.phase ≠ .returned r := by simp [hp]
  have hfail (e : XervError) : ex.Step tid s (.suspend metadata now failure) (s.giveUp e) :=
    .stop _ _ _ hphase rfl rfl (.inl rfl) rfl rfl rfl (fun _ hn => hn) (Nat.le_add_right _ _)
  unfold suspendTrace
  split
  · cases s.trace with
    | none => exact hfail _
    | some st =>
      cases failure with
      | some e => exact hfail e
      | none => exact .suspend n metadata now hp htasks
  · exact hfail _

theorem step_cases (a : Action) (h : ex.step tid s a = some s') : ex.Step tid s a s' := by
  unfold step at h
  cases a with
  | findReady =>
    cases hp : s.phase <;> simp only [hp] at h <;> try exact absurd h (by simp)
    split at h
    · cases h
      exact .stop _ _ _ (by simp [hp]) rfl rfl (.inl rfl) rfl rfl rfl (fun _ hn => hn)
        (Nat.le_add_right _ _)
    · rename_i st ht
      cases h
      exact .ready st hp ht
  | spawnNext =>
    cases hp : s.phase with
    | spawning ready =>
      cases ready with
      | nil => simp [hp] at h
      | cons n rest =>
        simp only [hp] at h
        cases h
        exact spawn_step n rest hp
    | _ => simp [hp] at h
  | spawnDone =>
    cases hp : s.phase with
    | spawning ready =>
      cases ready with
      | nil =>
        simp only [hp] at h
        cases h
        exact .spawnDone hp
      | cons n rest => simp [hp] at h
    | _ => simp [hp] at h
  | acquire n =>
    dsimp only at h
    split at h
    · rename_i hcond
      simp only [Bool.and_eq_true, decide_eq_true_eq] at hcond
      obtain ⟨t, ht, hn, hq⟩ := task?_any n _ hcond.1
      cases h
      rw [← hn]
      exact .acquire t ht (by simpa using hq) hcond.2
    · exact absurd h (by simp)
  | arenaWrite n ptr data =>
    dsimp only at h
    split at h
    · rename_i hcond
      simp only [Bool.and_eq_true] at hcond
      obtain ⟨t, ht, hn, hr⟩ := task?_any n _ hcond.1
      cases h
      rw [← hn]
      exact .arenaWrite t ptr data ht (by simpa using hr) (by simpa using hcond.2)
    · exact absurd h (by simp)
  | finish n behaviour now walError =>
    dsimp only at h
    split at h
    · rename_i hcond
      obtain ⟨t, ht, hn, hr⟩ := task?_any n _ hcond
      cases h
      rw [← hn]
      exact .finish t behaviour now walError ht (by simpa using hr)
    · exact absurd h (by simp)
  | join n =>
    cases hp : s.phase with
    | joining =>
      simp only [hp] at h
      obtain ⟨r, hr, hs'⟩ := Option.map_eq_some_iff.mp h
      obtain ⟨t, ht, hn, hf⟩ := finishedResult_some n r hr
      rw [← hs', ← hn]
      exact join_step t r hp ht hf
    | _ => simp [hp] at h
  | drainJoin n =>
    cases hp : s.phase with
    | draining m =>
      simp only [hp] at h
      obtain ⟨r, hr, hs'⟩ := Option.map_eq_some_iff.mp h
      obtain ⟨t, ht, hn, hf⟩ := finishedResult_some n r hr
      rw [← hs', ← hn]
      exact drain_step t r m hp ht hf
    | _ => simp [hp] at h
  | suspend metadata now failure =>
    cases hp : s.phase with
    | draining n =>
      simp only [hp] at h
      split at h
      · rename_i hempty
        cases h
        exact suspend_step n metadata now failure hp (List.isEmpty_iff.mp hempty)
      · exact absurd h (by simp)
    | _ => simp [hp] at h
  | finalize now walError =>
    cases hp : s.phase with
    | finalizing =>
      simp only [hp] at h
      cases h
      cases walError with
      | none => exact .finalize now hp
      | some e =>
        exact .stop _ _ _ (by simp [hp]) rfl rfl (.inl rfl) rfl rfl rfl (fun _ hn => hn)
          (Nat.le_add_right _ _)
    | _ => simp [hp] at h
  | otherRecord r =>
    dsimp only at h
    split at h
    · exact absurd h (by simp)
    · rename_i hr
      cases h
      exact .otherRecord r hr

/-! ### Steps of the tasks -/

/-- What the tasks leave alone: all but their status, the arena and the WAL. -/
structure Quiet (s s' : ExecState) : Prop where
  trace : s'.trace = s.trace
  spawned : s'.spawned = s.spawned
  nodes : s'.tasks.map Task.node = s.tasks.map Task.node
  phase : s'.phase = s.phase
  started : s'.started = s.started
  joined : s'.joined = s.joined

theorem map_node_setStatus (n : NodeId) (status : TaskStatus) :
    (s.setStatus n status).tasks.map Task.node = s.tasks.map Task.node := by
  unfold ExecState.setStatus
  rw [List.map_map]
  refine List.map_congr_left fun t _ => ?_
  dsimp only [Function.comp]
  split
  · rfl
  · rfl

theorem mem_setStatus (n : NodeId) (status : TaskStatus) (t : Task)
    (h : t ∈ (s.setStatus n status).tasks) :
    t ∈ s.tasks ∨ ∃ x ∈ s.tasks, x.node = n ∧ t = { x with status := status } := by
  obtain ⟨x, hx, heq⟩ := List.mem_map.mp h
  split at heq
  · rename_i hn
    exact .inr ⟨x, hx, hn, heq.symm⟩
  · exact .inl (heq ▸ hx)

theorem status_setStatus (n : NodeId) (status : TaskStatus) (t : Task)
    (ht : t ∈ (s.setStatus n status).tasks) (hn : t.node = n) : t.status = status := by
  obtain ⟨x, _, heq⟩ := List.mem_map.mp ht
  split at heq
  · rw [← heq]
  · rename_i hne
    rw [heq] at hne
    exact absurd hn hne

theorem mem_setStatus_of_ne (n : NodeId) (status : TaskStatus) (t : Task)
    (ht : t ∈ (s.setStatus n status).tasks) (hn : t.node ≠ n) : t ∈ s.tasks := by
  rcases mem_setStatus n status t ht with hmem | ⟨x, _, hx, rfl⟩
  · exact hmem
  · exact absurd hx hn

theorem mem_setStatus_self (t : Task) (ht : t ∈ s.tasks) (status : TaskStatus) :
    { t with status := status } ∈ (s.setStatus t.node status).tasks :=
  List.mem_map.mpr ⟨t, ht, if_pos rfl⟩

theorem setStatus_quiet (n : NodeId) (status : TaskStatus) : Quiet s (s.setStatus n status) :=
  ⟨rfl, rfl, map_node_setStatus n status, rfl, rfl, rfl⟩

theorem finishTask_eq (ex : Executor) (tid : TraceId) (s : ExecState) (n : NodeId) (behaviour : NodeBehaviour) (now : UInt64)
    (walError : Option WalWriteError) :
    ∃ r records, ex.finishTask tid s n behaviour now walError =
      { s.setStatus n (.finished r) with wal := s.wal ++ records } := by
  unfold finishTask
  split
  · exact ⟨_, [], by rw [List.append_nil]; rfl⟩
  · exact ⟨_, _, rfl⟩

theorem finishTask_returns (ex : Executor) (tid : TraceId) (s : ExecState) (n : NodeId)
    (output : NodeOutput) (now : UInt64) :
    ex.finishTask tid s n (.returns output) now none =
      { s.setStatus n (.finished (.ok output)) with
        wal := s.wal ++ (NodeBehaviour.record tid n now (.returns output)).toList } := by
  unfold finishTask
  split
  · rename_i h
    cases h
  · rfl

theorem finishTask_quiet (n : NodeId) (behaviour : NodeBehaviour) (now : UInt64)
    (walError : Option WalWriteError) : Quiet s (ex.finishTask tid s n behaviour now walError) := by
  obtain ⟨r, records, heq⟩ := finishTask_eq ex tid s n behaviour now walError
  rw [heq]
  exact ⟨rfl, rfl, map_node_setStatus n _, rfl, rfl, rfl⟩

/-! ### Runs -/

theorem run_invariant_of (allowed : Action → Prop) (inv : ExecState → Prop)
    (hstep : ∀ s a s', allowed a → inv s → ex.Step tid s a s' → inv s') (actions : List Action)
    (hallowed : ∀ a ∈ actions, allowed a) (hs : inv s) (hrun : ex.run tid s actions = some s') :
    inv s' := by
  induction actions generalizing s with
  | nil =>
    cases hrun
    exact hs
  | cons a actions ih =>
    obtain ⟨s₁, hs₁, hrest⟩ := Option.bind_eq_some_iff.mp hrun
    have ha := hallowed a List.mem_cons_self
    exact ih (fun b hb => hallowed b (List.mem_cons_of_mem _ hb))
      (hstep s a s₁ ha hs (step_cases a hs₁)) hrest

theorem run_invariant (inv : ExecState → Prop)
    (hstep : ∀ s a s', inv s → ex.Step tid s a s' → inv s') (actions : List Action)
    (hs : inv s) (hrun : ex.run tid s actions = some s') : inv s' :=
  run_invariant_of (fun _ => True) inv (fun s a s' _ => hstep s a s') actions (fun _ _ => trivial)
    hs hrun

theorem runIf_invariant (ok : ExecState → Action → Bool) (inv : ExecState → Prop)
    (hstep : ∀ s a s', ok s a = true → inv s → ex.Step tid s a s' → inv s') (actions : List Action)
    (hs : inv s) (hrun : ex.runIf tid ok s actions = some s') : inv s' := by
  induction actions generalizing s with
  | nil =>
    cases hrun
    exact hs
  | cons a actions ih =>
    unfold runIf at hrun
    split at hrun
    · rename_i hok
      obtain ⟨s₁, hs₁, hrest⟩ := Option.bind_eq_some_iff.mp hrun
      exact ih (hstep s a s₁ hok hs (step_cases a hs₁)) hrest
    · cases hrun

end Executor

end Xerv
