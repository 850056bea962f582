import Xerv.Scheduler.Activation
import Xerv.Wal.Replay

/-!
# Crash recovery (`xerv-executor/src/scheduler/suspension.rs`)

`resume_trace` rebuilds the state of an interrupted trace from what the replay of the
WAL knows: the locations of the outputs of nodes with a `NodeDone` record. The port, the
input pointer of the trigger and outputs without such a record are not in the WAL. The
rebuilt state schedules like the live one exactly when nothing of that was needed.
-/

namespace Xerv
open Xerv.Lib

def NodeOutputLocation.output (loc : NodeOutputLocation) (port : String) : NodeOutput :=
  .complete port ⟨loc.offset, loc.size⟩ loc.schemaHash

/-- `Executor::resume_trace` up to the call of `execute_trace`. -/
def Executor.resumeTrace (maxConcurrentTraces : ℕ) (pipelineId : Option String) (running : ℕ)
    (recovery : TraceRecoveryState) : Except XervError TraceState :=
  if running ≥ maxConcurrentTraces then
    .error (.concurrencyLimit (pipelineId.getD "executor") (UInt32.ofNat running)
      (UInt32.ofNat maxConcurrentTraces))
  else
    .ok (.fromRecovery recovery.traceId "recovered" RelPtr.null
      (recovery.completedNodes.mapValues fun loc => loc.output "out"))

def TraceState.idle (st : TraceState) : TraceState := { st with executing := Keys.empty }

def nodeDoneLogged (tid : TraceId) (wal : List WalRecord) (n : NodeId) : Bool :=
  wal.any fun r => r.traceId = tid && r.recordType = .nodeDone && r.nodeId = n

/-- The rebuilt state has the outputs of the logged nodes, and readiness and inputs of every node that
has not completed are those of the live state. -/
def RecoveryPreserves (g : FlowGraph) (tid : TraceId) (wal : List WalRecord)
    (live rebuilt : TraceState) : Prop :=
  (∀ n, nodeDoneLogged tid wal n = true → rebuilt.outputs n = live.outputs n) ∧
    ∀ n ∈ g.nodeIds, live.completed n = false →
      rebuilt.isNodeReady n g = live.idle.isNodeReady n g ∧
        rebuilt.collectInputs n g = live.idle.collectInputs n g

/-! ### What the WAL says about a trace -/

/-- What the replay of the log finds for the trace. -/
structure Located (tid : TraceId) (wal : List WalRecord) (recovery : TraceRecoveryState) : Prop where
  replayed : replay Table.empty (wal.map WalRecord.readBack) tid = some recovery
  logged : ∀ n, (recovery.completedNodes n).isSome = nodeDoneLogged tid wal n

/-- A trace that `execute_trace` is called on: what its log has is an output of the state. -/
def Recorded (tid : TraceId) (wal : List WalRecord) (st : TraceState) : Prop :=
  ∃ recovery, Located tid wal recovery ∧ ∀ n loc, recovery.completedNodes n = some loc →
    ∃ port, st.outputs n = some (loc.output port)

section Located
variable {tid : TraceId} {wal : List WalRecord} {recovery : TraceRecoveryState}

theorem nodeDoneLogged_snoc (tid : TraceId) (wal : List WalRecord) (r : WalRecord) (n : NodeId) :
    nodeDoneLogged tid (wal ++ [r]) n = (nodeDoneLogged tid wal n ||
      (r.traceId = tid && r.recordType = .nodeDone && r.nodeId = n)) := by
  unfold nodeDoneLogged
  rw [List.any_append]
  simp

theorem Located.other (h : Located tid wal recovery) (r : WalRecord) (hr : r.traceId ≠ tid) :
    Located tid (wal ++ [r]) recovery := by
  refine ⟨?_, fun n => ?_⟩
  · rw [replay_snoc, applyRecordToTraces_other _ r.readBack tid (Ne.symm hr)]
    exact h.replayed
  · rw [nodeDoneLogged_snoc, h.logged n]
    simp [hr]

theorem Located.nodeError (h : Located tid wal recovery) (n : NodeId) (message : String)
    (now : UInt64) : Located tid (wal ++ [.nodeError tid n message now]) recovery := by
  refine ⟨?_, fun m => ?_⟩
  · rw [replay_snoc]
    exact h.replayed
  · rw [nodeDoneLogged_snoc, h.logged m]
    simp [WalRecord.nodeError, WalRecord.base]

theorem Located.nodeDone (h : Located tid wal recovery) (n : NodeId) (data : RelPtr) (hash now : UInt64) :
    Located tid (wal ++ [.nodeDone tid n data.offset data.size hash now])
      (recovery.nodeDone (.nodeDone tid n data.offset data.size hash now)) := by
  refine ⟨?_, fun m => ?_⟩
  · rw [replay_snoc]
    show (replay Table.empty (wal.map WalRecord.readBack)).modify tid _ tid = _
    rw [Table.modify_self, h.replayed]
    rfl
  · rw [nodeDoneLogged_snoc, ← h.logged m]
    show (recovery.completedNodes.insert n _ m).isSome = _
    by_cases hm : m = n
    · subst hm
      simp [WalRecord.nodeDone, WalRecord.base]
    · have hm' : n ≠ m := fun he => hm he.symm
      simp [WalRecord.nodeDone, WalRecord.base, hm, hm']

theorem nodeDoneLogged_none (h : ∀ r ∈ wal, r.traceId ≠ tid) (n : NodeId) :
    nodeDoneLogged tid wal n = false := by
  unfold nodeDoneLogged
  rw [List.any_eq_false]
  intro r hr
  simp [h r hr]

/-- A trace that has just started is recorded in the log, whatever other traces are there. -/
theorem recorded_start (tid : TraceId) (earlier : List WalRecord)
    (hearlier : ∀ r ∈ earlier, r.traceId ≠ tid) (now : UInt64) (st : TraceState) :
    Recorded tid (earlier ++ [.traceStart tid now]) st := by
  refine ⟨.started tid, ⟨?_, fun n => ?_⟩, fun n loc h => by cases h⟩
  · rw [replay_snoc]
    exact Table.insert_self _ _ _
  · rw [nodeDoneLogged_snoc, nodeDoneLogged_none hearlier n]
    simp [WalRecord.traceStart, WalRecord.base, TraceRecoveryState.started]

/-- The state that `resume_trace` builds out of a recovery is recorded in the log as well. -/
theorem recorded_resume (h : Located tid wal recovery) (limit running : ℕ)
    (pipelineId : Option String) (now : UInt64) (st : TraceState)
    (hst : Executor.resumeTrace limit pipelineId running recovery = .ok st) :
    Recorded tid (wal ++ [.traceResumed tid now]) st := by
  unfold Executor.resumeTrace at hst
  split at hst
  · cases hst
  · cases hst
    refine ⟨{ recovery with suspendedAt := none }, ⟨?_, fun n => ?_⟩, fun n loc hn => ⟨"out", ?_⟩⟩
    · rw [replay_snoc]
      show (replay Table.empty (wal.map WalRecord.readBack)).modify tid _ tid = _
      rw [Table.modify_self, h.replayed]
      rfl
    · rw [nodeDoneLogged_snoc, ← h.logged n]
      simp [WalRecord.traceResumed, WalRecord.base]
    · show (recovery.completedNodes n).map _ = _
      have hn' : recovery.completedNodes n = some loc := hn
      rw [hn']
      rfl

end Located

/-! ### The log along a run -/

namespace Executor

/-- The log and the live state agree on the outputs they both have; a task with a `NodeDone` record
has finished with that output. -/
structure Logged (tid : TraceId) (s : ExecState) (st : TraceState) (recovery : TraceRecoveryState) :
    Prop where
  located : Located tid s.wal recovery
  outputs : ∀ n loc o, recovery.completedNodes n = some loc → st.outputs n = some o →
    ∃ port, o = loc.output port
  started : ∀ n loc, recovery.completedNodes n = some loc → n ∈ s.started ∨ st.completed n = true
  tasks : ∀ t ∈ s.tasks, ∀ loc, recovery.completedNodes t.node = some loc →
    ∃ port, t.status = .finished (.ok (loc.output port))

structure Logging (ex : Executor) (tid : TraceId) (st₀ : TraceState) (s : ExecState) : Prop where
  consistent : ex.Consistent st₀ s
  logged : ∀ st, s.trace = some st → ∃ recovery, Logged tid s st recovery

variable {ex : Executor} {tid : TraceId} {st₀ st : TraceState} {s s' : ExecState}
  {recovery : TraceRecoveryState}

theorem logging_start (h₀ : st₀.Initial) (arena : Table RelPtr Bytes) (wal : List WalRecord)
    (h : Recorded tid wal st₀) : ex.Logging tid st₀ (ExecState.start st₀ arena wal) where
  consistent := consistent_start ex st₀ h₀ arena wal
  logged st ht := by
    cases ht
    obtain ⟨recovery, hlocated, houtputs⟩ := h
    refine ⟨recovery, hlocated, fun n loc o hn ho => ?_, fun n loc hn => .inr ?_, nofun⟩
    · obtain ⟨port, hport⟩ := houtputs n loc hn
      rw [hport] at ho
      cases ho
      exact ⟨port, rfl⟩
    · obtain ⟨port, hport⟩ := houtputs n loc hn
      rw [h₀.outputs n, hport]
      rfl

theorem Logged.keep (h : Logged tid s st recovery) (hlocated : Located tid s'.wal recovery)
    (hstarted : ∀ n ∈ s.started, n ∈ s'.started)
    (htasks : ∀ t ∈ s'.tasks, ∀ loc, recovery.completedNodes t.node = some loc →
      ∃ port, t.status = .finished (.ok (loc.output port))) : Logged tid s' st recovery := by
  refine ⟨hlocated, h.outputs, fun n loc hn => ?_, htasks⟩
  rcases h.started n loc hn with hn | hn
  · exact .inl (hstarted n hn)
  · exact .inr hn

theorem Logged.unfinished (h : Logged tid s st recovery) (t : Task) (ht : t ∈ s.tasks)
    (hf : ∀ r, t.status ≠ .finished r) : recovery.completedNodes t.node = none := by
  cases hloc : recovery.completedNodes t.node with
  | none => rfl
  | some loc =>
    obtain ⟨port, hport⟩ := h.tasks t ht loc hloc
    exact absurd hport (hf _)

theorem Logged.setStatus (h : Logged tid s st recovery) (t : Task) (ht : t ∈ s.tasks)
    (hf : ∀ r, t.status ≠ .finished r) (status : TaskStatus) (wal : List WalRecord)
    (hlocated : Located tid wal recovery) :
    Logged tid { s.setStatus t.node status with wal := wal } st recovery := by
  refine h.keep hlocated (fun _ hn => hn) fun x hx loc hloc => ?_
  by_cases hxt : x.node = t.node
  · rw [hxt, h.unfinished t ht hf] at hloc
    cases hloc
  · exact h.tasks x (mem_setStatus_of_ne _ _ x hx hxt) loc hloc

theorem located_error (h : Located tid wal recovery) (records : List WalRecord)
    (hrecords : records = [] ∨ ∃ n message now, records = [.nodeError tid n message now]) :
    Located tid (wal ++ records) recovery := by
  rcases hrecords with rfl | ⟨n, message, now, rfl⟩
  · rwa [List.append_nil]
  · exact h.nodeError n message now

theorem Logged.finish (h : Logged tid s st recovery) (t : Task) (ht : t ∈ s.tasks)
    (hr : t.status = .running) (hstarted : t.node ∈ s.started) (hnone : st.outputs t.node = none)
    (behaviour : NodeBehaviour) (now : UInt64) (walError : Option WalWriteError) :
    ∃ recovery', Logged tid (ex.finishTask tid s t.node behaviour now walError) st recovery' := by
  have hf : ∀ r, t.status ≠ .finished r := by simp [hr]
  unfold finishTask
  split
  · exact ⟨recovery, h.setStatus t ht hf _ s.wal h.located⟩
  · -- only a complete output is logged
    have hquiet (records : List WalRecord) (result : TaskResult)
        (hrecords : records = [] ∨ ∃ n message now, records = [.nodeError tid n message now]) :
        ∃ recovery', Logged tid
          { s.setStatus t.node (.finished result) with wal := s.wal ++ records } st recovery' :=
      ⟨recovery, h.setStatus t ht hf _ _ (located_error h.located records hrecords)⟩
    cases behaviour with
    | returns output =>
      cases output with
      | complete port data hash =>
        have hlocated := h.located.nodeDone t.node data hash now
        have hother (n : NodeId) (hn : n ≠ t.node) : (recovery.nodeDone
            (.nodeDone tid t.node data.offset data.size hash now)).completedNodes n =
              recovery.completedNodes n := Table.insert_ne _ _ hn
        refine ⟨_, hlocated, fun n loc o hn ho => ?_, fun n loc hn => ?_, fun x hx loc hloc => ?_⟩
        · have hne : n ≠ t.node := by
            intro he
            rw [he, hnone] at ho
            cases ho
          exact h.outputs n loc o ((hother n hne).symm.trans hn) ho
        · by_cases hne : n = t.node
          · exact .inl (hne ▸ hstarted)
          · exact h.started n loc ((hother n hne).symm.trans hn)
        · by_cases hne : x.node = t.node
          · have hstatus := status_setStatus _ _ x hx hne
            have hself : some _ = some loc := (Table.insert_self _ _ _).symm.trans (hne ▸ hloc)
            cases hself
            exact ⟨port, hstatus⟩
          · exact h.tasks x (mem_setStatus_of_ne _ _ x hx hne) loc ((hother _ hne).symm.trans hloc)
      | error message data => exact hquiet _ _ (.inr ⟨_, _, _, rfl⟩)
      | suspend request data => exact hquiet _ _ (.inl rfl)
    | fails message => exact hquiet _ _ (.inr ⟨_, _, _, rfl⟩)
    | timesOut => exact hquiet _ _ (.inr ⟨_, _, _, rfl⟩)
    | lost panicked => exact hquiet _ _ (.inl rfl)

theorem Logged.record (h : Logged tid s st recovery) (t : Task) (ht : t ∈ s.tasks) (o : NodeOutput)
    (hf : t.status = .finished (.ok o)) (phase : Phase) :
    Logged tid { (s.joinTask t.node).record t.node o with phase := phase }
      (st.recordOutput t.node o) recovery := by
  refine ⟨h.located, fun n loc o' hn ho => ?_, fun n loc hn => ?_, fun x hx => ?_⟩
  · have ho' : (st.outputs.insert t.node o) n = some o' := ho
    by_cases hne : n = t.node
    · subst hne
      rw [Table.insert_self] at ho'
      cases ho'
      obtain ⟨port, hport⟩ := h.tasks t ht loc hn
      rw [hf] at hport
      cases hport
      exact ⟨port, rfl⟩
    · rw [Table.insert_ne _ _ hne] at ho'
      exact h.outputs n loc o' hn ho'
  · rcases h.started n loc hn with hn | hn
    · exact .inl hn
    · exact .inr (recordOutput_completed st t.node n o hn)
  · exact h.tasks x (List.mem_filter.mp hx).1

theorem Logged.spawn (h : Logged tid s st recovery) (n : NodeId) (hnew : n ∉ s.started)
    (hopen : st.completed n = false) (inputs : Table String RelPtr) (phase : Phase) (spawned : Keys NodeId) :
    Logged tid { s with
      spawned := spawned
      trace := some (st.markExecuting n)
      tasks := s.tasks ++ [⟨n, inputs, .queued⟩]
      phase := phase
      started := s.started ++ [n] } (st.markExecuting n) recovery := by
  refine ⟨h.located, h.outputs, fun m loc hm => ?_, fun t htask loc hloc => ?_⟩
  · rcases h.started m loc hm with hm | hm
    · exact .inl (List.mem_append_left _ hm)
    · exact .inr hm
  · rcases List.mem_append.mp htask with htask | htask
    · exact h.tasks t htask loc hloc
    · rw [List.mem_singleton.mp htask] at hloc
      rcases h.started n loc hloc with hn | hn
      · exact absurd hn hnew
      · rw [hopen] at hn
        cases hn

theorem Logging.fewer (h : ex.Logging tid st₀ s) (htrace : s'.trace = s.trace) (hwal : s'.wal = s.wal)
    (hstarted : s'.started = s.started) (htasks : s'.tasks ⊆ s.tasks) :
    ∀ st, s'.trace = some st → ∃ recovery, Logged tid s' st recovery := by
  intro st ht
  obtain ⟨recovery, hl⟩ := h.logged st (htrace.symm.trans ht)
  refine ⟨recovery, hl.keep (hwal ▸ hl.located) (fun n hn => hstarted ▸ hn) ?_⟩
  exact fun t ht => hl.tasks t (htasks ht)

theorem Logging.step (a : Action) (h : ex.Logging tid st₀ s) (hs : ex.Step tid s a s') :
    ex.Logging tid st₀ s' := by
  refine ⟨h.consistent.step a hs, ?_⟩
  cases hs with
  | ready st hp ht => exact h.fewer rfl rfl rfl (List.Subset.refl _)
  | spawn n rest st hp ht hn =>
    intro st' ht'
    cases ht'
    obtain ⟨recovery, hl⟩ := h.logged st ht
    have hstart := h.consistent.safe.startable hp ht
    exact ⟨recovery, hl.spawn n hstart.new hstart.open_ _ _ _⟩
  | spawnDone hp => exact h.fewer rfl rfl rfl (List.Subset.refl _)
  | acquire t ht hq hfree =>
    intro st' ht'
    obtain ⟨recovery, hl⟩ := h.logged st' ht'
    exact ⟨recovery, hl.setStatus t ht (by simp [hq]) _ s.wal hl.located⟩
  | arenaWrite t ptr data ht hr hfree => exact h.fewer rfl rfl rfl (List.Subset.refl _)
  | finish t behaviour now walError ht hr =>
    intro st' ht'
    have htrace : s.trace = some st' := (finishTask_quiet _ _ _ _).trace.symm.trans ht'
    obtain ⟨recovery, hl⟩ := h.logged st' htrace
    have hmem : t.node ∈ s.tasks.map Task.node := List.mem_map_of_mem ht
    have hco := h.consistent.coherent st' htrace
    exact hl.finish t ht hr (h.consistent.safe.taskStarted _ hmem)
      (hco.outputs_none t.node (hco.taskOpen t.node hmem)) behaviour now walError
  | join t output hp ht hf hs =>
    intro st' ht'
    obtain ⟨st, htrace, rfl⟩ := Option.map_eq_some_iff.mp ht'
    obtain ⟨recovery, hl⟩ := h.logged st htrace
    exact ⟨recovery, hl.record t ht output hf _⟩
  | joinSuspend t output hp ht hf hs => exact h.fewer rfl rfl rfl (List.filter_subset_self _)
  | drain t output n hp ht hf hs =>
    intro st' ht'
    obtain ⟨st, htrace, rfl⟩ := Option.map_eq_some_iff.mp ht'
    obtain ⟨recovery, hl⟩ := h.logged st htrace
    exact ⟨recovery, hl.record t ht output hf s.phase⟩
  | drainSkip t r n hp ht hf hr => exact h.fewer rfl rfl rfl (List.filter_subset_self _)
  | suspend n metadata now hp htasks => exact nofun
  | finalize now hp => exact nofun
  | stop _ _ e hp htasks hphase htrace hwal harena hstarted hspawned hjoined =>
    rcases htrace with htrace | htrace
    · exact h.fewer htrace hwal hstarted (htasks ▸ List.nil_subset _)
    · rw [htrace]
      exact nofun
  | otherRecord r hr =>
    intro st' ht'
    obtain ⟨recovery, hl⟩ := h.logged st' ht'
    exact ⟨recovery, hl.keep (hl.located.other r hr) (fun _ hn => hn) hl.tasks⟩

/-! ### The rebuilt state -/

theorem collectInputs_congr (st st' : TraceState) (n : NodeId) (g : FlowGraph)
    (hinput : n ∈ g.entryPoints → st'.initialInput = st.initialInput)
    (hout : ∀ e ∈ g.incomingEdges n, st'.outputs e.fromNode = st.outputs e.fromNode) :
    st'.collectInputs n g = st.collectInputs n g := by
  have hfold (es : List Edge) (inputs : Table String RelPtr)
      (hes : ∀ e ∈ es, st'.outputs e.fromNode = st.outputs e.fromNode) :
      es.foldl st'.collectEdge inputs = es.foldl st.collectEdge inputs := by
    induction es generalizing inputs with
    | nil => rfl
    | cons e es ih =>
      have he : st'.collectEdge inputs e = st.collectEdge inputs e := by
        unfold TraceState.collectEdge
        rw [hes e List.mem_cons_self]
      rw [List.foldl_cons, List.foldl_cons, he, ih _ fun x hx => hes x (List.mem_cons_of_mem _ hx)]
  unfold TraceState.collectInputs
  split
  · rename_i hentry
    rw [hinput (by simpa using hentry)]
  · exact hfold _ _ hout

theorem isNodeReady_congr (st st' : TraceState) (n : NodeId) (g : FlowGraph)
    (hcompleted : st'.completed n = st.completed n) (hexecuting : st'.executing n = st.executing n)
    (hout : ∀ e ∈ g.incomingEdges n, st'.outputs e.fromNode = st.outputs e.fromNode)
    (hdone : ∀ e ∈ g.incomingEdges n, st'.completed e.fromNode = st.completed e.fromNode) :
    st'.isNodeReady n g = st.isNodeReady n g := by
  have hpending : st'.hasPendingInput n g = st.hasPendingInput n g := by
    unfold TraceState.hasPendingInput
    rw [Bool.eq_iff_iff, List.any_eq_true, List.any_eq_true]
    have hcarries : ∀ e ∈ g.incomingEdges n, st'.carries e = st.carries e := by
      intro e he
      unfold TraceState.carries
      rw [hout e he]
    constructor
    · exact fun ⟨e, he, hc⟩ => ⟨e, he, hcarries e he ▸ hc⟩
    · exact fun ⟨e, he, hc⟩ => ⟨e, he, (hcarries e he).symm ▸ hc⟩
  have hpreds : (g.predecessors n).all (fun p => st'.completed p) =
      (g.predecessors n).all fun p => st.completed p := by
    rw [Bool.eq_iff_iff, List.all_eq_true, List.all_eq_true]
    have hp : ∀ p ∈ g.predecessors n, st'.completed p = st.completed p := by
      intro p hp
      obtain ⟨e, he, hto, rfl, _⟩ := (g.mem_predecessors n p).mp hp
      exact hdone e ((g.mem_incomingEdges n e).mpr ⟨he, hto⟩)
    constructor
    · exact fun h p hmem => (hp p hmem) ▸ h p hmem
    · exact fun h p hmem => (hp p hmem).symm ▸ h p hmem
  unfold TraceState.isNodeReady
  rw [hcompleted, hexecuting, hpending, hpreds]

/-- Nothing the WAL lacks is needed: every node logged as done has been joined, and answered on port
"out"; and the trigger had no data, or every entry point has completed. -/
def Recoverable (ex : Executor) (tid : TraceId) (wal : List WalRecord) (st : TraceState) : Prop :=
  (∀ n, nodeDoneLogged tid wal n = true → ∃ o, st.outputs n = some o ∧ o.port = some "out") ∧
    (st.initialInput = RelPtr.null ∨
      ∀ n ∈ ex.graph.nodeIds, n ∈ ex.graph.entryPoints → st.completed n = true)

section Rebuilt
variable {wal : List WalRecord} {rebuilt : TraceState} {limit running : ℕ}
  {pipelineId : Option String}

theorem resumeTrace_ok (hroom : running < limit) (recovery : TraceRecoveryState) :
    resumeTrace limit pipelineId running recovery =
      .ok (.fromRecovery recovery.traceId "recovered" RelPtr.null
        (recovery.completedNodes.mapValues fun loc => loc.output "out")) := by
  unfold resumeTrace
  rw [if_neg (by omega)]

theorem rebuilt_output (hlocated : Located tid wal recovery)
    (houtputs : ∀ n loc o, recovery.completedNodes n = some loc → st.outputs n = some o →
      ∃ port, o = loc.output port)
    (n : NodeId) (hn : nodeDoneLogged tid wal n = true)
    (hout : ∃ o, st.outputs n = some o ∧ o.port = some "out") :
    (recovery.completedNodes n).map (fun loc => loc.output "out") = st.outputs n := by
  obtain ⟨o, ho, hport⟩ := hout
  rw [← hlocated.logged n] at hn
  obtain ⟨loc, hloc⟩ := Option.isSome_iff_exists.mp hn
  obtain ⟨port, rfl⟩ := houtputs n loc o hloc ho
  cases hport
  rw [ho, hloc]
  rfl

theorem recoverable_of_preserves (hlocated : Located tid wal recovery)
    (h : RecoveryPreserves ex.graph tid wal st (.fromRecovery recovery.traceId "recovered" RelPtr.null
      (recovery.completedNodes.mapValues fun loc => loc.output "out"))) :
    ex.Recoverable tid wal st := by
  refine ⟨fun n hn => ?_, ?_⟩
  · have hout := h.1 n hn
    rw [← hlocated.logged n] at hn
    obtain ⟨loc, hloc⟩ := Option.isSome_iff_exists.mp hn
    refine ⟨loc.output "out", hout.symm.trans ?_, rfl⟩
    show (recovery.completedNodes n).map _ = _
    rw [hloc]
    rfl
  · by_cases hall : ∀ n ∈ ex.graph.nodeIds, n ∈ ex.graph.entryPoints → st.completed n = true
    · exact .inr hall
    · left
      push Not at hall
      obtain ⟨n, hn, hentry, hopen⟩ := hall
      have hinputs := congrFun (h.2 n hn (by simpa using hopen)).2 "in"
      have hc : ex.graph.entryPoints.contains n = true := by simpa using hentry
      unfold TraceState.collectInputs at hinputs
      rw [if_pos hc, if_pos hc, Table.insert_self, Table.insert_self] at hinputs
      exact (Option.some.inj hinputs).symm

/-- Provided that completed nodes without a record lead to completed nodes only, the rebuilt state
preserves the scheduling exactly if nothing the WAL lacks is needed. -/
theorem rebuilt_preserves_iff (hlocated : Located tid wal recovery)
    (houtputs : ∀ n loc o, recovery.completedNodes n = some loc → st.outputs n = some o →
      ∃ port, o = loc.output port)
    (hco : ∀ n, st.completed n = (st.outputs n).isSome)
    (hunlogged : ∀ e ∈ ex.graph.edges, st.completed e.fromNode = true →
      nodeDoneLogged tid wal e.fromNode = false → st.completed e.toNode = true) :
    RecoveryPreserves ex.graph tid wal st (.fromRecovery recovery.traceId "recovered" RelPtr.null
        (recovery.completedNodes.mapValues fun loc => loc.output "out")) ↔
      ex.Recoverable tid wal st := by
  refine ⟨recoverable_of_preserves hlocated, fun h => ?_⟩
  obtain ⟨hout, hinput⟩ := h
  have hsame : ∀ n, nodeDoneLogged tid wal n = true →
      (recovery.completedNodes n).map (fun loc => loc.output "out") = st.outputs n :=
    fun n hn => rebuilt_output hlocated houtputs n hn (hout n hn)
  refine ⟨hsame, fun n hn hopen => ?_⟩
  -- what flows into a node that has not completed is logged, or not there
  have hsource : ∀ e ∈ ex.graph.incomingEdges n,
      (recovery.completedNodes e.fromNode).map (fun loc => loc.output "out") =
        st.outputs e.fromNode := by
    intro e he
    obtain ⟨hedge, hto⟩ := (ex.graph.mem_incomingEdges n e).mp he
    cases hl : nodeDoneLogged tid wal e.fromNode with
    | true => exact hsame _ hl
    | false =>
      have hnone : recovery.completedNodes e.fromNode = none := by
        rw [← hlocated.logged] at hl
        simpa using hl
      have hnot : st.completed e.fromNode = false := by
        cases hdone : st.completed e.fromNode with
        | false => rfl
        | true =>
          rw [← hto, hunlogged e hedge hdone hl] at hopen
          cases hopen
      have hout : st.outputs e.fromNode = none := by
        rw [hco] at hnot
        simpa using hnot
      rw [hnone, hout]
      rfl
  have hfresh : (recovery.completedNodes n).isSome = st.completed n := by
    rw [hlocated.logged n, hopen]
    cases hl : nodeDoneLogged tid wal n with
    | false => rfl
    | true =>
      obtain ⟨o, ho, _⟩ := hout n hl
      rw [hco n, ho] at hopen
      cases hopen
  refine ⟨isNodeReady_congr _ _ n _ ?_ rfl hsource fun e he => ?_, collectInputs_congr _ _ n _ ?_ hsource⟩
  · show ((recovery.completedNodes n).map _).isSome = st.completed n
    rw [Option.isSome_map]
    exact hfresh
  · have hs := congrArg Option.isSome (hsource e he)
    exact hs.trans (hco _).symm
  · intro hentry
    rcases hinput with hnull | hall
    · exact hnull.symm
    · rw [hall n hn hentry] at hopen
      cases hopen

end Rebuilt

/-- At every point of a run of `execute_trace` at which the trace is live: replaying the flushed log and
resuming the trace preserves outputs, readiness and inputs if and only if the state is recoverable,
as long as completed nodes without a `NodeDone` record lead to completed nodes only. -/
theorem recovery_preserves_iff (ex : Executor) (tid : TraceId) (st₀ : TraceState) (h₀ : st₀.Initial)
    (arena : Table RelPtr Bytes) (wal₀ : List WalRecord) (hstart : Recorded tid wal₀ st₀)
    (actions : List Action) (s : ExecState)
    (hrun : ex.run tid (ExecState.start st₀ arena wal₀) actions = some s) (st : TraceState)
    (htrace : s.trace = some st)
    (hunlogged : ∀ e ∈ ex.graph.edges, st.completed e.fromNode = true →
      nodeDoneLogged tid s.wal e.fromNode = false → st.completed e.toNode = true)
    (crc : Bytes → UInt32) (config : WalConfig) (now : ℕ) (ops : List WalOp)
    (hwritten : writtenBy ops = s.wal) (henc : ∀ r ∈ s.wal, r.Encodable) (limit running : ℕ)
    (pipelineId : Option String) (hroom : running < limit) :
    (∃ traces recovery rebuilt,
        getIncompleteTraces crc (runWal crc (Wal.open config ∅ now) (ops ++ [.flush])).disk.2 =
          .ok traces ∧
        traces tid = some recovery ∧
        resumeTrace limit pipelineId running recovery = .ok rebuilt ∧
        RecoveryPreserves ex.graph tid s.wal st rebuilt) ↔
      ex.Recoverable tid s.wal st := by
  have hlogging : ex.Logging tid st₀ s := run_invariant (ex.Logging tid st₀)
    (fun _ a _ h hs => h.step a hs) actions (logging_start h₀ arena wal₀ hstart) hrun
  obtain ⟨recovery, hlogged⟩ := hlogging.logged st htrace
  have hiff := rebuilt_preserves_iff hlogged.located hlogged.outputs
    (hlogging.consistent.coherent st htrace).outputs hunlogged
  have hread := getIncompleteTraces_run crc config now ops (by rw [hwritten]; exact henc)
  rw [hwritten] at hread
  constructor
  · intro h
    obtain ⟨traces, recovery', rebuilt, htraces, hrecovery, hresume, hpreserves⟩ := h
    rw [hread] at htraces
    cases htraces
    rw [hlogged.located.replayed] at hrecovery
    cases hrecovery
    rw [resumeTrace_ok hroom] at hresume
    cases hresume
    exact hiff.mp hpreserves
  · intro h
    exact ⟨_, recovery, _, hread, hlogged.located.replayed, resumeTrace_ok hroom recovery,
      hiff.mpr h⟩

/-- The trigger of the line has run and was joined when the process stops. -/
def lineStop : List WalRecord :=
  [.traceStart sampleTrace 0, .nodeDone sampleTrace 0 64 4 0 0]

theorem line_recovers :
    ∃ s st, lineExecutor.run sampleTrace
        (.start (.new sampleTrace "webhook" RelPtr.null) Table.empty [.traceStart sampleTrace 0])
        (runNode 0 (.complete "out" ⟨64, 4⟩ 0)) = some s ∧ s.trace = some st ∧
      ∃ traces recovery rebuilt,
        getIncompleteTraces crc32 (runWal crc32 (Wal.open smallFiles ∅ 0)
          (lineStop.map (fun r => .write r 0 0) ++ [.flush])).disk.2 = .ok traces ∧
        traces sampleTrace = some recovery ∧ resumeTrace 100 none 0 recovery = .ok rebuilt ∧
        RecoveryPreserves lineGraph sampleTrace s.wal st rebuilt := by
  have hend : (lineExecutor.run sampleTrace
      (.start (.new sampleTrace "webhook" RelPtr.null) Table.empty [.traceStart sampleTrace 0])
      (runNode 0 (.complete "out" ⟨64, 4⟩ 0))).any (fun s => s.wal = lineStop &&
        s.trace.any fun st => st.initialInput = RelPtr.null &&
          st.outputs 0 = some (.complete "out" ⟨64, 4⟩ 0)) = true := by decide
  obtain ⟨s, hs, hend⟩ := (Option.any_eq_true _ _).mp hend
  rw [Bool.and_eq_true, decide_eq_true_eq] at hend
  obtain ⟨hwal, hend⟩ := hend
  obtain ⟨st, ht, hst⟩ := (Option.any_eq_true _ _).mp hend
  rw [Bool.and_eq_true, decide_eq_true_eq, decide_eq_true_eq] at hst
  obtain ⟨hinput, hout⟩ := hst
  refine ⟨s, st, hs, ht, ?_⟩
  refine (recovery_preserves_iff lineExecutor sampleTrace _ (TraceState.initial_new _ _ _) _ _
    (recorded_start sampleTrace [] nofun 0 _) _ s hs st ht ?_ crc32 smallFiles 0 _ ?_ ?_ 100 0 none
    (by decide)).mpr ⟨?_, .inl hinput⟩
  · intro e he _ hlogged
    rw [hwal] at hlogged
    have hall : ∀ e ∈ lineGraph.edges, nodeDoneLogged sampleTrace lineStop e.fromNode = true := by
      decide +kernel
    rw [hall e he] at hlogged
    cases hlogged
  · rw [hwal]
    rfl
  · rw [hwal]
    decide
  · intro n hn
    rw [hwal] at hn
    have hzero : n = 0 := by
      simp [nodeDoneLogged, lineStop, WalRecord.traceStart, WalRecord.nodeDone, WalRecord.base] at hn
      exact hn.symm
    exact ⟨_, hzero ▸ hout, rfl⟩

/-- The switch has answered on its port "true" and was joined when the process stops. -/
def switchStop : List WalRecord :=
  [.traceStart sampleTrace 0, .nodeDone sampleTrace 0 64 4 0 0, .nodeDone sampleTrace 1 72 4 0 0]

/-- After the recovery the switch has answered on port "out", which no edge leaves. -/
theorem switch_port_is_lost :
    ∃ s st, diamondExecutor.run sampleTrace
        (.start (.new sampleTrace "webhook" RelPtr.null) Table.empty [.traceStart sampleTrace 0])
        (runNode 0 (.complete "out" ⟨64, 4⟩ 0) ++ runNode 1 (.complete "true" ⟨72, 4⟩ 0)) = some s ∧
      s.trace = some st ∧ s.wal = switchStop ∧
      ¬ ∃ traces recovery rebuilt,
        getIncompleteTraces crc32 (runWal crc32 (Wal.open smallFiles ∅ 0)
          (switchStop.map (fun r => .write r 0 0) ++ [.flush])).disk.2 = .ok traces ∧
        traces sampleTrace = some recovery ∧ resumeTrace 100 none 0 recovery = .ok rebuilt ∧
        RecoveryPreserves diamondGraph sampleTrace s.wal st rebuilt := by
  have hend : (diamondExecutor.run sampleTrace
      (.start (.new sampleTrace "webhook" RelPtr.null) Table.empty [.traceStart sampleTrace 0])
      (runNode 0 (.complete "out" ⟨64, 4⟩ 0) ++ runNode 1 (.complete "true" ⟨72, 4⟩ 0))).any
        (fun s => s.wal = switchStop && s.trace.any fun st =>
          st.outputs 1 = some (.complete "true" ⟨72, 4⟩ 0)) = true := by decide +kernel
  have hloc : (replay Table.empty (switchStop.map WalRecord.readBack) sampleTrace).all
      (fun recovery => recovery.completedNodes 1 = some ⟨72, 4, 0⟩) = true := by decide +kernel
  obtain ⟨s, hs, hend⟩ := (Option.any_eq_true _ _).mp hend
  rw [Bool.and_eq_true, decide_eq_true_eq] at hend
  obtain ⟨hwal, hend⟩ := hend
  obtain ⟨st, ht, hst⟩ := (Option.any_eq_true _ _).mp hend
  rw [decide_eq_true_eq] at hst
  refine ⟨s, st, hs, ht, hwal, fun h => ?_⟩
  obtain ⟨traces, recovery, rebuilt, htraces, hrecovery, hresume, hout, _⟩ := h
  rw [getIncompleteTraces_run crc32 smallFiles 0 _ (by decide)] at htraces
  cases htraces
  have hrecovery' : replay Table.empty (switchStop.map WalRecord.readBack) sampleTrace =
      some recovery := hrecovery
  rw [hrecovery', Option.all_some, decide_eq_true_eq] at hloc
  rw [resumeTrace_ok (by decide)] at hresume
  cases hresume
  have hlogged : nodeDoneLogged sampleTrace s.wal 1 = true := by
    rw [hwal]
    decide
  have hsame := hout 1 hlogged
  rw [hst] at hsame
  have hport : (recovery.completedNodes 1).map (fun loc => loc.output "out") =
      some (.complete "true" ⟨72, 4⟩ 0) := hsame
  rw [hloc] at hport
  exact absurd hport (by decide)

end Executor

end Xerv
