import Xerv.Scheduler.Exits
import Xerv.Scheduler.Lifecycle

/-!
# Human decisions

A resume builds the trace state from the log and from the one decision that it was called
with, and a recovery from the log alone. A decision leaves no `NodeDone` record, so the
next time the state is rebuilt it is gone and its wait node runs again.
-/

namespace Xerv
open Xerv.Lib

namespace Life

/-- No node that was decided is executed, and its output is that of the decision. -/
def DecisionsKept (life : Life) : Prop :=
  ∀ w o, (w, o) ∈ life.decided → w ∉ life.exec.started ∧
    ∀ st, life.exec.trace = some st → st.outputs w = some o

/-- A step that rebuilds the trace without an earlier decision: that decision is not the one of the
node being resumed, and the log has no such output. -/
def forgets (tid : TraceId) (life : Life) : LifeAction → Bool
  | .resume hookId args =>
    (life.store.suspensions hookId).any fun suspended => life.decided.any fun d =>
      decide ((if d.1 = suspended.suspendedAt then
          some (NodeOutput.complete args.decision.outputPort args.data 0)
        else loggedOutput tid (life.exec.wal.take args.read) d.1) ≠ some d.2)
  | .recover args =>
    (life.rerun tid args).isSome && life.decided.any fun d =>
      decide (loggedOutput tid life.exec.wal d.1 ≠ some d.2)
  | _ => false

variable {ex : Executor} {tid : TraceId} {life life' : Life}

theorem output_kept {s s' : ExecState} (h : ex.Alive tid s) (a : Action) (hs : ex.Step tid s a s')
    (w : NodeId) (o : NodeOutput) (hnew : w ∉ s.started)
    (hout : ∀ st, s.trace = some st → st.outputs w = some o) :
    w ∉ s'.started ∧ ∀ st, s'.trace = some st → st.outputs w = some o := by
  cases ht : s.trace with
  | none =>
    obtain ⟨htrace, hstarted⟩ := Executor.step_trace_none a hs ht
    rw [hstarted, htrace]
    exact ⟨hnew, nofun⟩
  | some st =>
    obtain ⟨st₀, hsafe, hco⟩ := h.live st ht
    have ho := hout st ht
    have hrecord (t : Task) (htask : t ∈ s.tasks) (output : NodeOutput) (st' : TraceState)
        (hst' : s.trace.map (fun st => st.recordOutput t.node output) = some st') :
        st'.outputs w = some o := by
      rw [ht] at hst'
      cases hst'
      exact Executor.recordOutput_outputs st t.node w output o
        (hco.outputs_none _ (hco.taskOpen _ (List.mem_map_of_mem htask))) ho
    cases hs with
    | spawn n rest st' hp ht' hn =>
      have hst : st' = st := Option.some.inj (ht'.symm.trans ht)
      subst hst
      have hstart := hsafe.startable hp ht
      have hne : w ≠ n := by
        intro he
        have hdone := hco.outputs w
        rw [he, hstart.open_, ← he, ho] at hdone
        cases hdone
      refine ⟨fun hmem => ?_, fun x hx => ?_⟩
      · rcases List.mem_append.mp hmem with hmem | hmem
        · exact hnew hmem
        · exact hne (List.mem_singleton.mp hmem)
      · cases hx
        exact ho
    | finish t behaviour now walError htask hr =>
      have hq : Executor.Quiet s (ex.finishTask tid s t.node behaviour now walError) :=
        Executor.finishTask_quiet _ _ _ _
      rw [hq.started, hq.trace]
      exact ⟨hnew, hout⟩
    | join t output hp htask hf hs => exact ⟨hnew, hrecord t htask output⟩
    | drain t output n hp htask hf hs => exact ⟨hnew, hrecord t htask output⟩
    | suspend n metadata now hp htasks => exact ⟨hnew, nofun⟩
    | finalize now hp => exact ⟨hnew, nofun⟩
    | stop _ _ e hp htasks hphase htrace hwal harena hstarted hspawned hjoined =>
      rw [hstarted]
      refine ⟨hnew, fun x hx => ?_⟩
      rcases htrace with htrace | htrace
      · exact hout x (htrace.symm.trans hx)
      · rw [htrace] at hx
        cases hx
    | _ => exact ⟨hnew, hout⟩

theorem rebuild_kept_iff (wal : List WalRecord) (st : TraceState) (arena : Table RelPtr Bytes)
    (stamp : UInt64) (walError : Option WalWriteError) (w : NodeId) (o : NodeOutput) :
    (w ∉ (ExecState.rebuild tid wal st arena stamp walError).started ∧
      ∀ st', (ExecState.rebuild tid wal st arena stamp walError).trace = some st' →
        st'.outputs w = some o) ↔ st.outputs w = some o := by
  have hstarted : (ExecState.rebuild tid wal st arena stamp walError).started = [] := by
    cases walError with
    | none => rfl
    | some e => rfl
  have htrace : (ExecState.rebuild tid wal st arena stamp walError).trace = some st := by
    cases walError with
    | none => rfl
    | some e => rfl
  rw [hstarted, htrace]
  simp

theorem kept_step (a : LifeAction) (h : ex.Alive tid life.exec) (hk : life.DecisionsKept)
    (hs : life.step ex tid a = some life') : life'.DecisionsKept ↔ life.forgets tid a = false := by
  have hstep := step_cases a hs
  unfold DecisionsKept
  generalize life'.exec = s' at hstep ⊢
  generalize life'.decided = decided at hstep ⊢
  cases hstep with
  | exec a _ hstep =>
    refine ⟨fun _ => rfl, fun _ w o hd => ?_⟩
    obtain ⟨hnew, hout⟩ := hk w o hd
    exact output_kept h a hstep w o hnew hout
  | execute st ht =>
    refine ⟨fun _ => rfl, fun _ w o hd => ⟨List.not_mem_nil, fun st' ht' => ?_⟩⟩
    exact (hk w o hd).2 st' (ht.trans ht')
  | suspendFails args n e hp => exact ⟨fun _ => rfl, fun _ => hk⟩
  | suspend args n hp htasks => exact ⟨fun _ => rfl, fun _ => hk⟩
  | removeTrace => exact ⟨fun _ => rfl, fun _ w o hd => ⟨(hk w o hd).1, nofun⟩⟩
  | resume hookId args suspended hsusp hid =>
    have hlog := h.log.isPrefix _ (List.take_prefix args.read _)
    simp only [rebuild_kept_iff]
    unfold forgets resumed
    dsimp only
    rw [hsusp, Option.any_some, List.any_eq_false]
    simp only [resumedState_outputs hlog, decide_eq_true_eq, ne_eq, not_not, Prod.forall]
    constructor
    · intro hall w o hd
      exact hall w o (List.mem_append_left _ hd)
    · intro hall w o hd
      rcases List.mem_append.mp hd with hd | hd
      · exact hall w o hd
      · cases hw : args.walError with
        | some e =>
          rw [hw] at hd
          exact absurd hd List.not_mem_nil
        | none =>
          rw [hw] at hd
          cases List.mem_singleton.mp hd
          exact if_pos rfl
  | crash kept => exact ⟨fun _ => rfl, fun _ w o hd => ⟨List.not_mem_nil, nofun⟩⟩
  | rerun args st hst =>
    simp only [rebuild_kept_iff]
    unfold forgets
    dsimp only
    rw [hst, Option.isSome_some, Bool.true_and, List.any_eq_false]
    simp only [rerun_logged h.log args st hst, decide_eq_true_eq, ne_eq, not_not, Prod.forall]
  | restore args hnone =>
    refine ⟨fun _ => ?_, fun _ => hk⟩
    rw [forgets, hnone]
    rfl
  | takeHook hookId decision => exact ⟨fun _ => rfl, fun _ => hk⟩
  | otherSuspend state => exact ⟨fun _ => rfl, fun _ => hk⟩

end Life

/-- Along every run of calls, crashes and recoveries on a trace, the decisions are kept in every state
exactly when no step rebuilds the trace without one of them. -/
theorem decisions_permanent_iff (ex : Executor) (tid : TraceId) (triggerId : String) (input : RelPtr)
    (arena : Table RelPtr Bytes) (earlier : List WalRecord) (hearlier : ∀ r ∈ earlier, r.traceId ≠ tid)
    (now : UInt64) (store : MemorySuspensionStore) (actions : List LifeAction) (life : Life)
    (hrun : Machine.run (Life.step ex tid) (.begin tid triggerId input arena earlier now store) actions =
      some life) :
    (∀ before life₁, before <+: actions →
      Machine.run (Life.step ex tid) (.begin tid triggerId input arena earlier now store) before =
        some life₁ → life₁.DecisionsKept) ↔
      Machine.happens (Life.step ex tid) (Life.forgets tid)
        (.begin tid triggerId input arena earlier now store) actions = false :=
  Machine.throughout_iff (Life.forgets tid) (fun life => ex.Alive tid life.exec) Life.DecisionsKept
    (fun _ a _ h hs => Life.alive_step a h hs) (fun _ a _ h hk hs => Life.kept_step a h hk hs) actions
    (Life.alive_begin ex triggerId input arena earlier hearlier now store) nofun hrun

def approvalsGraph : FlowGraph :=
  (((FlowGraph.new.addNode (.new 0 "trigger::webhook")).addNode (.new 1 "std::wait")).addNode
    (.new 2 "std::wait")).addEdge ⟨0, "out", 1, "in"⟩ |>.addEdge ⟨1, "out", 2, "in"⟩

def approvalsExecutor : Executor where
  graph := approvalsGraph
  executionOrder := [0, 1, 2]
  nodes := fun _ => true
  maxConcurrentNodes := 16
  nodeTimeoutMs := 30000
  hasSuspensionStore := true
  accepted := ⟨[0, 1, 2], [0, 1, 2], by decide, approvalsGraph.hashOrder_nodeIds (by decide),
    by decide⟩

def approvalsBegin : Life :=
  .begin sampleTrace "webhook" RelPtr.null Table.empty [] 0 .new

def approval (n : NodeId) (hookId : String) : List LifeAction :=
  (Executor.runNode n (.suspend ⟨hookId, none, .reject, .null⟩ RelPtr.null)).map .exec ++
    [.suspend ⟨"trace.bin", none, 0, 0, "meta", 0, none, none⟩, .removeTrace,
      .resume hookId ⟨.approve none, 99, RelPtr.null, Table.empty, 0, none⟩]

def execNode (n : NodeId) (output : NodeOutput) : List LifeAction :=
  (Executor.runNode n output).map .exec

def oneApproval : List LifeAction :=
  execNode 0 (.complete "out" ⟨64, 4⟩ 0) ++ approval 1 "first" ++ execNode 2 (.complete "out" ⟨72, 4⟩ 0) ++
    [.exec .findReady, .exec .spawnDone, .exec (.finalize 0 none)]

def twoApprovals : List LifeAction :=
  execNode 0 (.complete "out" ⟨64, 4⟩ 0) ++ approval 1 "first" ++ approval 2 "second" ++
    [.exec .findReady, .exec .spawnNext]

theorem one_approval_is_kept :
    ∃ life, Machine.run (Life.step approvalsExecutor sampleTrace) approvalsBegin oneApproval = some life ∧
      ∀ before life₁, before <+: oneApproval →
        Machine.run (Life.step approvalsExecutor sampleTrace) approvalsBegin before = some life₁ →
          life₁.DecisionsKept := by
  have hsome : (Machine.run (Life.step approvalsExecutor sampleTrace) approvalsBegin oneApproval).isSome =
      true := by decide +kernel
  obtain ⟨life, hlife⟩ := Option.isSome_iff_exists.mp hsome
  exact ⟨life, hlife, (decisions_permanent_iff approvalsExecutor sampleTrace "webhook" RelPtr.null
    Table.empty [] (List.forall_mem_nil _) 0 .new oneApproval life hlife).mpr (by decide)⟩

/-- After the second approval the first one is forgotten, and its node runs again. -/
theorem second_approval_forgets_first :
    ∃ life, Machine.run (Life.step approvalsExecutor sampleTrace) approvalsBegin twoApprovals = some life ∧
      ¬ life.DecisionsKept := by
  have hagain : (Machine.run (Life.step approvalsExecutor sampleTrace) approvalsBegin twoApprovals).any
      (fun life => life.decided.any (fun d => d.1 = 1) && life.exec.started.contains 1) = true := by
    decide
  obtain ⟨life, hlife, hboth⟩ := (Option.any_eq_true _ _).mp hagain
  refine ⟨life, hlife, fun hkept => ?_⟩
  obtain ⟨hdecided, hstarted⟩ := Bool.and_eq_true_iff.mp hboth
  obtain ⟨⟨w, o⟩, hd, hw⟩ := List.any_eq_true.mp hdecided
  have hone : w = 1 := by simpa using hw
  subst hone
  exact (hkept 1 o hd).1 (List.contains_iff_mem.mp hstarted)

end Xerv
