import Xerv.Nodes.Loop
import Xerv.Scheduler.Activation
import Xerv.Scheduler.Exits

/-!
# Loops in a trace

A `std::loop` node in the executor. Each execution of a node gets a `Context` of its
own, with empty iteration counters, and `execute_trace` starts a node at most once:
nothing resets the body of a loop or lets its back-edge start the loop node again.
-/

namespace Xerv
open Xerv.Lib

/-- `loop` is a loop node whose continue port leads to `body`, which is entered in no other way and
leads back by a declared back-edge. -/
structure LoopShape (g : FlowGraph) (loop body : NodeId) : Prop where
  controller : ∃ node ∈ g.nodes, node.id = loop ∧ node.isLoopController = true
  continues : ∃ e ∈ g.edges, e.fromNode = loop ∧ e.fromPort = "continue" ∧ e.toNode = body
  returns : ∃ e ∈ g.edges, e.fromNode = body ∧ e.toNode = loop
  declared : g.isLoopBackEdge body loop = true
  entry : body ∉ g.entryPoints
  entered : ∀ e ∈ g.edges, e.toNode = body → e.fromNode = loop ∧ e.fromPort = "continue"

def Action.finishes (n : NodeId) : Action → Bool
  | .finish m _ _ _ => m = n
  | _ => false

def Action.emits (n : NodeId) (port : String) : Action → Bool
  | .finish m (.returns output) _ none => m = n && output.matchesPort port
  | _ => false

namespace Executor

section Guarded
variable {F : Type} (ops : ValueOps F) (node : LoopNode) (loop : NodeId)

/-- The output of the loop node in a task, whose context is new. -/
def loopOutput (s : ExecState) (t : Task) : NodeOutput :=
  (node.execute ops loop s.arena Table.empty t.inputs).1

/-- The condition of the loop node holds for the input of its task, before any iteration. -/
def exitsAtOnce (s : ExecState) (t : Task) : Bool :=
  node.shouldExit ops (LoopNode.readInput ops s.arena (LoopNode.inputPtr t.inputs)) 0

/-- The loop node answers as `LoopNode::execute` does. -/
def loopAnswers (s : ExecState) : Action → Bool
  | .finish n behaviour _ _ =>
    n ≠ loop || (s.task? n).all fun t => behaviour = .returns (loopOutput ops node loop s t)
  | _ => true

/-- The loop node runs on an input for which its condition does not hold. -/
def goesOn (s : ExecState) : Action → Bool
  | .finish n _ _ _ => n = loop && (s.task? n).any fun t => !exitsAtOnce ops node s t
  | _ => false

/-- `execute_trace` with `LoopNode` as the implementation of `loop`. -/
def loopStep (ex : Executor) (tid : TraceId) (s : ExecState) (a : Action) : Option ExecState :=
  if loopAnswers ops node loop s a then ex.step tid s a else none

end Guarded

/-- When the trace is about to be finalized: the body ran once for every time the loop node went on, at
most `limit` times, and the loop node has exited. -/
structure Iterates (limit : ℕ) (loop body : NodeId) (actions : List Action) (s : ExecState) : Prop where
  runs : s.started.count body = actions.countP (Action.emits loop "continue")
  bounded : s.started.count body ≤ limit
  exited : 1 ≤ actions.countP (Action.emits loop "exit")

section Once
variable {ex : Executor} {tid : TraceId} {st₀ : TraceState} {s s' : ExecState} {loop body : NodeId}

theorem step_finish (n : NodeId) (behaviour : NodeBehaviour) (now : UInt64)
    (walError : Option WalWriteError)
    (h : ex.step tid s (.finish n behaviour now walError) = some s') :
    ∃ t, s.task? n = some t ∧ t.status = .running ∧
      s' = ex.finishTask tid s n behaviour now walError := by
  unfold Executor.step at h
  dsimp only at h
  split at h
  · rename_i hrunning
    obtain ⟨t, ht, hr⟩ := (Option.any_eq_true _ _).mp hrunning
    cases h
    exact ⟨t, ht, by simpa using hr, rfl⟩
  · cases h

/-- The loop node is started once: its task has ended at most once, and not while it is open. -/
structure EndsOnce (ex : Executor) (st₀ : TraceState) (loop : NodeId) (past : List Action)
    (s : ExecState) : Prop where
  safe : ex.Safe st₀ s
  once : past.countP (Action.finishes loop) ≤ 1
  unstarted : loop ∉ s.started → past.countP (Action.finishes loop) = 0
  open_ : ∀ t ∈ s.tasks, t.node = loop → t.isFinished = false →
    past.countP (Action.finishes loop) = 0

theorem started_mono (a : Action) (hs : ex.Step tid s a s') (n : NodeId) (h : n ∈ s.started) :
    n ∈ s'.started := by
  cases hs with
  | spawn m rest st hp ht hn => exact List.mem_append_left _ h
  | stop _ _ e hp htasks hphase htrace hwal harena hstarted hspawned hjoined =>
    rw [hstarted]
    exact h
  | finish t behaviour now walError ht hr =>
    rw [(finishTask_quiet t.node behaviour now walError).started]
    exact h
  | _ => exact h

theorem open_of_step (a : Action) (h : ex.Safe st₀ s) (hs : ex.Step tid s a s') (t' : Task)
    (ht' : t' ∈ s'.tasks) (hopen : t'.isFinished = false) :
    (∃ t ∈ s.tasks, t.node = t'.node ∧ t.isFinished = false) ∨ t'.node ∉ s.started := by
  cases hs with
  | spawn n rest st hp ht hn =>
    rcases List.mem_append.mp ht' with hold | hnew
    · exact .inl ⟨t', hold, rfl, hopen⟩
    · rw [List.mem_singleton.mp hnew]
      exact .inr (h.startable hp ht).new
  | acquire t ht hq hfree =>
    rcases mem_setStatus _ _ t' ht' with hold | ⟨x, hx, hxn, rfl⟩
    · exact .inl ⟨t', hold, rfl, hopen⟩
    · refine .inl ⟨t, ht, hxn.symm, ?_⟩
      rw [Task.isFinished, hq]
  | finish t behaviour now walError ht hr =>
    obtain ⟨r, records, heq⟩ := finishTask_eq ex tid s t.node behaviour now walError
    rw [heq] at ht'
    rcases mem_setStatus _ _ t' ht' with hold | ⟨x, hx, hxn, rfl⟩
    · exact .inl ⟨t', hold, rfl, hopen⟩
    · cases hopen
  | join t output hp ht hf hsus => exact .inl ⟨t', (List.mem_filter.mp ht').1, rfl, hopen⟩
  | joinSuspend t output hp ht hf hsus => exact .inl ⟨t', (List.mem_filter.mp ht').1, rfl, hopen⟩
  | drain t output n hp ht hf hsus => exact .inl ⟨t', (List.mem_filter.mp ht').1, rfl, hopen⟩
  | drainSkip t r n hp ht hf hr => exact .inl ⟨t', (List.mem_filter.mp ht').1, rfl, hopen⟩
  | stop _ _ e hp htasks hphase htrace hwal harena hstarted hspawned hjoined =>
    rw [htasks] at ht'
    exact absurd ht' List.not_mem_nil
  | _ => exact .inl ⟨t', ht', rfl, hopen⟩

theorem countP_concat (p : Action → Bool) (past : List Action) (a : Action) :
    (past ++ [a]).countP p = past.countP p + if p a then 1 else 0 := by
  rw [List.countP_append, List.countP_singleton]

theorem finishes_cases (n : NodeId) (a : Action) (h : a.finishes n = true) :
    ∃ behaviour now walError, a = .finish n behaviour now walError := by
  cases a with
  | finish m behaviour now walError =>
    have hm : m = n := of_decide_eq_true h
    exact ⟨behaviour, now, walError, by rw [hm]⟩
  | _ => cases h

theorem EndsOnce.step (past : List Action) (a : Action) (h : EndsOnce ex st₀ loop past s)
    (hs : ex.step tid s a = some s') : EndsOnce ex st₀ loop (past ++ [a]) s' := by
  have hstep := step_cases a hs
  have hsafe := h.safe.step a hstep
  by_cases ha : a.finishes loop = true
  · obtain ⟨behaviour, now, walError, rfl⟩ := finishes_cases loop a ha
    obtain ⟨t, ht, hr, rfl⟩ := step_finish loop behaviour now walError hs
    obtain ⟨hmem, hnode⟩ := task?_some loop t ht
    have hopen : t.isFinished = false := by rw [Task.isFinished, hr]
    have hzero := h.open_ t hmem hnode hopen
    have hstarted : loop ∈ s.started := h.safe.taskStarted loop (hnode ▸ List.mem_map_of_mem hmem)
    refine ⟨hsafe, ?_, fun hnot => ?_, fun t' ht' hn hopen' => ?_⟩
    · rw [countP_concat, hzero, if_pos ha]
    · exact absurd (started_mono _ hstep loop hstarted) hnot
    · obtain ⟨r, records, heq⟩ := finishTask_eq ex tid s loop behaviour now walError
      rw [heq] at ht'
      have hdone := status_setStatus loop _ t' ht' hn
      rw [Task.isFinished, hdone] at hopen'
      cases hopen'
  · have hsame : (past ++ [a]).countP (Action.finishes loop) = past.countP (Action.finishes loop) := by
      rw [countP_concat, if_neg ha, Nat.add_zero]
    refine ⟨hsafe, ?_, fun hnot => ?_, fun t' ht' hn hopen' => ?_⟩
    · rw [hsame]
      exact h.once
    · rw [hsame]
      exact h.unstarted fun hin => hnot (started_mono a hstep loop hin)
    · rw [hsame]
      rcases open_of_step a h.safe hstep t' ht' hopen' with ⟨t, ht, hnode, hopen⟩ | hnew
      · exact h.open_ t ht (hnode.trans hn) hopen
      · exact h.unstarted (hn ▸ hnew)

end Once

/-! ### What the loop node has said -/

section Said
variable {ex : Executor} {tid : TraceId} {st₀ : TraceState} {s s' : ExecState} {loop body : NodeId}

/-- The output of the loop node is in its task or in the trace. -/
def Said (loop : NodeId) (s : ExecState) (output : NodeOutput) : Prop :=
  (∃ t ∈ s.tasks, t.node = loop ∧ t.status = .finished (.ok output)) ∨
    ∃ st, s.trace = some st ∧ st.outputs loop = some output

theorem said_of_record (t : Task) (recorded output : NodeOutput) (ht : t ∈ s.tasks)
    (hf : t.status = .finished (.ok recorded)) (h : Said loop ((s.joinTask t.node).record t.node recorded) output) :
    Said loop s output := by
  rcases h with ⟨t', ht', hn, hf'⟩ | ⟨st', hst', ho⟩
  · exact .inl ⟨t', (List.mem_filter.mp ht').1, hn, hf'⟩
  · obtain ⟨st, hst, rfl⟩ := Option.map_eq_some_iff.mp hst'
    by_cases hn : loop = t.node
    · have hout : some recorded = some output := by
        rw [← ho, hn]
        exact (Table.insert_self _ _ _).symm
      cases hout
      exact .inl ⟨t, ht, hn.symm, hf⟩
    · have hout : (st.recordOutput t.node recorded).outputs loop = st.outputs loop :=
        Table.insert_ne _ _ hn
      exact .inr ⟨st, hst, hout.symm.trans ho⟩

theorem said_of_setStatus (n : NodeId) (status : TaskStatus) (records : List WalRecord)
    (output : NodeOutput) (hne : n = loop → status ≠ .finished (.ok output))
    (h : Said loop { s.setStatus n status with wal := records } output) : Said loop s output := by
  rcases h with ⟨t', ht', hn, hf⟩ | htrace
  · rcases mem_setStatus n status t' ht' with hold | ⟨x, hx, hxn, rfl⟩
    · exact .inl ⟨t', hold, hn, hf⟩
    · exact absurd hf (hne (hxn.symm.trans hn))
  · exact .inr htrace

theorem said_of_step (a : Action) (hs : ex.Step tid s a s') (ha : a.finishes loop = false)
    (output : NodeOutput) (h : Said loop s' output) : Said loop s output := by
  cases hs with
  | spawn n rest st hp ht hn =>
    rcases h with ⟨t', ht', hnode, hf⟩ | ⟨st', hst', ho⟩
    · rcases List.mem_append.mp ht' with hold | hnew
      · exact .inl ⟨t', hold, hnode, hf⟩
      · rw [List.mem_singleton.mp hnew] at hf
        cases hf
    · cases hst'
      exact .inr ⟨st, ht, ho⟩
  | acquire t ht hq hfree =>
    exact said_of_setStatus t.node .running s.wal output (fun _ => nofun) h
  | finish t behaviour now walError ht hr =>
    obtain ⟨r, records, heq⟩ := finishTask_eq ex tid s t.node behaviour now walError
    rw [heq] at h
    have hne : t.node ≠ loop := of_decide_eq_false ha
    exact said_of_setStatus t.node _ _ output (fun hn => absurd hn hne) h
  | join t recorded hp ht hf hsus => exact said_of_record t recorded output ht hf h
  | drain t recorded n hp ht hf hsus => exact said_of_record t recorded output ht hf h
  | joinSuspend t recorded hp ht hf hsus =>
    rcases h with ⟨t', ht', hnode, hf'⟩ | htrace
    · exact .inl ⟨t', (List.mem_filter.mp ht').1, hnode, hf'⟩
    · exact .inr htrace
  | drainSkip t r n hp ht hf hr =>
    rcases h with ⟨t', ht', hnode, hf'⟩ | htrace
    · exact .inl ⟨t', (List.mem_filter.mp ht').1, hnode, hf'⟩
    · exact .inr htrace
  | suspend n metadata now hp htasks =>
    rcases h with hold | ⟨st', hst', ho⟩
    · exact .inl hold
    · cases hst'
  | finalize now hp =>
    rcases h with hold | ⟨st', hst', ho⟩
    · exact .inl hold
    · cases hst'
  | stop _ _ e hp htasks hphase htrace hwal harena hstarted hspawned hjoined =>
    rcases h with ⟨t', ht', hnode, hf⟩ | ⟨st', hst', ho⟩
    · rw [htasks] at ht'
      exact absurd ht' List.not_mem_nil
    · rcases htrace with hsame | hgone
      · exact .inr ⟨st', hsame.symm.trans hst', ho⟩
      · rw [hgone] at hst'
        cases hst'
  | _ => exact h

/-- The loop node has only exited, and the actions show it. -/
structure OnlyExits (ex : Executor) (st₀ : TraceState) (loop : NodeId) (past : List Action)
    (s : ExecState) : Prop where
  consistent : ex.Consistent st₀ s
  silent : past.countP (Action.emits loop "continue") = 0
  said : ∀ output, Said loop s output →
    output.port = some "exit" ∧ 1 ≤ past.countP (Action.emits loop "exit")

variable {F : Type} {ops : ValueOps F} {node : LoopNode}

theorem loopStep_some (a : Action) (h : loopStep ops node loop ex tid s a = some s') :
    loopAnswers ops node loop s a = true ∧ ex.step tid s a = some s' := by
  unfold loopStep at h
  split at h
  · rename_i hanswers
    exact ⟨hanswers, h⟩
  · cases h

theorem loop_finish (behaviour : NodeBehaviour) (now : UInt64) (walError : Option WalWriteError)
    (h : loopStep ops node loop ex tid s (.finish loop behaviour now walError) = some s') :
    ∃ t, s.task? loop = some t ∧ behaviour = .returns (loopOutput ops node loop s t) ∧
      s' = ex.finishTask tid s loop behaviour now walError := by
  obtain ⟨hanswers, hstep⟩ := loopStep_some _ h
  obtain ⟨t, ht, _, hs'⟩ := step_finish loop behaviour now walError hstep
  refine ⟨t, ht, ?_, hs'⟩
  simpa [loopAnswers, ht] using hanswers

theorem loopOutput_exit (t : Task) (h : exitsAtOnce ops node s t = true) :
    loopOutput ops node loop s t = .complete "exit" (LoopNode.inputPtr t.inputs) 0 := by
  unfold loopOutput LoopNode.execute
  dsimp only
  rw [if_pos]
  exact h

theorem loopOutput_continue (t : Task) (h : exitsAtOnce ops node s t = false) :
    loopOutput ops node loop s t = .complete "continue" (LoopNode.inputPtr t.inputs) 0 := by
  unfold loopOutput LoopNode.execute
  dsimp only
  rw [if_neg]
  rw [show node.shouldExit ops (LoopNode.readInput ops s.arena (LoopNode.inputPtr t.inputs))
    (LoopNode.getLoopIteration Table.empty loop) = false from h]
  exact Bool.false_ne_true

theorem emits_of_not_finishes (n : NodeId) (port : String) (a : Action) (h : a.finishes n = false) :
    a.emits n port = false := by
  cases a with
  | finish m behaviour now walError =>
    have hm : m ≠ n := of_decide_eq_false h
    cases behaviour with
    | returns output =>
      cases walError with
      | none => simp [Action.emits, hm]
      | some e => rfl
    | _ => rfl
  | _ => rfl

theorem emits_le_finishes (n : NodeId) (port : String) (actions : List Action) :
    actions.countP (Action.emits n port) ≤ actions.countP (Action.finishes n) := by
  refine List.countP_mono_left fun a _ hemits => ?_
  by_contra hnot
  rw [emits_of_not_finishes n port a (by simpa using hnot)] at hemits
  cases hemits

theorem OnlyExits.step (past : List Action) (a : Action) (h : OnlyExits ex st₀ loop past s)
    (hstay : goesOn ops node loop s a = false) (hs : loopStep ops node loop ex tid s a = some s') :
    OnlyExits ex st₀ loop (past ++ [a]) s' := by
  obtain ⟨hanswers, hstep⟩ := loopStep_some a hs
  have hconsistent := h.consistent.step a (step_cases a hstep)
  by_cases ha : a.finishes loop = true
  · obtain ⟨behaviour, now, walError, rfl⟩ := finishes_cases loop a ha
    obtain ⟨t, ht, rfl, rfl⟩ := loop_finish behaviour now walError hs
    have hexit : exitsAtOnce ops node s t = true := by
      simpa [goesOn, ht] using hstay
    rw [loopOutput_exit t hexit] at hconsistent ⊢
    cases walError with
    | none =>
      rw [finishTask_returns] at hconsistent ⊢
      refine ⟨hconsistent, ?_, fun output hsaid => ?_⟩
      · rw [countP_concat, h.silent]
        simp [Action.emits, NodeOutput.matchesPort, NodeOutput.port]
      · refine ⟨?_, ?_⟩
        · rcases hsaid with ⟨t', ht', hn, hf⟩ | htrace
          · have hdone := status_setStatus loop _ t' ht' hn
            rw [hf] at hdone
            cases hdone
            rfl
          · exact (h.said output (.inr htrace)).1
        · rw [countP_concat, if_pos (by simp [Action.emits, NodeOutput.matchesPort, NodeOutput.port])]
          exact Nat.le_add_left 1 _
    | some e =>
      -- the record cannot be written, and the task ends with an error instead
      refine ⟨hconsistent, ?_, fun output hsaid => ?_⟩
      · rw [countP_concat, h.silent]
        rfl
      · have hne : TaskStatus.finished (.err e.text) ≠ .finished (.ok output) := by simp
        have hold := said_of_setStatus loop _ s.wal output (fun _ => hne) hsaid
        obtain ⟨hport, hcount⟩ := h.said output hold
        refine ⟨hport, ?_⟩
        rw [countP_concat]
        exact Nat.le_add_right_of_le hcount
  · have ha' : a.finishes loop = false := by simpa using ha
    refine ⟨hconsistent, ?_, fun output hsaid => ?_⟩
    · rw [countP_concat, h.silent, emits_of_not_finishes loop _ a ha']
      rfl
    · obtain ⟨hport, hcount⟩ := h.said output (said_of_step a (step_cases a hstep) ha' output hsaid)
      refine ⟨hport, ?_⟩
      rw [countP_concat]
      exact Nat.le_add_right_of_le hcount

end Said

/-! ### Loops that are finalized -/

section Loops
variable {F : Type} (ops : ValueOps F) (ex : Executor) (tid : TraceId) (node : LoopNode)
  {loop body : NodeId}

theorem not_exited_of_goesOn (st₀ : TraceState) (arena : Table RelPtr Bytes) (wal : List WalRecord)
    (actions : List Action) (s : ExecState)
    (hrun : Machine.run (loopStep ops node loop ex tid) (.start st₀ arena wal) actions = some s)
    (hgoes : Machine.happens (loopStep ops node loop ex tid) (goesOn ops node loop)
      (.start st₀ arena wal) actions = true) :
    actions.countP (Action.emits loop "exit") = 0 := by
  have honce : EndsOnce ex st₀ loop ([] ++ actions) s := by
    refine Machine.run_history (fun _ _ => false) (EndsOnce ex st₀ loop) ?_ actions [] ?_ ?_ hrun
    · exact fun past s a s' _ h hs => h.step past a (loopStep_some a hs).2
    · exact Machine.happens_never actions
    · exact ⟨safe_start ex st₀ arena wal, Nat.zero_le _, fun _ => rfl, fun _ _ _ _ => rfl⟩
  rw [List.nil_append] at honce
  obtain ⟨before, a, after, s₁, s₂, rfl, hstep, hat⟩ := Machine.happens_split _ actions hgoes hrun
  have hfinishes : a.finishes loop = true := by
    cases a with
    | finish n behaviour now walError => exact (Bool.and_eq_true_iff.mp hat).1
    | _ => cases hat
  obtain ⟨behaviour, now, walError, rfl⟩ := finishes_cases loop a hfinishes
  obtain ⟨t, ht, rfl, -⟩ := loop_finish behaviour now walError hstep
  have hstays : exitsAtOnce ops node s₁ t = false := by
    simpa [goesOn, ht] using hat
  have hcontinue : (Action.finish loop (.returns (loopOutput ops node loop s₁ t)) now walError).emits loop
      "exit" = false := by
    rw [loopOutput_continue t hstays]
    cases walError with
    | none => simp [Action.emits, NodeOutput.matchesPort, NodeOutput.port]
    | some e => rfl
  have hone := honce.once
  rw [List.countP_append, List.countP_cons, if_pos hfinishes] at hone
  have hbefore := emits_le_finishes loop "exit" before
  have hafter := emits_le_finishes loop "exit" after
  rw [List.countP_append, List.countP_cons, hcontinue, if_neg Bool.false_ne_true]
  omega

theorem iterates_of_onlyExits (shape : LoopShape ex.graph loop body) (st₀ : TraceState)
    (hbody : st₀.completed body = false) (limit : ℕ) (actions : List Action) (s : ExecState)
    (h : OnlyExits ex st₀ loop actions s) (hfinal : s.phase = .finalizing) (hreached : loop ∈ s.started) :
    Iterates limit loop body actions s := by
  obtain ⟨st, hst, hw⟩ := h.consistent.watched (by rw [hfinal]; rfl)
  have htasks := h.consistent.safe.done hfinal
  have hcoherent := h.consistent.coherent st hst
  have hdone : ∀ n ∈ s.started, st.completed n = true := by
    intro n hn
    rcases hw.spawned n (h.consistent.safe.startedSpawned n hn) with hmem | hdone
    · rw [htasks] at hmem
      exact absurd hmem List.not_mem_nil
    · exact hdone
  have hsaid : ∃ output, st.outputs loop = some output ∧ output.port = some "exit" ∧
      1 ≤ actions.countP (Action.emits loop "exit") := by
    have hsome := hdone loop hreached
    rw [hcoherent.outputs] at hsome
    obtain ⟨output, ho⟩ := Option.isSome_iff_exists.mp hsome
    exact ⟨output, ho, h.said output (.inr ⟨st, hst, ho⟩)⟩
  obtain ⟨output, ho, hport, hexit⟩ := hsaid
  -- the only edge into the body carries nothing
  have hunstarted : body ∉ s.started := by
    intro hin
    rcases hcoherent.justified body (.inl (hdone body hin)) with hold | hentry | ⟨⟨e, he, hcarries⟩, _⟩
    · rw [hbody] at hold
      cases hold
    · exact shape.entry hentry
    · obtain ⟨hedge, hto⟩ := (ex.graph.mem_incomingEdges body e).mp he
      obtain ⟨hfrom, hfromPort⟩ := shape.entered e hedge hto
      rw [TraceState.carries, hfrom, ho, hfromPort] at hcarries
      have hmatches : output.port = some "continue" := by
        simpa [NodeOutput.matchesPort] using hcarries
      rw [hport] at hmatches
      exact absurd hmatches (by decide)
  have hzero : s.started.count body = 0 := List.count_eq_zero.mpr hunstarted
  refine ⟨?_, ?_, hexit⟩
  · rw [hzero, h.silent]
  · rw [hzero]
    exact Nat.zero_le _

/-- A run of a new trace that reached the loop node and is about to be finalized has looped as it should
if and only if the loop node never ran on an input for which its condition did not hold at once. -/
theorem loop_iterates_iff (shape : LoopShape ex.graph loop body) (trigger : String) (input : RelPtr)
    (arena : Table RelPtr Bytes) (wal : List WalRecord) (actions : List Action) (s : ExecState)
    (hrun : Machine.run (loopStep ops node loop ex tid)
      (.start (.new tid trigger input) arena wal) actions = some s)
    (hfinal : s.phase = .finalizing) (hreached : loop ∈ s.started) :
    Iterates node.maxIterations loop body actions s ↔
      Machine.happens (loopStep ops node loop ex tid) (goesOn ops node loop)
        (.start (.new tid trigger input) arena wal) actions = false := by
  constructor
  · intro h
    cases hgoes : Machine.happens (loopStep ops node loop ex tid) (goesOn ops node loop)
        (.start (.new tid trigger input) arena wal) actions with
    | false => rfl
    | true =>
      have hnever := not_exited_of_goesOn ops ex tid node _ arena wal actions s hrun hgoes
      have hexited := h.exited
      omega
  · intro hnone
    have h := Machine.run_history (goesOn ops node loop) (OnlyExits ex (.new tid trigger input) loop)
      (fun past s a s' hstay h hs => h.step past a hstay hs) actions [] hnone
      ⟨consistent_start ex _ (TraceState.initial_new _ _ _) arena wal, rfl, ?_⟩ hrun
    · exact iterates_of_onlyExits ex shape _ rfl node.maxIterations actions s h hfinal hreached
    · intro output hsaid
      rcases hsaid with ⟨t, ht, _⟩ | ⟨st, hst, ho⟩
      · exact absurd ht List.not_mem_nil
      · cases hst
        cases ho

end Loops

/-! ### A loop with one body node -/

def retryGraph : FlowGraph :=
  let nodes := (((FlowGraph.new.addNode (.new 0 "trigger::webhook")).addNode (.new 1 "std::loop")).addNode
    (.new 2 "std::log")).addNode (.new 3 "std::log")
  ((((nodes.addEdge ⟨0, "out", 1, "in"⟩).addEdge ⟨1, "continue", 2, "in"⟩).addEdge
    ⟨2, "out", 1, "in"⟩).addEdge ⟨1, "exit", 3, "in"⟩).declareLoopEdge 2 1

def retryExecutor : Executor where
  graph := retryGraph
  executionOrder := [0, 1, 2, 3]
  nodes := fun _ => true
  maxConcurrentNodes := 16
  nodeTimeoutMs := 30000
  hasSuspensionStore := false
  accepted := ⟨retryGraph.nodeIds, retryGraph.nodeIds, by decide,
    retryGraph.hashOrder_nodeIds (by decide), by decide⟩

theorem retryShape : LoopShape retryExecutor.graph 1 2 where
  controller := by decide
  continues := by decide
  returns := by decide
  declared := by decide
  entry := by decide
  entered := by decide

def doneText : Bytes := "\x7b\"done\":true\x7d".toList.map charByte

def donePtr : RelPtr := ⟨64, 13⟩

def doneArena : Table RelPtr Bytes := Table.empty.insert donePtr doneText

/-- What `serde_json` reads from the text; no number is looked at. -/
def doneOps : ValueOps Unit where
  fromSlice bytes := if bytes = doneText then some (.object [("done", .bool true)]) else none
  render _ := ""
  asF64 _ := none
  parseF64 _ := none
  lt _ _ := false
  le _ _ := false
  isZero _ := false
  isAlphanumeric := Char.isAlphanum

def untilDone : LoopNode := ⟨.untilTrue "done", 3⟩

def doneRun : List Action :=
  runNode 0 (.complete "out" donePtr 0) ++ runNode 1 (.complete "exit" donePtr 0) ++
    runNode 3 (.complete "out" donePtr 0) ++ [.findReady, .spawnDone]

theorem loop_done_at_once_iterates :
    ∃ s, Machine.run (loopStep doneOps untilDone 1 retryExecutor sampleTrace)
        (.start (.new sampleTrace "webhook" donePtr) doneArena []) doneRun = some s ∧
      Iterates 3 1 2 doneRun s := by
  have hend : (Machine.run (loopStep doneOps untilDone 1 retryExecutor sampleTrace)
      (.start (.new sampleTrace "webhook" donePtr) doneArena []) doneRun).any
        (fun s => isFinalizing s && decide (1 ∈ s.started)) = true := by decide
  obtain ⟨s, hs, hp⟩ := (Option.any_eq_true _ _).mp hend
  rw [Bool.and_eq_true] at hp
  refine ⟨s, hs, ?_⟩
  refine (loop_iterates_iff doneOps retryExecutor sampleTrace untilDone retryShape "webhook" donePtr doneArena
    [] doneRun s hs (phase_of_isFinalizing hp.1) (of_decide_eq_true hp.2)).mpr ?_
  decide

def threeTimes : LoopNode := ⟨.maxIterations 3, 3⟩

def threeTimesRun : List Action :=
  runNode 0 (.complete "out" donePtr 0) ++ runNode 1 (.complete "continue" donePtr 0) ++
    runNode 2 (.complete "out" donePtr 0) ++ [.findReady, .spawnDone]

/-- A loop of three iterations runs its body once and is finalized without an exit. -/
theorem loop_of_three_runs_once :
    LoopShape retryExecutor.graph 1 2 ∧ 1 ≤ threeTimes.maxIterations ∧
      ∃ s, Machine.run (loopStep doneOps threeTimes 1 retryExecutor sampleTrace)
          (.start (.new sampleTrace "webhook" donePtr) doneArena []) threeTimesRun = some s ∧
        s.phase = .finalizing ∧ 1 ∈ s.started ∧
        ¬ Iterates threeTimes.maxIterations 1 2 threeTimesRun s := by
  refine ⟨retryShape, by decide, ?_⟩
  have hend : (Machine.run (loopStep doneOps threeTimes 1 retryExecutor sampleTrace)
      (.start (.new sampleTrace "webhook" donePtr) doneArena []) threeTimesRun).any
        (fun s => isFinalizing s && decide (1 ∈ s.started)) = true := by decide
  obtain ⟨s, hs, hp⟩ := (Option.any_eq_true _ _).mp hend
  rw [Bool.and_eq_true] at hp
  refine ⟨s, hs, phase_of_isFinalizing hp.1, of_decide_eq_true hp.2, fun h => ?_⟩
  have hnever : threeTimesRun.countP (Action.emits 1 "exit") = 0 := by decide
  have hexited := h.exited
  omega

end Executor

end Xerv
