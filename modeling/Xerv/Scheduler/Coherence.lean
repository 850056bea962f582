import Xerv.Scheduler.Safety

/-!
# The trace state along a run

Facts about the trace state that hold in every run, whatever the nodes return: a
node has completed exactly when it has an output, the tasks are the nodes marked
executing, and every node that has completed or is running was an entry point, or had
an input and all its predecessors completed (`Justified`). While the loop runs, no
node that is ready is overlooked (`Watched`).
-/

namespace Xerv
open Xerv.Lib

/-- A state that `new` or `from_recovery` builds. -/
structure TraceState.Initial (st : TraceState) : Prop where
  outputs : ∀ n, st.completed n = (st.outputs n).isSome
  idle : ∀ n, st.executing n = false

theorem TraceState.initial_new (traceId : TraceId) (triggerId : String) (input : RelPtr) :
    (TraceState.new traceId triggerId input).Initial := ⟨fun _ => rfl, fun _ => rfl⟩

theorem TraceState.initial_fromRecovery (traceId : TraceId) (triggerId : String) (input : RelPtr)
    (nodes : Table NodeId NodeOutput) : (fromRecovery traceId triggerId input nodes).Initial :=
  ⟨fun _ => rfl, fun _ => rfl⟩

def Phase.inLoop : Phase → Bool
  | .findReady | .spawning _ | .joining | .finalizing => true
  | _ => false

namespace Executor

/-- Why a node may have been started. -/
def Justified (ex : Executor) (st₀ st : TraceState) (n : NodeId) : Prop :=
  st₀.completed n = true ∨ n ∈ ex.graph.entryPoints ∨
    ((∃ e ∈ ex.graph.incomingEdges n, st.carries e = true) ∧
      ∀ p ∈ ex.graph.predecessors n, st.completed p = true)

structure Coherent (ex : Executor) (st₀ : TraceState) (nodes : List NodeId) (st : TraceState) :
    Prop where
  outputs : ∀ n, st.completed n = (st.outputs n).isSome
  kept : ∀ n o, st₀.outputs n = some o → st.outputs n = some o
  input : st.initialInput = st₀.initialInput
  taskOpen : ∀ n ∈ nodes, st.completed n = false
  justified : ∀ n, st.completed n = true ∨ n ∈ nodes → ex.Justified st₀ st n

/-- While the loop runs, what it has spawned is a task or has completed, and what is ready will be
spawned. -/
structure Watched (ex : Executor) (s : ExecState) (st : TraceState) : Prop where
  executing : ∀ n, st.executing n = true → n ∈ s.tasks.map Task.node
  spawned : ∀ n, s.spawned n = true → n ∈ s.tasks.map Task.node ∨ st.completed n = true
  ready : ∀ ready, s.phase = .spawning ready → ∀ n ∈ ex.executionOrder, s.spawned n = false →
    st.isNodeReady n ex.graph = true → n ∈ ready
  final : s.phase = .finalizing → ∀ n ∈ ex.executionOrder, s.spawned n = false →
    st.isNodeReady n ex.graph = false

structure Consistent (ex : Executor) (st₀ : TraceState) (s : ExecState) : Prop where
  safe : ex.Safe st₀ s
  coherent : ∀ st, s.trace = some st → ex.Coherent st₀ (s.tasks.map Task.node) st
  watched : s.phase.inLoop = true → ∃ st, s.trace = some st ∧ ex.Watched s st

variable {ex : Executor} {tid : TraceId} {st₀ st : TraceState} {s s' : ExecState}
  {nodes nodes' : List NodeId}

theorem coherent_start (ex : Executor) (st₀ : TraceState)
    (h : ∀ n, st₀.completed n = (st₀.outputs n).isSome) : ex.Coherent st₀ [] st₀ := by
  refine ⟨h, fun _ _ h => h, rfl, fun _ h => absurd h List.not_mem_nil, ?_⟩
  intro n hn
  rcases hn with hn | hn
  · exact .inl hn
  · exact absurd hn List.not_mem_nil

theorem consistent_start (ex : Executor) (st₀ : TraceState) (h₀ : st₀.Initial)
    (arena : Table RelPtr Bytes) (wal : List WalRecord) :
    ex.Consistent st₀ (ExecState.start st₀ arena wal) where
  safe := safe_start ex st₀ arena wal
  coherent st ht := by
    cases ht
    exact coherent_start ex st₀ h₀.outputs
  watched _ := by
    refine ⟨st₀, rfl, ⟨fun n hn => ?_, nofun, nofun, nofun⟩⟩
    rw [h₀.idle n] at hn
    exact absurd hn (by simp)

/-! ### One node more or less -/

theorem Justified.mono {st' : TraceState} {n : NodeId} (h : ex.Justified st₀ st n)
    (hcarries : ∀ e, st.carries e = true → st'.carries e = true)
    (hcompleted : ∀ m, st.completed m = true → st'.completed m = true) : ex.Justified st₀ st' n := by
  rcases h with h | h | ⟨⟨e, he, hc⟩, hpreds⟩
  · exact .inl h
  · exact .inr (.inl h)
  · exact .inr (.inr ⟨⟨e, he, hcarries e hc⟩, fun p hp => hcompleted p (hpreds p hp)⟩)

theorem Coherent.subset (h : ex.Coherent st₀ nodes st) (hsub : ∀ n ∈ nodes', n ∈ nodes) :
    ex.Coherent st₀ nodes' st := by
  refine ⟨h.outputs, h.kept, h.input, fun n hn => h.taskOpen n (hsub n hn), fun n hn => ?_⟩
  rcases hn with hn | hn
  · exact h.justified n (.inl hn)
  · exact h.justified n (.inr (hsub n hn))

theorem Coherent.execute (h : ex.Coherent st₀ nodes st) (n : NodeId) (hopen : st.completed n = false)
    (hjust : ex.Justified st₀ st n) : ex.Coherent st₀ (nodes ++ [n]) (st.markExecuting n) := by
  refine ⟨h.outputs, h.kept, h.input, fun m hm => ?_, fun m hm => ?_⟩
  · rcases List.mem_append.mp hm with hm | hm
    · exact h.taskOpen m hm
    · rw [List.mem_singleton.mp hm]
      exact hopen
  · rcases hm with hm | hm
    · exact h.justified m (.inl hm)
    · rcases List.mem_append.mp hm with hm | hm
      · exact h.justified m (.inr hm)
      · rw [List.mem_singleton.mp hm]
        exact hjust

theorem recordOutput_outputs (st : TraceState) (n m : NodeId) (output o : NodeOutput)
    (hn : st.outputs n = none) (h : st.outputs m = some o) :
    (st.recordOutput n output).outputs m = some o := by
  have hne : m ≠ n := by
    intro hmn
    rw [hmn, hn] at h
    cases h
  exact (Table.insert_ne _ _ hne).trans h

theorem carries_iff (st : TraceState) (e : Edge) :
    st.carries e = true ↔ ∃ o, st.outputs e.fromNode = some o ∧ o.matchesPort e.fromPort = true :=
  Option.any_eq_true _ _

theorem recordOutput_carries (st : TraceState) (n : NodeId) (output : NodeOutput)
    (hn : st.outputs n = none) (e : Edge) (h : st.carries e = true) :
    (st.recordOutput n output).carries e = true := by
  obtain ⟨o, ho, hp⟩ := (carries_iff st e).mp h
  exact (carries_iff _ e).mpr ⟨o, recordOutput_outputs st n _ output o hn ho, hp⟩

theorem Coherent.outputs_none (h : ex.Coherent st₀ nodes st) (n : NodeId)
    (hn : st.completed n = false) : st.outputs n = none := by
  rw [h.outputs n] at hn
  exact Option.isSome_eq_false_iff.mp hn |> Option.isNone_iff_eq_none.mp

theorem Coherent.record (h : ex.Coherent st₀ nodes st) (n : NodeId) (hn : n ∈ nodes)
    (output : NodeOutput) (hsub : ∀ m ∈ nodes', m ∈ nodes ∧ m ≠ n) :
    ex.Coherent st₀ nodes' (st.recordOutput n output) := by
  have hnone := h.outputs_none n (h.taskOpen n hn)
  have hmono (m : NodeId) (hm : ex.Justified st₀ st m) :
      ex.Justified st₀ (st.recordOutput n output) m :=
    hm.mono (recordOutput_carries st n output hnone)
      fun p hp => recordOutput_completed st n p output hp
  refine ⟨fun m => ?_, fun m o hm => ?_, h.input, fun m hm => ?_, fun m hm => ?_⟩
  · show st.completed.insert n m = (st.outputs.insert n output m).isSome
    by_cases hmn : m = n
    · subst hmn
      simp
    · rw [Keys.insert_ne _ hmn, Table.insert_ne _ _ hmn, h.outputs m]
  · exact recordOutput_outputs st n m output o hnone (h.kept m o hm)
  · obtain ⟨hm, hmn⟩ := hsub m hm
    exact (Keys.insert_ne _ hmn).trans (h.taskOpen m hm)
  · rcases hm with hm | hm
    · rcases (Keys.insert_true_iff _ _ _).mp hm with hmn | hm
      · rw [hmn]
        exact hmono n (h.justified n (.inr hn))
      · exact hmono m (h.justified m (.inl hm))
    · exact hmono m (h.justified m (.inr (hsub m hm).1))

/-! ### Steps -/

theorem Consistent.quiet (h : ex.Consistent st₀ s) (hq : Quiet s s') : ex.Consistent st₀ s' := by
  refine ⟨h.safe.quiet hq, fun st ht => ?_, fun hp => ?_⟩
  · rw [hq.nodes]
    exact h.coherent st (hq.trace.symm.trans ht)
  · rw [hq.phase] at hp
    obtain ⟨st, ht, hw⟩ := h.watched hp
    refine ⟨st, hq.trace.trans ht, ⟨?_, ?_, ?_, ?_⟩⟩
    · rw [hq.nodes]
      exact hw.executing
    · rw [hq.nodes, hq.spawned]
      exact hw.spawned
    · rw [hq.phase, hq.spawned]
      exact hw.ready
    · rw [hq.phase, hq.spawned]
      exact hw.final

theorem isNodeReady_markExecuting (st : TraceState) (n m : NodeId) (g : FlowGraph) (hmn : m ≠ n) :
    (st.markExecuting n).isNodeReady m g = st.isNodeReady m g := by
  unfold TraceState.isNodeReady TraceState.markExecuting
  dsimp only
  rw [Keys.insert_ne _ hmn]
  rfl

theorem Watched.execute (h : ex.Watched s st) (n : NodeId) (rest : List NodeId)
    (hp : s.phase = .spawning (n :: rest)) (s' : ExecState)
    (hnodes : s'.tasks.map Task.node = s.tasks.map Task.node ++ [n])
    (hspawned : s'.spawned = s.spawned.insert n) (hphase : s'.phase = .spawning rest) :
    ex.Watched s' (st.markExecuting n) := by
  refine ⟨fun m hm => ?_, fun m hm => ?_, fun ready hr m hm hs hready => ?_, ?_⟩
  · rw [hnodes]
    rcases (Keys.insert_true_iff _ _ _).mp hm with hmn | hm
    · exact List.mem_append_right _ (List.mem_singleton.mpr hmn)
    · exact List.mem_append_left _ (h.executing m hm)
  · rw [hspawned] at hm
    rw [hnodes]
    rcases (Keys.insert_true_iff _ _ _).mp hm with hmn | hm
    · exact .inl (List.mem_append_right _ (List.mem_singleton.mpr hmn))
    · rcases h.spawned m hm with hm | hm
      · exact .inl (List.mem_append_left _ hm)
      · exact .inr hm
  · rw [hphase] at hr
    cases hr
    have hmn : m ≠ n := by
      intro hmn
      rw [hspawned, hmn, Keys.insert_self] at hs
      cases hs
    rw [hspawned, Keys.insert_ne _ hmn] at hs
    rw [isNodeReady_markExecuting st n m ex.graph hmn] at hready
    rcases List.mem_cons.mp (h.ready _ hp m hm hs hready) with hmn' | hmem
    · exact absurd hmn' hmn
    · exact hmem
  · intro hfinal
    rw [hphase] at hfinal
    cases hfinal

theorem mem_joinTask (t : Task) (n : NodeId) (hn : n ∈ (s.joinTask t.node).tasks.map Task.node) :
    n ∈ s.tasks.map Task.node ∧ n ≠ t.node := by
  obtain ⟨x, hx, rfl⟩ := List.mem_map.mp hn
  obtain ⟨hmem, hne⟩ := List.mem_filter.mp hx
  exact ⟨List.mem_map_of_mem hmem, by simpa using hne⟩

theorem mem_joinTask_of_ne (t : Task) (n : NodeId) (hn : n ∈ s.tasks.map Task.node)
    (hne : n ≠ t.node) : n ∈ (s.joinTask t.node).tasks.map Task.node := by
  obtain ⟨x, hx, rfl⟩ := List.mem_map.mp hn
  exact List.mem_map_of_mem (List.mem_filter.mpr ⟨hx, by simpa using hne⟩)

theorem Watched.record (h : ex.Watched s st) (t : Task) (output : NodeOutput) :
    ex.Watched { (s.joinTask t.node).record t.node output with phase := .findReady }
      (st.recordOutput t.node output) := by
  refine ⟨fun n hn => ?_, fun n hn => ?_, nofun, nofun⟩
  · have hne : n ≠ t.node := by
      intro he
      rw [he] at hn
      have hrem : st.executing.remove t.node t.node = true := hn
      rw [Keys.remove_self] at hrem
      cases hrem
    have hold : st.executing n = true := (Keys.remove_ne _ hne).symm.trans hn
    exact mem_joinTask_of_ne t n (h.executing n hold) hne
  · by_cases hne : n = t.node
    · exact .inr ((Keys.insert_true_iff _ _ _).mpr (.inl hne))
    · rcases h.spawned n hn with hn | hn
      · exact .inl (mem_joinTask_of_ne t n hn hne)
      · exact .inr ((Keys.insert_true_iff _ _ _).mpr (.inr hn))

theorem coherent_step (a : Action) (hsafe : ex.Safe st₀ s)
    (h : ∀ st, s.trace = some st → ex.Coherent st₀ (s.tasks.map Task.node) st)
    (hs : ex.Step tid s a s') :
    ∀ st, s'.trace = some st → ex.Coherent st₀ (s'.tasks.map Task.node) st := by
  have hjoinSub (t : Task) (n : NodeId) (hn : n ∈ (s.joinTask t.node).tasks.map Task.node) :=
    mem_joinTask t n hn
  have hquiet (hq : Quiet s s') (st : TraceState) (ht : s'.trace = some st) :
      ex.Coherent st₀ (s'.tasks.map Task.node) st := by
    rw [hq.nodes]
    exact h st (hq.trace.symm.trans ht)
  have hrecord (t : Task) (ht : t ∈ s.tasks) (output : NodeOutput) (st : TraceState)
      (hst : ((s.joinTask t.node).record t.node output).trace = some st) :
      ex.Coherent st₀ ((s.joinTask t.node).tasks.map Task.node) st := by
    obtain ⟨st', ht', hrec⟩ := Option.map_eq_some_iff.mp hst
    rw [← hrec]
    exact (h st' ht').record t.node (List.mem_map_of_mem ht) output (hjoinSub t)
  cases hs with
  | ready st hp ht => exact h
  | spawn n rest st hp ht hn =>
    have hstart := hsafe.startable hp ht
    have hjust : ex.Justified st₀ st n := by
      by_cases hentry : n ∈ ex.graph.entryPoints
      · exact .inr (.inl hentry)
      · exact .inr (.inr ⟨hstart.activated hentry, hstart.waited hentry⟩)
    intro st' hst'
    cases hst'
    rw [List.map_append]
    exact (h st ht).execute n hstart.open_ hjust
  | spawnDone hp => exact h
  | acquire t ht hq hfree => exact hquiet (setStatus_quiet _ _)
  | arenaWrite t ptr data ht hr hfree => exact h
  | finish t behaviour now walError ht hr => exact hquiet (finishTask_quiet _ _ _ _)
  | join t output hp ht hf hs => exact hrecord t ht output
  | joinSuspend t output hp ht hf hs =>
    intro st hst
    exact (h st hst).subset fun n hn => (hjoinSub t n hn).1
  | drain t output n hp ht hf hs => exact hrecord t ht output
  | drainSkip t r n hp ht hf hr =>
    intro st hst
    exact (h st hst).subset fun n hn => (hjoinSub t n hn).1
  | suspend n metadata now hp htasks => exact nofun
  | finalize now hp => exact nofun
  | stop _ _ e hp htasks hphase htrace hwal harena hstarted hspawned hjoined =>
    intro st hst
    rcases htrace with htrace | htrace
    · refine (h st (htrace.symm.trans hst)).subset fun n hn => ?_
      rw [htasks] at hn
      exact absurd hn List.not_mem_nil
    · rw [htrace] at hst
      cases hst
  | otherRecord r hr => exact h

theorem Consistent.step (a : Action) (h : ex.Consistent st₀ s) (hs : ex.Step tid s a s') :
    ex.Consistent st₀ s' := by
  have hsafe := h.safe.step a hs
  have hcoherent := coherent_step a h.safe h.coherent hs
  cases hs with
  | ready st hp ht =>
    refine ⟨hsafe, hcoherent, fun _ => ⟨st, ht, ?_⟩⟩
    obtain ⟨st', ht', hw⟩ := h.watched (by rw [hp]; rfl)
    have hst : st' = st := Option.some.inj (ht'.symm.trans ht)
    subst hst
    refine ⟨hw.executing, hw.spawned, fun ready hr n hn hspawned hready => ?_, nofun⟩
    cases hr
    have hnew : s.spawned n = false := hspawned
    exact List.mem_filter.mpr ⟨hn, by simp [hnew, hready]⟩
  | spawn n rest st hp ht hn =>
    obtain ⟨st'', ht'', hw⟩ := h.watched (by rw [hp]; rfl)
    have hst : st'' = st := Option.some.inj (ht''.symm.trans ht)
    subst hst
    exact ⟨hsafe, hcoherent, fun _ => ⟨_, rfl, hw.execute n rest hp _ List.map_append rfl rfl⟩⟩
  | spawnDone hp =>
    refine ⟨hsafe, hcoherent, fun _ => ?_⟩
    obtain ⟨st, ht, hw⟩ := h.watched (by rw [hp]; rfl)
    refine ⟨st, ht, ⟨hw.executing, hw.spawned, ?_, fun _ n hn hspawned => ?_⟩⟩
    · intro ready hready
      dsimp only at hready
      split at hready
      · cases hready
      · cases hready
    · cases hready : st.isNodeReady n ex.graph with
      | false => rfl
      | true => exact absurd (hw.ready [] hp n hn hspawned hready) List.not_mem_nil
  | acquire t ht hq hfree => exact h.quiet (setStatus_quiet _ _)
  | arenaWrite t ptr data ht hr hfree => exact h.quiet ⟨rfl, rfl, rfl, rfl, rfl, rfl⟩
  | finish t behaviour now walError ht hr => exact h.quiet (finishTask_quiet _ _ _ _)
  | join t output hp ht hf hs =>
    obtain ⟨st, htrace, hw⟩ := h.watched (by rw [hp]; rfl)
    refine ⟨hsafe, hcoherent, fun _ => ⟨st.recordOutput t.node output, ?_, hw.record t output⟩⟩
    show s.trace.map _ = _
    rw [htrace]
    rfl
  | joinSuspend t output hp ht hf hs => exact ⟨hsafe, hcoherent, nofun⟩
  | drain t output n hp ht hf hs =>
    refine ⟨hsafe, hcoherent, fun hloop => ?_⟩
    have hloop' : s.phase.inLoop = true := hloop
    rw [hp] at hloop'
    cases hloop'
  | drainSkip t r n hp ht hf hr =>
    refine ⟨hsafe, hcoherent, fun hloop => ?_⟩
    have hloop' : s.phase.inLoop = true := hloop
    rw [hp] at hloop'
    cases hloop'
  | suspend n metadata now hp htasks => exact ⟨hsafe, hcoherent, nofun⟩
  | finalize now hp => exact ⟨hsafe, hcoherent, nofun⟩
  | stop _ _ e hp htasks hphase htrace hwal harena hstarted hspawned hjoined =>
    refine ⟨hsafe, hcoherent, fun hloop => ?_⟩
    rw [hphase] at hloop
    cases hloop
  | otherRecord r hr => exact h.quiet ⟨rfl, rfl, rfl, rfl, rfl, rfl⟩

theorem run_consistent (h₀ : st₀.Initial) (arena : Table RelPtr Bytes) (wal : List WalRecord)
    (actions : List Action) (hrun : ex.run tid (ExecState.start st₀ arena wal) actions = some s) :
    ex.Consistent st₀ s :=
  run_invariant (ex.Consistent st₀) (fun _ a _ h hs => h.step a hs) actions
    (consistent_start ex st₀ h₀ arena wal) hrun

/-! ### The state that is finalized -/

theorem Consistent.final (h : ex.Consistent st₀ s) (hp : s.phase = .finalizing) :
    ∃ st, s.trace = some st ∧ ex.Coherent st₀ [] st ∧
      ∀ n ∈ ex.graph.nodeIds, st.completed n = false → n ∉ ex.graph.entryPoints ∧
        ((∃ e ∈ ex.graph.incomingEdges n, st.carries e = true) →
          ∃ p ∈ ex.graph.predecessors n, st.completed p = false) := by
  obtain ⟨st, ht, hw⟩ := h.watched (by rw [hp]; rfl)
  have htasks := h.safe.done hp
  have hnodes : s.tasks.map Task.node = [] := by rw [htasks]; rfl
  refine ⟨st, ht, hnodes ▸ h.coherent st ht, fun n hn hopen => ?_⟩
  have hspawned : s.spawned n = false := by
    cases hsp : s.spawned n with
    | false => rfl
    | true =>
      rcases hw.spawned n hsp with hmem | hdone
      · rw [hnodes] at hmem
        exact absurd hmem List.not_mem_nil
      · rw [hopen] at hdone
        cases hdone
  have hidle : st.executing n = false := by
    cases hex : st.executing n with
    | false => rfl
    | true =>
      have hmem := hw.executing n hex
      rw [hnodes] at hmem
      exact absurd hmem List.not_mem_nil
  have hready := hw.final hp n ((ex.ordered.mem n).mpr hn) hspawned
  have hentry : n ∉ ex.graph.entryPoints := by
    intro hentry
    rw [(st.isNodeReady_entry n ex.graph hentry).mpr ⟨hopen, hidle⟩] at hready
    cases hready
  refine ⟨hentry, fun hpending => ?_⟩
  by_contra hall
  have hpreds : ∀ p ∈ ex.graph.predecessors n, st.completed p = true := by
    intro p hp'
    cases hc : st.completed p with
    | true => rfl
    | false => exact absurd ⟨p, hp', hc⟩ hall
  rw [(st.isNodeReady_inner n ex.graph hentry).mpr ⟨hpending, hpreds, hopen, hidle⟩] at hready
  cases hready

end Executor

end Xerv
