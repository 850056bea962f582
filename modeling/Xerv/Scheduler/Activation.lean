import Xerv.Scheduler.Coherence

/-!
# Which nodes run

`route n` is the port on which node `n` answers when it runs. Following the taken
edges from the entry points (and from what had completed before) gives the live
nodes. A node waits for all of its predecessors, also for those that are not live, so
an activated node runs if and only if its predecessors are live too.
-/

namespace Xerv
open Xerv.Lib

/-- Nodes reached from the entry points and the nodes done before over taken forward edges. -/
inductive Live (g : FlowGraph) (route : NodeId → Option String) (done : Keys NodeId) : NodeId → Prop
  | entry (n : NodeId) (h : n ∈ g.entryPoints) : Live g route done n
  | done (n : NodeId) (h : done n = true) : Live g route done n
  | edge (e : Edge) (h : Live g route done e.fromNode) (he : e ∈ g.edges)
    (hf : g.isForward e = true) (hr : route e.fromNode = some e.fromPort) :
    Live g route done e.toNode

/-- Taken back-edges of live nodes lead to live nodes. -/
def BackEdgesLive (g : FlowGraph) (route : NodeId → Option String) (done : Keys NodeId) : Prop :=
  ∀ e ∈ g.edges, g.isForward e = false → Live g route done e.fromNode →
    route e.fromNode = some e.fromPort → Live g route done e.toNode

namespace Executor

/-- Nodes neither fail nor suspend, and answer on the port `route` gives. -/
def Routed (route : NodeId → Option String) : Action → Prop
  | .finish n behaviour _ walError => walError = none ∧
      ∃ output, behaviour = .returns output ∧ output.isSuspended = false ∧ output.port = route n
  | _ => True

/-- The outputs recorded or about to be are those `route` allows, of live nodes. -/
structure OnRoute (ex : Executor) (route : NodeId → Option String) (st₀ : TraceState)
    (s : ExecState) : Prop where
  consistent : ex.Consistent st₀ s
  outputs : ∀ st, s.trace = some st → ∀ n o, st.outputs n = some o → o.port = route n
  results : ∀ t ∈ s.tasks, ∀ r, t.status = .finished r → ∃ o, r = .ok o ∧ o.port = route t.node
  live : ∀ st, s.trace = some st → ∀ n, st.completed n = true ∨ n ∈ s.tasks.map Task.node →
    Live ex.graph route st₀.completed n

variable {ex : Executor} {tid : TraceId} {route : NodeId → Option String} {st₀ st : TraceState}
  {s s' : ExecState}

/-- Under a routing an edge carries an output if its source has completed and answers on its port. -/
theorem carries_route (hout : ∀ n, st.completed n = (st.outputs n).isSome)
    (hroute : ∀ n o, st.outputs n = some o → o.port = route n) (e : Edge) :
    st.carries e = true ↔ st.completed e.fromNode = true ∧ route e.fromNode = some e.fromPort := by
  rw [carries_iff, hout]
  constructor
  · intro h
    obtain ⟨o, ho, hp⟩ := h
    refine ⟨by rw [ho]; rfl, ?_⟩
    rw [← hroute _ o ho]
    simpa [NodeOutput.matchesPort] using hp
  · intro h
    obtain ⟨hsome, hport⟩ := h
    obtain ⟨o, ho⟩ := Option.isSome_iff_exists.mp hsome
    refine ⟨o, ho, ?_⟩
    rw [← hroute _ o ho] at hport
    simp [NodeOutput.matchesPort, hport]

theorem onRoute_start (h₀ : st₀.Initial) (hroute₀ : ∀ n o, st₀.outputs n = some o → o.port = route n)
    (arena : Table RelPtr Bytes) (wal : List WalRecord) :
    ex.OnRoute route st₀ (ExecState.start st₀ arena wal) where
  consistent := consistent_start ex st₀ h₀ arena wal
  outputs st ht := by
    cases ht
    exact hroute₀
  results _ h := absurd h List.not_mem_nil
  live st ht n hn := by
    cases ht
    rcases hn with hn | hn
    · exact .done n hn
    · exact absurd hn List.not_mem_nil

theorem OnRoute.keep (h : ex.OnRoute route st₀ s) (hc : ex.Consistent st₀ s')
    (htrace : s'.trace = s.trace ∨ s'.trace = none)
    (hnodes : ∀ n ∈ s'.tasks.map Task.node, n ∈ s.tasks.map Task.node)
    (hresults : ∀ t ∈ s'.tasks, ∀ r, t.status = .finished r → ∃ o, r = .ok o ∧ o.port = route t.node) :
    ex.OnRoute route st₀ s' := by
  have hback : ∀ st, s'.trace = some st → s.trace = some st := by
    intro st ht
    rcases htrace with htrace | htrace
    · exact htrace.symm.trans ht
    · rw [htrace] at ht
      cases ht
  refine ⟨hc, fun st ht => h.outputs st (hback st ht), hresults, fun st ht n hn => ?_⟩
  rcases hn with hn | hn
  · exact h.live st (hback st ht) n (.inl hn)
  · exact h.live st (hback st ht) n (.inr (hnodes n hn))

theorem OnRoute.record (h : ex.OnRoute route st₀ s) (t : Task) (ht : t ∈ s.tasks) (o : NodeOutput)
    (hf : t.status = .finished (.ok o)) (phase : Phase)
    (hc : ex.Consistent st₀ { (s.joinTask t.node).record t.node o with phase := phase }) :
    ex.OnRoute route st₀ { (s.joinTask t.node).record t.node o with phase := phase } := by
  obtain ⟨o', ho', hport⟩ := h.results t ht _ hf
  cases ho'
  refine ⟨hc, fun st hst n x hx => ?_, fun x hx => ?_, fun st hst n hn => ?_⟩
  · obtain ⟨st', ht', hrec⟩ := Option.map_eq_some_iff.mp hst
    rw [← hrec] at hx
    have hx' : (st'.outputs.insert t.node o) n = some x := hx
    by_cases hn : n = t.node
    · subst hn
      rw [Table.insert_self] at hx'
      cases hx'
      exact hport
    · rw [Table.insert_ne _ _ hn] at hx'
      exact h.outputs st' ht' n x hx'
  · exact h.results x (List.mem_filter.mp hx).1
  · obtain ⟨st', ht', hrec⟩ := Option.map_eq_some_iff.mp hst
    rw [← hrec] at hn
    rcases hn with hn | hn
    · rcases (Keys.insert_true_iff _ _ _).mp hn with hn | hn
      · rw [hn]
        exact h.live st' ht' t.node (.inr (List.mem_map_of_mem ht))
      · exact h.live st' ht' n (.inl hn)
    · exact h.live st' ht' n (.inr (mem_joinTask t n hn).1)

theorem OnRoute.step (hback : BackEdgesLive ex.graph route st₀.completed) (a : Action)
    (ha : Routed route a) (h : ex.OnRoute route st₀ s) (hs : ex.Step tid s a s') :
    ex.OnRoute route st₀ s' := by
  have hc := h.consistent.step a hs
  cases hs with
  | ready st hp ht => exact h.keep hc (.inl rfl) (fun _ hn => hn) h.results
  | spawn n rest st hp ht hn =>
    have hstart := h.consistent.safe.startable hp ht
    have hlive : Live ex.graph route st₀.completed n := by
      by_cases hentry : n ∈ ex.graph.entryPoints
      · exact .entry n hentry
      · obtain ⟨e, he, hcarries⟩ := hstart.activated hentry
        obtain ⟨hedge, hto⟩ := (ex.graph.mem_incomingEdges n e).mp he
        obtain ⟨hdone, hport⟩ := (carries_route (h.consistent.coherent st ht).outputs
          (h.outputs st ht) e).mp hcarries
        have hsource := h.live st ht e.fromNode (.inl hdone)
        rw [← hto]
        cases hf : ex.graph.isForward e with
        | true => exact .edge e hsource hedge hf hport
        | false => exact hback e hedge hf hsource hport
    refine ⟨hc, fun st' hst' => ?_, fun t htask r hr => ?_, fun st' hst' m hm => ?_⟩
    · cases hst'
      exact h.outputs st ht
    · rcases List.mem_append.mp htask with htask | htask
      · exact h.results t htask r hr
      · rw [List.mem_singleton.mp htask] at hr
        cases hr
    · cases hst'
      rw [List.map_append] at hm
      rcases hm with hm | hm
      · exact h.live st ht m (.inl hm)
      · rcases List.mem_append.mp hm with hm | hm
        · exact h.live st ht m (.inr hm)
        · rw [List.mem_singleton.mp hm]
          exact hlive
  | spawnDone hp => exact h.keep hc (.inl rfl) (fun _ hn => hn) h.results
  | acquire t ht hq hfree =>
    refine h.keep hc (.inl rfl) (fun n hn => by rwa [map_node_setStatus] at hn) ?_
    intro x hx r hr
    rcases mem_setStatus _ _ x hx with hx | ⟨y, _, _, rfl⟩
    · exact h.results x hx r hr
    · cases hr
  | arenaWrite t ptr data ht hr hfree => exact h.keep hc (.inl rfl) (fun _ hn => hn) h.results
  | finish t behaviour now walError ht hr =>
    obtain ⟨rfl, output, rfl, _, hport⟩ := ha
    refine h.keep hc (.inl (finishTask_quiet _ _ _ _).trace)
      (fun n hn => by rwa [(finishTask_quiet _ _ _ _).nodes] at hn) ?_
    rw [finishTask_returns]
    intro x hx r hr
    rcases mem_setStatus _ _ x hx with hx | ⟨y, _, hy, rfl⟩
    · exact h.results x hx r hr
    · cases hr
      exact ⟨output, rfl, by rw [← hy] at hport; exact hport⟩
  | join t output hp ht hf hs => exact h.record t ht output hf .findReady hc
  | joinSuspend t output hp ht hf hs =>
    refine h.keep hc (.inl rfl) (fun n hn => (mem_joinTask t n hn).1) ?_
    exact fun x hx => h.results x (List.mem_filter.mp hx).1
  | drain t output n hp ht hf hs => exact h.record t ht output hf s.phase hc
  | drainSkip t r n hp ht hf hr =>
    refine h.keep hc (.inl rfl) (fun n hn => (mem_joinTask t n hn).1) ?_
    exact fun x hx => h.results x (List.mem_filter.mp hx).1
  | suspend n metadata now hp htasks => exact h.keep hc (.inr rfl) (fun _ hn => hn) h.results
  | finalize now hp => exact h.keep hc (.inr rfl) (fun _ hn => hn) h.results
  | stop _ _ e hp htasks hphase htrace hwal harena hstarted hspawned hjoined =>
    refine h.keep hc htrace (fun n hn => ?_) fun t htask => ?_
    · rw [htasks] at hn
      exact absurd hn List.not_mem_nil
    · rw [htasks] at htask
      exact absurd htask List.not_mem_nil
  | otherRecord r hr => exact h.keep hc (.inl rfl) (fun _ hn => hn) h.results

/-! ### The final state -/

section Final
variable (hc : ex.Coherent st₀ [] st)
  (hroute : ∀ n o, st.outputs n = some o → o.port = route n)
  (hlive : ∀ n, st.completed n = true → Live ex.graph route st₀.completed n)
  (hstuck : ∀ n ∈ ex.graph.nodeIds, st.completed n = false → n ∉ ex.graph.entryPoints ∧
    ((∃ e ∈ ex.graph.incomingEdges n, st.carries e = true) →
      ∃ p ∈ ex.graph.predecessors n, st.completed p = false))

include hc

theorem completed_of_done (n : NodeId) (h₀ : st₀.Initial) (hn : st₀.completed n = true) :
    st.completed n = true := by
  rw [h₀.outputs n] at hn
  obtain ⟨o, ho⟩ := Option.isSome_iff_exists.mp hn
  rw [hc.outputs n, hc.kept n o ho]
  rfl

include hroute hstuck

theorem live_completed (h₀ : st₀.Initial)
    (hpreds : ∀ n, Live ex.graph route st₀.completed n → n ∉ ex.graph.entryPoints →
      st₀.completed n = false → ∀ p ∈ ex.graph.predecessors n, Live ex.graph route st₀.completed p) :
    ∀ n ∈ ex.graph.nodeIds, Live ex.graph route st₀.completed n → st.completed n = true := by
  refine ex.ordered.induction _ fun n hn ih hl => ?_
  cases hdone : st.completed n with
  | true => rfl
  | false =>
    exfalso
    obtain ⟨hentry, hwait⟩ := hstuck n hn hdone
    have hopen : st₀.completed n = false := by
      cases h : st₀.completed n with
      | false => rfl
      | true =>
        rw [completed_of_done hc n h₀ h] at hdone
        cases hdone
    have hall : ∀ p ∈ ex.graph.predecessors n, st.completed p = true :=
      fun p hp => ih p hp (hpreds n hl hentry hopen p hp)
    have hpending : ∃ e ∈ ex.graph.incomingEdges n, st.carries e = true := by
      cases hl with
      | entry _ h => exact absurd h hentry
      | done _ h =>
        rw [h] at hopen
        cases hopen
      | edge e hsource he hf hr =>
        have hp : e.fromNode ∈ ex.graph.predecessors e.toNode :=
          (ex.graph.mem_predecessors _ _).mpr ⟨e, he, rfl, rfl, hf⟩
        exact ⟨e, (ex.graph.mem_incomingEdges _ e).mpr ⟨he, rfl⟩,
          (carries_route hc.outputs hroute e).mpr ⟨hall _ hp, hr⟩⟩
    obtain ⟨p, hp, hnot⟩ := hwait hpending
    rw [hall p hp] at hnot
    cases hnot

include hlive

theorem activated_iff (h₀ : st₀.Initial) :
    (∀ e ∈ ex.graph.edges, ex.graph.isForward e = true → st.completed e.fromNode = true →
        st.carries e = true → st.completed e.toNode = true) ↔
      ∀ n, Live ex.graph route st₀.completed n → n ∉ ex.graph.entryPoints →
        st₀.completed n = false →
          ∀ p ∈ ex.graph.predecessors n, Live ex.graph route st₀.completed p := by
  constructor
  · intro hall n hl hentry hopen p hp
    have hrun : ∀ m, Live ex.graph route st₀.completed m → m ∈ ex.graph.nodeIds →
        st.completed m = true := by
      intro m hm
      induction hm with
      | entry m h =>
        intro hmem
        cases hdone : st.completed m with
        | true => rfl
        | false => exact absurd h (hstuck m hmem hdone).1
      | done m h => exact fun _ => completed_of_done hc m h₀ h
      | edge e hsource he hf hr ih =>
        intro _
        have hdone := ih (ex.ordered.ends e he).1
        exact hall e he hf hdone ((carries_route hc.outputs hroute e).mpr ⟨hdone, hr⟩)
    have hn := hrun n hl (ex.ordered.predecessor_mem n p hp).2
    rcases hc.justified n (.inl hn) with h | h | ⟨_, h⟩
    · rw [h] at hopen
      cases hopen
    · exact absurd h hentry
    · exact hlive p (h p hp)
  · intro hpreds e he hf hdone hcarries
    obtain ⟨_, hr⟩ := (carries_route hc.outputs hroute e).mp hcarries
    exact live_completed hc hroute hstuck h₀ hpreds e.toNode (ex.ordered.ends e he).2
      (.edge e (hlive _ hdone) he hf hr)

end Final

/-- At the end of a run without errors and suspensions, every activated node has completed if and
only if the predecessors of every live node are live (entry points and nodes done before apart). -/
theorem activated_nodes_complete_iff (ex : Executor) (tid : TraceId) (st₀ : TraceState)
    (h₀ : st₀.Initial) (arena : Table RelPtr Bytes) (wal : List WalRecord)
    (route : NodeId → Option String) (hroute₀ : ∀ n o, st₀.outputs n = some o → o.port = route n)
    (hback : BackEdgesLive ex.graph route st₀.completed) (actions : List Action)
    (hrouted : ∀ a ∈ actions, Routed route a) (s : ExecState)
    (hrun : ex.run tid (ExecState.start st₀ arena wal) actions = some s)
    (hfinal : s.phase = .finalizing) :
    (∃ st, s.trace = some st ∧ ∀ e ∈ ex.graph.edges, ex.graph.isForward e = true →
        st.completed e.fromNode = true → st.carries e = true → st.completed e.toNode = true) ↔
      ∀ n, Live ex.graph route st₀.completed n → n ∉ ex.graph.entryPoints →
        st₀.completed n = false →
          ∀ p ∈ ex.graph.predecessors n, Live ex.graph route st₀.completed p := by
  have honRoute : ex.OnRoute route st₀ s :=
    run_invariant_of (Routed route) (ex.OnRoute route st₀)
      (fun _ a _ ha h hs => h.step hback a ha hs) actions hrouted
      (onRoute_start h₀ hroute₀ arena wal) hrun
  obtain ⟨st, ht, hc, hstuck⟩ := honRoute.consistent.final hfinal
  have hiff := activated_iff hc (honRoute.outputs st ht) (fun n hn => honRoute.live st ht n (.inl hn))
    hstuck h₀
  rw [← hiff]
  constructor
  · intro h
    obtain ⟨st', ht', hall⟩ := h
    have hst : st' = st := Option.some.inj (ht'.symm.trans ht)
    rwa [hst] at hall
  · exact fun h => ⟨st, ht, h⟩

def isFinalizing (s : ExecState) : Bool :=
  match s.phase with
  | .finalizing => true
  | _ => false

theorem phase_of_isFinalizing (h : isFinalizing s = true) : s.phase = .finalizing := by
  unfold isFinalizing at h
  cases hp : s.phase with
  | finalizing => rfl
  | _ => simp [hp] at h

def lineRounds : List Action :=
  runNode 0 (.complete "out" ⟨64, 4⟩ 0) ++ runNode 1 (.complete "out" ⟨72, 4⟩ 0) ++
    [.findReady, .spawnDone]

theorem lineExecutor_completes :
    ∃ s, lineExecutor.run sampleTrace
        (ExecState.start (.new sampleTrace "webhook" RelPtr.null) Table.empty []) lineRounds = some s ∧
      s.phase = .finalizing ∧
      ∃ st, s.trace = some st ∧ ∀ e ∈ lineGraph.edges, lineGraph.isForward e = true →
        st.completed e.fromNode = true → st.carries e = true → st.completed e.toNode = true := by
  have hend : (lineExecutor.run sampleTrace
      (ExecState.start (.new sampleTrace "webhook" RelPtr.null) Table.empty []) lineRounds).any
        isFinalizing = true := by decide
  obtain ⟨s, hs, hp⟩ := (Option.any_eq_true _ _).mp hend
  have hfinal := phase_of_isFinalizing hp
  refine ⟨s, hs, hfinal, ?_⟩
  refine (activated_nodes_complete_iff lineExecutor sampleTrace _
    (TraceState.initial_new _ _ _) _ _ (fun _ => some "out") nofun ?_ lineRounds ?_ s hs hfinal).mpr ?_
  · intro e he hf
    have hall : ∀ e ∈ lineGraph.edges, lineGraph.isForward e = true := by decide
    have htrue := hall e he
    rw [show lineGraph.isForward e = false from hf] at htrue
    cases htrue
  · simp [lineRounds, runNode, Routed, NodeOutput.isSuspended, NodeOutput.port]
  · intro n _ _ _ p hp
    obtain ⟨e, he, _, hfrom, _⟩ := (lineGraph.mem_predecessors n p).mp hp
    have hall : ∀ e ∈ lineGraph.edges, e.fromNode ∈ lineGraph.entryPoints := by decide
    exact .entry p (hfrom ▸ hall e he)

/-- A switch with two branches that meet again in a merge. -/
def diamondGraph : FlowGraph :=
  let nodes := ((((FlowGraph.new.addNode (.new 0 "trigger::webhook")).addNode
    (.new 1 "std::switch")).addNode (.new 2 "std::log")).addNode (.new 3 "std::log")).addNode
      (.new 4 "std::merge")
  ((((nodes.addEdge ⟨0, "out", 1, "in"⟩).addEdge ⟨1, "true", 2, "in"⟩).addEdge
    ⟨1, "false", 3, "in"⟩).addEdge ⟨2, "out", 4, "in"⟩).addEdge ⟨3, "out", 4, "in"⟩

def diamondExecutor : Executor where
  graph := diamondGraph
  executionOrder := [0, 1, 2, 3, 4]
  nodes := fun _ => true
  maxConcurrentNodes := 16
  nodeTimeoutMs := 30000
  hasSuspensionStore := false
  accepted := ⟨diamondGraph.nodeIds, diamondGraph.nodeIds, by decide,
    diamondGraph.hashOrder_nodeIds (by decide), by decide⟩

/-- The switch takes its true branch; the trace is finalized with the merge activated by that branch
and never run. -/
theorem merge_behind_switch_is_skipped :
    ∃ s st, diamondExecutor.run sampleTrace
        (ExecState.start (.new sampleTrace "webhook" RelPtr.null) Table.empty [])
        (runNode 0 (.complete "out" ⟨64, 4⟩ 0) ++ runNode 1 (.complete "true" ⟨72, 4⟩ 0) ++
          runNode 2 (.complete "out" ⟨80, 4⟩ 0) ++ [.findReady, .spawnDone]) = some s ∧
      s.phase = .finalizing ∧ s.trace = some st ∧ st.completed 2 = true ∧
      st.carries ⟨2, "out", 4, "in"⟩ = true ∧ st.completed 4 = false := by
  have hend : (diamondExecutor.run sampleTrace
      (ExecState.start (.new sampleTrace "webhook" RelPtr.null) Table.empty [])
      (runNode 0 (.complete "out" ⟨64, 4⟩ 0) ++ runNode 1 (.complete "true" ⟨72, 4⟩ 0) ++
        runNode 2 (.complete "out" ⟨80, 4⟩ 0) ++ [.findReady, .spawnDone])).any (fun s =>
          isFinalizing s && s.trace.any fun st => st.completed 2 &&
            st.carries ⟨2, "out", 4, "in"⟩ && !st.completed 4) = true := by decide
  obtain ⟨s, hs, hend⟩ := (Option.any_eq_true _ _).mp hend
  rw [Bool.and_eq_true] at hend
  obtain ⟨st, ht, hst⟩ := (Option.any_eq_true _ _).mp hend.2
  simp only [Bool.and_eq_true, Bool.not_eq_true'] at hst
  exact ⟨s, st, hs, phase_of_isFinalizing hend.1, ht, hst.1.1, hst.1.2, hst.2⟩

end Executor

end Xerv
