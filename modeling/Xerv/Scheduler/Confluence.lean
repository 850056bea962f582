import Xerv.Lib.Dataflow
import Xerv.Loader.Builder
import Xerv.Scheduler.Activation

/-!
# Schedules and outcomes

With nodes that compute functions of the contents of their inputs, a flow graph is a
dataflow net and `execute_trace` produces a history of it. A loop back-edge is read by
`collect_inputs` like any other edge, but `is_node_ready` does not wait for its source,
so the inputs of its target can depend on the order in which tasks finish. On settled
graphs they do not, and every execution ends with the same outputs.
-/

namespace Xerv
open Xerv.Lib

def Edge.link (e : Edge) : Link NodeId String := ⟨e.fromNode, e.fromPort, e.toPort⟩

/-- The net that `is_node_ready` and `collect_inputs` see. -/
def FlowGraph.net (g : FlowGraph) : Net NodeId String where
  nodes := g.nodeIds
  entry := g.entryPoints
  links n := (g.incomingEdges n).map Edge.link
  awaits := g.predecessors

/-! ### Contents -/

/-- What a pointer refers to; the null pointer refers to nothing. -/
def load (arena : Table RelPtr Bytes) (ptr : RelPtr) : Option Bytes :=
  if ptr = RelPtr.null then none else arena ptr

def resolved (arena : Table RelPtr Bytes) (ptr : RelPtr) : Bool :=
  ptr = RelPtr.null || (arena ptr).isSome

def contents (arena : Table RelPtr Bytes) (inputs : Table String RelPtr) :
    Table String (Option Bytes) := inputs.mapValues (load arena)

/-- What each node computes: port and contents of the output. -/
abbrev NodeFunctions := NodeId → Table String (Option Bytes) → String × Option Bytes

def answers (arena : Table RelPtr Bytes) (st : TraceState) : Table NodeId (String × Option Bytes) :=
  fun n =>
    match st.outputs n with
    | some (.complete port data _) => some (port, load arena data)
    | _ => none

def entryInputs (input : Option Bytes) : Table String (Option Bytes) := Table.empty.insert "in" input

theorem load_insert (arena : Table RelPtr Bytes) (ptr new : RelPtr) (data : Bytes)
    (h : resolved arena ptr = true) (hnew : arena new = none) :
    load (arena.insert new data) ptr = load arena ptr := by
  unfold load
  by_cases hnull : ptr = RelPtr.null
  · rw [if_pos hnull, if_pos hnull]
  · rw [if_neg hnull, if_neg hnull]
    refine Table.insert_ne _ _ fun heq => ?_
    simp [resolved, heq, hnew] at h
    exact hnull (heq.trans h)

theorem resolved_insert (arena : Table RelPtr Bytes) (ptr new : RelPtr) (data : Bytes)
    (h : resolved arena ptr = true) : resolved (arena.insert new data) ptr = true := by
  unfold resolved at h ⊢
  by_cases heq : ptr = new
  · subst heq
    simp
  · rw [Table.insert_ne _ _ heq]
    exact h

/-- Every output is a `Complete` whose data can be read. -/
def AllComplete (arena : Table RelPtr Bytes) (st : TraceState) : Prop :=
  ∀ n o, st.outputs n = some o → ∃ port data hash, o = .complete port data hash ∧
    resolved arena data = true

theorem answers_of_output (arena : Table RelPtr Bytes) (st : TraceState) (n : NodeId) (port : String)
    (data : RelPtr) (hash : UInt64) (h : st.outputs n = some (.complete port data hash)) :
    answers arena st n = some (port, load arena data) := by
  unfold answers
  rw [h]

theorem answers_none (arena : Table RelPtr Bytes) (st : TraceState) (n : NodeId)
    (h : st.outputs n = none) : answers arena st n = none := by
  unfold answers
  rw [h]

theorem answers_isSome {arena : Table RelPtr Bytes} {st : TraceState}
    (hout : ∀ n, st.completed n = (st.outputs n).isSome) (h : AllComplete arena st) (n : NodeId) :
    (answers arena st n).isSome = st.completed n := by
  rw [hout n]
  cases ho : st.outputs n with
  | none => rw [answers_none arena st n ho]; rfl
  | some o =>
    obtain ⟨port, data, hash, rfl, _⟩ := h n o ho
    rw [answers_of_output arena st n port data hash ho]
    rfl

theorem answers_insert {arena : Table RelPtr Bytes} {st : TraceState} (h : AllComplete arena st)
    (new : RelPtr) (data : Bytes) (hnew : arena new = none) :
    answers (arena.insert new data) st = answers arena st := by
  funext n
  cases ho : st.outputs n with
  | none => rw [answers_none _ st n ho, answers_none _ st n ho]
  | some o =>
    obtain ⟨port, ptr, hash, rfl, hptr⟩ := h n o ho
    rw [answers_of_output _ st n port ptr hash ho, answers_of_output _ st n port ptr hash ho,
      load_insert arena ptr new data hptr hnew]

theorem answers_record (arena : Table RelPtr Bytes) (st : TraceState) (n : NodeId) (port : String)
    (data : RelPtr) (hash : UInt64) :
    answers arena (st.recordOutput n (.complete port data hash)) =
      (answers arena st).insert n (port, load arena data) := by
  funext m
  by_cases hm : m = n
  · subst hm
    rw [Table.insert_self]
    exact answers_of_output _ _ _ port data hash (Table.insert_self _ _ _)
  · rw [Table.insert_ne _ _ hm]
    unfold answers
    rw [show (st.recordOutput n (.complete port data hash)).outputs m = st.outputs m from
      Table.insert_ne _ _ hm]

/-! ### `collect_inputs` reads the net -/

theorem contents_insert (arena : Table RelPtr Bytes) (inputs : Table String RelPtr) (k : String)
    (ptr : RelPtr) : contents arena (inputs.insert k ptr) =
      (contents arena inputs).insert k (load arena ptr) := by
  funext j
  unfold contents
  by_cases h : j = k
  · subst h
    simp
  · simp [h]

theorem contents_collectEdge {arena : Table RelPtr Bytes} {st : TraceState}
    (hout : ∀ n, st.completed n = (st.outputs n).isSome) (h : AllComplete arena st)
    (inputs : Table String RelPtr) (e : Edge) :
    contents arena (st.collectEdge inputs e) =
      putLink (Net.linkValue (answers arena st) st.completed) (contents arena inputs) e.link := by
  unfold TraceState.collectEdge
  cases ho : st.outputs e.fromNode with
  | none =>
    rw [putLink_none]
    unfold Net.linkValue Edge.link
    rw [answers_none arena st _ ho]
  | some o =>
    obtain ⟨port, data, hash, rfl, _⟩ := h _ o ho
    have hans := answers_of_output arena st e.fromNode port data hash ho
    have hdone : st.completed e.fromNode = true := by rw [hout, ho]; rfl
    by_cases hport : port = e.fromPort
    · have hvalue : Net.linkValue (answers arena st) st.completed e.link =
          some (load arena data) := by
        simp [Net.linkValue, Edge.link, hans, hdone, hport]
      have hmatch : (NodeOutput.complete port data hash).matchesPort e.fromPort = true := by
        simp [NodeOutput.matchesPort, NodeOutput.port, hport]
      dsimp only
      rw [if_pos hmatch, contents_insert]
      unfold putLink
      rw [hvalue]
      rfl
    · have hvalue : Net.linkValue (answers arena st) st.completed e.link = none := by
        simp [Net.linkValue, Edge.link, hans, hport]
      have hmatch : ¬ (NodeOutput.complete port data hash).matchesPort e.fromPort = true := by
        simp [NodeOutput.matchesPort, NodeOutput.port, hport]
      dsimp only
      rw [if_neg hmatch, putLink_none _ _ _ hvalue]

theorem contents_collectInputs {arena : Table RelPtr Bytes} {st : TraceState}
    (hout : ∀ n, st.completed n = (st.outputs n).isSome) (h : AllComplete arena st)
    (g : FlowGraph) (n : NodeId) :
    contents arena (st.collectInputs n g) =
      g.net.inputs (entryInputs (load arena st.initialInput)) (answers arena st) st.completed n := by
  have hfold (es : List Edge) (inputs : Table String RelPtr) :
      contents arena (es.foldl st.collectEdge inputs) =
        (es.map Edge.link).foldl (putLink (Net.linkValue (answers arena st) st.completed))
          (contents arena inputs) := by
    induction es generalizing inputs with
    | nil => rfl
    | cons e es ih => rw [List.foldl_cons, ih, contents_collectEdge hout h]; rfl
  unfold TraceState.collectInputs Net.inputs
  by_cases hentry : n ∈ g.entryPoints
  · have hc : g.entryPoints.contains n = true := by simpa using hentry
    rw [if_pos hc, contents_insert]
    exact (if_pos hentry).symm
  · have hc : ¬ g.entryPoints.contains n = true := by simpa using hentry
    rw [if_neg hc, hfold]
    exact (if_neg hentry).symm

theorem collectInputs_resolved {arena : Table RelPtr Bytes} {st : TraceState}
    (h : AllComplete arena st) (hin : resolved arena st.initialInput = true) (g : FlowGraph)
    (n : NodeId) (k : String) (ptr : RelPtr) (hk : st.collectInputs n g k = some ptr) :
    resolved arena ptr = true := by
  have hfold (es : List Edge) (inputs : Table String RelPtr)
      (hinputs : ∀ k ptr, inputs k = some ptr → resolved arena ptr = true) :
      ∀ k ptr, es.foldl st.collectEdge inputs k = some ptr → resolved arena ptr = true := by
    induction es generalizing inputs with
    | nil => exact hinputs
    | cons e es ih =>
      refine ih _ fun k ptr hk => ?_
      unfold TraceState.collectEdge at hk
      cases ho : st.outputs e.fromNode with
      | none =>
        rw [ho] at hk
        exact hinputs k ptr hk
      | some o =>
        obtain ⟨port, data, hash, rfl, hdata⟩ := h _ o ho
        rw [ho] at hk
        dsimp only at hk
        split at hk
        · by_cases hslot : k = e.toPort
          · subst hslot
            rw [Table.insert_self] at hk
            cases hk
            exact hdata
          · rw [Table.insert_ne _ _ hslot] at hk
            exact hinputs k ptr hk
        · exact hinputs k ptr hk
  unfold TraceState.collectInputs at hk
  split at hk
  · by_cases hslot : k = "in"
    · subst hslot
      rw [Table.insert_self] at hk
      cases hk
      exact hin
    · rw [Table.insert_ne _ _ hslot] at hk
      cases hk
  · exact hfold _ _ (fun _ _ hnone => by simp at hnone) k ptr hk

/-! ### Runs that compute -/

def Phase.pending : Phase → List NodeId
  | .spawning ready => ready
  | _ => []

namespace Executor

/-- A task that finishes has put the contents its node computes into the arena. -/
def computes (f : NodeFunctions) (s : ExecState) : Action → Bool
  | .finish n behaviour _ walError =>
    match behaviour, walError with
    | .returns (.complete port data _), none => resolved s.arena data &&
        s.tasks.all fun t =>
          t.node ≠ n || f n (contents s.arena t.inputs) = (port, load s.arena data)
    | _, _ => false
  | _ => true

/-- `route` gives the ports of the outputs. -/
def Agrees (route : NodeId → String) (st : TraceState) : Prop :=
  ∀ n o, st.outputs n = some o → o.port = some (route n)

/-- Node `n` was started when the nodes of `done` had completed, with everything that was enabled
then. -/
structure Begun (ex : Executor) (route : NodeId → String) (s : ExecState) (st : TraceState)
    (pending : List NodeId) (n : NodeId) (done : Keys NodeId) : Prop where
  sub : ∀ m, done m = true → st.completed m = true
  start : ex.graph.net.Start route n done
  prompt : ∀ m ∈ ex.graph.nodeIds, ex.graph.net.Enabled route done m →
    s.spawned m = true ∨ st.completed m = true ∨ m ∈ pending

structure Tracked (ex : Executor) (f : NodeFunctions) (input : Option Bytes)
    (route : NodeId → String) (s : ExecState) (st : TraceState) : Prop where
  history : ex.graph.net.History f (entryInputs input) route (answers s.arena st)
  joined : ∀ n, st.completed n = true → ∃ done, ex.Begun route s st [] n done
  tasks : ∀ t ∈ s.tasks, ∃ done, ex.Begun route s st s.phase.pending t.node done ∧
    contents s.arena t.inputs =
      ex.graph.net.inputs (entryInputs input) (answers s.arena st) done t.node

structure Computing (ex : Executor) (f : NodeFunctions) (input : Option Bytes) (s : ExecState)
    (st : TraceState) : Prop where
  inputResolved : resolved s.arena st.initialInput = true
  inputLoaded : load s.arena st.initialInput = input
  complete : AllComplete s.arena st
  taskInputs : ∀ t ∈ s.tasks, ∀ k ptr, t.inputs k = some ptr → resolved s.arena ptr = true
  results : ∀ t ∈ s.tasks, ∀ r, t.status = .finished r → ∃ port data hash,
    r = .ok (.complete port data hash) ∧ resolved s.arena data = true ∧
      f t.node (contents s.arena t.inputs) = (port, load s.arena data)
  tracked : ∀ route, Agrees route st → ex.Tracked f input route s st

variable {ex : Executor} {tid : TraceId} {f : NodeFunctions} {input : Option Bytes}
  {st₀ st st' : TraceState} {s s' : ExecState} {route : NodeId → String}

theorem Begun.mono {pending pending' : List NodeId} {n : NodeId} {done : Keys NodeId}
    (h : ex.Begun route s st pending n done)
    (hspawned : ∀ m, s.spawned m = true → s'.spawned m = true)
    (hcompleted : ∀ m, st.completed m = true → st'.completed m = true)
    (hpending : ∀ m ∈ pending, s'.spawned m = true ∨ m ∈ pending') :
    ex.Begun route s' st' pending' n done := by
  refine ⟨fun m hm => hcompleted m (h.sub m hm), h.start, fun m hm hen => ?_⟩
  rcases h.prompt m hm hen with hm | hm | hm
  · exact .inl (hspawned m hm)
  · exact .inr (.inl (hcompleted m hm))
  · rcases hpending m hm with hm | hm
    · exact .inl hm
    · exact .inr (.inr hm)

theorem enabled_iff (hout : ∀ n, st.completed n = (st.outputs n).isSome) (hroute : Agrees route st)
    (g : FlowGraph) (n : NodeId) :
    g.net.Enabled route st.completed n ↔ n ∈ g.entryPoints ∨
      ((∃ e ∈ g.incomingEdges n, st.carries e = true) ∧
        ∀ p ∈ g.predecessors n, st.completed p = true) := by
  have hcarries (e : Edge) : st.carries e = true ↔
      st.completed e.fromNode = true ∧ route e.fromNode = e.fromPort := by
    rw [carries_route hout hroute]
    simp
  unfold Net.Enabled
  constructor
  · intro h
    rcases h with h | ⟨⟨l, hl, hdone, hport⟩, hwait⟩
    · exact .inl h
    · obtain ⟨e, he, rfl⟩ := List.mem_map.mp hl
      exact .inr ⟨⟨e, he, (hcarries e).mpr ⟨hdone, hport⟩⟩, hwait⟩
  · intro h
    rcases h with h | ⟨⟨e, he, hc⟩, hwait⟩
    · exact .inl h
    · obtain ⟨hdone, hport⟩ := (hcarries e).mp hc
      exact .inr ⟨⟨e.link, List.mem_map_of_mem he, hdone, hport⟩, hwait⟩

theorem Computing.keep (h : ex.Computing f input s st) (harena : s'.arena = s.arena)
    (hspawned : ∀ m, s.spawned m = true → s'.spawned m = true)
    (hpending : s'.tasks ≠ [] → ∀ m ∈ s.phase.pending, s'.spawned m = true ∨ m ∈ s'.phase.pending)
    (htasks : ∀ t ∈ s'.tasks, ∃ x ∈ s.tasks, t.node = x.node ∧ t.inputs = x.inputs)
    (hresults : ∀ t ∈ s'.tasks, ∀ r, t.status = .finished r → ∃ port data hash,
      r = .ok (.complete port data hash) ∧ resolved s.arena data = true ∧
        f t.node (contents s.arena t.inputs) = (port, load s.arena data)) :
    ex.Computing f input s' st := by
  refine ⟨?_, ?_, ?_, ?_, ?_, fun route hroute => ⟨?_, fun n hn => ?_, fun t ht => ?_⟩⟩
  · rw [harena]
    exact h.inputResolved
  · rw [harena]
    exact h.inputLoaded
  · rw [harena]
    exact h.complete
  · intro t ht k ptr hk
    obtain ⟨x, hx, _, hinputs⟩ := htasks t ht
    rw [harena]
    exact h.taskInputs x hx k ptr (hinputs ▸ hk)
  · rw [harena]
    exact hresults
  · rw [harena]
    exact (h.tracked route hroute).history
  · obtain ⟨done, hbegun⟩ := (h.tracked route hroute).joined n hn
    exact ⟨done, hbegun.mono hspawned (fun _ hm => hm) nofun⟩
  · obtain ⟨x, hx, hnode, hinputs⟩ := htasks t ht
    obtain ⟨done, hbegun, hcontents⟩ := (h.tracked route hroute).tasks x hx
    refine ⟨done, ?_, ?_⟩
    · rw [hnode]
      exact hbegun.mono hspawned (fun _ hm => hm) (hpending (List.ne_nil_of_mem ht))
    · rw [harena, hnode, hinputs]
      exact hcontents

theorem Computing.fewer (h : ex.Computing f input s st) (harena : s'.arena = s.arena)
    (hspawned : ∀ m, s.spawned m = true → s'.spawned m = true) (htasks : s'.tasks ⊆ s.tasks)
    (hpending : s'.tasks ≠ [] → s.phase.pending ⊆ s'.phase.pending) : ex.Computing f input s' st := by
  refine h.keep harena hspawned ?_ ?_ fun t ht => h.results t (htasks ht)
  · exact fun hne m hm => .inr (hpending hne hm)
  · exact fun t ht => ⟨t, htasks ht, rfl, rfl⟩

theorem Computing.setStatus (h : ex.Computing f input s st) (n : NodeId) (status : TaskStatus)
    (wal : List WalRecord) (hresult : ∀ y ∈ s.tasks, y.node = n → ∀ r, status = .finished r →
      ∃ port data hash, r = .ok (.complete port data hash) ∧ resolved s.arena data = true ∧
        f y.node (contents s.arena y.inputs) = (port, load s.arena data)) :
    ex.Computing f input { s.setStatus n status with wal := wal } st := by
  refine h.keep rfl (fun _ hm => hm) (fun _ _ hm => .inr hm) (fun x hx => ?_) fun x hx r hr => ?_
  · rcases mem_setStatus _ _ x hx with hx | ⟨y, hy, _, rfl⟩
    · exact ⟨x, hx, rfl, rfl⟩
    · exact ⟨y, hy, rfl, rfl⟩
  · rcases mem_setStatus _ _ x hx with hx | ⟨y, hy, hyn, rfl⟩
    · exact h.results x hx r hr
    · exact hresult y hy hyn r hr

theorem Computing.write (h : ex.Computing f input s st) (ptr : RelPtr) (data : Bytes)
    (hfree : s.arena ptr = none) :
    ex.Computing f input { s with arena := s.arena.insert ptr data } st := by
  have hans := answers_insert h.complete ptr data hfree
  have hcontents : ∀ t ∈ s.tasks,
      contents (s.arena.insert ptr data) t.inputs = contents s.arena t.inputs := by
    intro t ht
    funext k
    unfold contents
    cases hk : t.inputs k with
    | none => simp [hk]
    | some p => simp [hk, load_insert s.arena p ptr data (h.taskInputs t ht k p hk) hfree]
  refine ⟨resolved_insert _ _ _ _ h.inputResolved, ?_, fun n o ho => ?_, fun t ht k p hk => ?_,
    fun t ht r hr => ?_, fun route hroute => ⟨?_, fun n hn => ?_, fun t ht => ?_⟩⟩
  · exact (load_insert _ _ _ _ h.inputResolved hfree).trans h.inputLoaded
  · obtain ⟨port, p, hash, heq, hp⟩ := h.complete n o ho
    exact ⟨port, p, hash, heq, resolved_insert _ _ _ _ hp⟩
  · exact resolved_insert _ _ _ _ (h.taskInputs t ht k p hk)
  · obtain ⟨port, p, hash, heq, hp, hf⟩ := h.results t ht r hr
    refine ⟨port, p, hash, heq, resolved_insert _ _ _ _ hp, ?_⟩
    rw [hcontents t ht, load_insert _ _ _ _ hp hfree]
    exact hf
  · rw [hans]
    exact (h.tracked route hroute).history
  · obtain ⟨done, hbegun⟩ := (h.tracked route hroute).joined n hn
    exact ⟨done, hbegun.sub, hbegun.start, hbegun.prompt⟩
  · obtain ⟨done, hbegun, heq⟩ := (h.tracked route hroute).tasks t ht
    refine ⟨done, ⟨hbegun.sub, hbegun.start, hbegun.prompt⟩, ?_⟩
    rw [hans, hcontents t ht]
    exact heq

theorem Computing.record (h : ex.Computing f input s st) (hc : ex.Coherent st₀ (s.tasks.map Task.node) st)
    (hmem : ∀ n ∈ s.tasks.map Task.node, n ∈ ex.graph.nodeIds) (t : Task) (ht : t ∈ s.tasks)
    (o : NodeOutput) (hf : t.status = .finished (.ok o)) (phase : Phase)
    (hold : s.phase.pending = []) (hnew : phase.pending = []) :
    ex.Computing f input { (s.joinTask t.node).record t.node o with phase := phase }
      (st.recordOutput t.node o) := by
  obtain ⟨port, data, hash, heq, hdata, hanswer⟩ := h.results t ht _ hf
  cases heq
  have hnode : t.node ∈ s.tasks.map Task.node := List.mem_map_of_mem ht
  have hnone := hc.outputs_none t.node (hc.taskOpen t.node hnode)
  have hcompleted (m : NodeId) (hm : st.completed m = true) :
      (st.recordOutput t.node (.complete port data hash)).completed m = true :=
    recordOutput_completed st t.node m _ hm
  refine ⟨h.inputResolved, h.inputLoaded, fun n o ho => ?_, fun x hx => ?_, fun x hx => ?_,
    fun route hroute => ?_⟩
  · have ho' : (st.outputs.insert t.node (.complete port data hash)) n = some o := ho
    by_cases hn : n = t.node
    · subst hn
      rw [Table.insert_self] at ho'
      cases ho'
      exact ⟨port, data, hash, rfl, hdata⟩
    · rw [Table.insert_ne _ _ hn] at ho'
      exact h.complete n o ho'
  · exact h.taskInputs x (List.mem_filter.mp hx).1
  · exact h.results x (List.mem_filter.mp hx).1
  · -- a route of the new state is one of the old state
    have hroute' : Agrees route st := fun n o ho =>
      hroute n o (recordOutput_outputs st t.node n _ o hnone ho)
    have hport : port = route t.node := by
      have := hroute t.node _ (Table.insert_self st.outputs t.node _)
      exact Option.some.inj this
    have htracked := h.tracked route hroute'
    obtain ⟨done, hbegun, hinputs⟩ := htracked.tasks t ht
    have hsub : ∀ m, done m = true → (answers s.arena st m).isSome = true := by
      intro m hm
      rw [answers_isSome hc.outputs h.complete]
      exact hbegun.sub m hm
    have hvalue : f t.node (ex.graph.net.inputs (entryInputs input) (answers s.arena st) done
        t.node) = (port, load s.arena data) := by rw [← hinputs]; exact hanswer
    have hans : answers s.arena (st.recordOutput t.node (.complete port data hash)) =
        (answers s.arena st).insert t.node (port, load s.arena data) :=
      answers_record s.arena st t.node port data hash
    have hnew' : answers s.arena st t.node = none := answers_none _ _ _ hnone
    refine ⟨?_, fun n hn => ?_, fun x hx => ?_⟩
    · show ex.graph.net.History f _ route (answers s.arena _)
      rw [hans, ← hvalue]
      refine .answer _ t.node done htracked.history (hmem t.node hnode) hnew' hsub hbegun.start ?_
      rw [hvalue]
      exact hport
    · rcases (Keys.insert_true_iff _ _ _).mp hn with heq | hn
      · subst heq
        rw [hold] at hbegun
        exact ⟨done, hbegun.mono (fun _ hm => hm) hcompleted nofun⟩
      · obtain ⟨done', hbegun'⟩ := htracked.joined n hn
        exact ⟨done', hbegun'.mono (fun _ hm => hm) hcompleted nofun⟩
    · obtain ⟨hx', _⟩ := List.mem_filter.mp hx
      obtain ⟨done', hbegun', heq⟩ := htracked.tasks x hx'
      rw [hold] at hbegun'
      refine ⟨done', ?_, ?_⟩
      · show ex.Begun route _ _ phase.pending x.node done'
        rw [hnew]
        exact hbegun'.mono (fun _ hm => hm) hcompleted nofun
      · show contents s.arena x.inputs = ex.graph.net.inputs _ (answers s.arena _) done' x.node
        rw [heq, hans]
        refine (Net.inputs_congr _ _ _ _ _ fun m hm => Table.insert_ne _ _ fun hmt => ?_).symm
        have hdone := hbegun'.sub m hm
        rw [hmt, hc.taskOpen t.node hnode] at hdone
        cases hdone

theorem answers_keys (hout : ∀ n, st.completed n = (st.outputs n).isSome)
    (h : AllComplete s.arena st) : (answers s.arena st).keys = st.completed :=
  funext fun n => answers_isSome hout h n

theorem isNodeReady_of_enabled (hout : ∀ n, st.completed n = (st.outputs n).isSome) (hroute : Agrees route st)
    {m : NodeId} (hen : ex.graph.net.Enabled route st.completed m) (hdone : st.completed m = false)
    (hidle : st.executing m = false) : st.isNodeReady m ex.graph = true := by
  by_cases hentry : m ∈ ex.graph.entryPoints
  · exact (st.isNodeReady_entry m ex.graph hentry).mpr ⟨hdone, hidle⟩
  · obtain ⟨hcar, hwait⟩ := ((enabled_iff hout hroute ex.graph m).mp hen).resolve_left hentry
    exact (st.isNodeReady_inner m ex.graph hentry).mpr ⟨hcar, hwait, hdone, hidle⟩

theorem begun_spawn (h : ex.Tracked f input route s st) (hc : ex.Consistent st₀ s)
    (hcomplete : AllComplete s.arena st) (hroute : Agrees route st) (n : NodeId)
    (rest : List NodeId) (hp : s.phase = .spawning (n :: rest)) (ht : s.trace = some st)
    (s' : ExecState) (hspawned : s'.spawned = s.spawned.insert n) (st' : TraceState)
    (hcompleted : st'.completed = st.completed) :
    ex.Begun route s' st' rest n st.completed := by
  have hco := hc.coherent st ht
  have hstart := hc.safe.startable hp ht
  obtain ⟨st₁, ht₁, hw⟩ := hc.watched (by rw [hp]; rfl)
  have hst : st₁ = st := Option.some.inj (ht₁.symm.trans ht)
  subst hst
  have hnodes : n ∈ ex.graph.nodeIds := (ex.ordered.mem n).mp hstart.listed
  have htaskSpawned (m : NodeId) (hm : m ∈ s.tasks.map Task.node) : s.spawned m = true :=
    hc.safe.startedSpawned m (hc.safe.taskStarted m hm)
  have hfresh : ¬ s.spawned n = true := by
    intro hsp
    rcases hw.spawned n hsp with hm | hm
    · exact hstart.new (hc.safe.taskStarted n hm)
    · rw [hstart.open_] at hm
      cases hm
  refine ⟨fun m hm => hcompleted ▸ hm, ⟨?_, hstart.open_, ?_, fun m hm => ?_⟩, fun m hm hen => ?_⟩
  · rw [← answers_keys hco.outputs hcomplete]
    exact h.history.stage
  · rw [enabled_iff hco.outputs hroute]
    by_cases hentry : n ∈ ex.graph.entryPoints
    · exact .inl hentry
    · exact .inr ⟨hstart.activated hentry, hstart.waited hentry⟩
  · obtain ⟨before, hbegun⟩ := h.joined m hm
    refine ⟨before, hbegun.sub, hbegun.start.stage, hbegun.start.new, hbegun.start.enabled, ?_⟩
    intro hen
    rcases hbegun.prompt n hnodes hen with hn | hn | hn
    · exact hfresh hn
    · rw [hstart.open_] at hn
      cases hn
    · exact absurd hn List.not_mem_nil
  · rw [hspawned, hcompleted, Keys.insert_true_iff]
    cases hsp : s.spawned m with
    | true => exact .inl (.inr rfl)
    | false =>
      cases hdone : st₁.completed m with
      | true => exact .inr (.inl rfl)
      | false =>
        -- an enabled node that is neither spawned nor done is in the ready list
        have hidle : st₁.executing m = false := by
          cases hex : st₁.executing m with
          | false => rfl
          | true =>
            rw [htaskSpawned m (hw.executing m hex)] at hsp
            cases hsp
        have hready := isNodeReady_of_enabled hco.outputs hroute hen hdone hidle
        have hlisted := (ex.ordered.mem m).mpr hm
        rcases List.mem_cons.mp (hw.ready _ hp m hlisted hsp hready) with hmn | hmem
        · exact .inl (.inl hmn)
        · exact .inr (.inr hmem)

theorem Computing.spawn (h : ex.Computing f input s st) (hc : ex.Consistent st₀ s) (n : NodeId)
    (rest : List NodeId) (hp : s.phase = .spawning (n :: rest)) (ht : s.trace = some st) :
    ex.Computing f input
      { s with
        spawned := s.spawned.insert n
        trace := some (st.markExecuting n)
        tasks := s.tasks ++ [⟨n, st.collectInputs n ex.graph, .queued⟩]
        phase := .spawning rest
        started := s.started ++ [n] } (st.markExecuting n) := by
  have hco := hc.coherent st ht
  have hspawned (m : NodeId) (hm : s.spawned m = true) : s.spawned.insert n m = true :=
    (Keys.insert_true_iff _ _ _).mpr (.inr hm)
  refine ⟨h.inputResolved, h.inputLoaded, h.complete, fun t htask => ?_, fun t htask r hr => ?_,
    fun route hroute => ?_⟩
  · rcases List.mem_append.mp htask with htask | htask
    · exact h.taskInputs t htask
    · rw [List.mem_singleton.mp htask]
      exact fun k ptr hk => collectInputs_resolved h.complete h.inputResolved ex.graph n k ptr hk
  · rcases List.mem_append.mp htask with htask | htask
    · exact h.results t htask r hr
    · rw [List.mem_singleton.mp htask] at hr
      cases hr
  · have htracked := h.tracked route hroute
    refine ⟨htracked.history, fun m hm => ?_, fun t htask => ?_⟩
    · obtain ⟨done, hbegun⟩ := htracked.joined m hm
      exact ⟨done, hbegun.mono hspawned (fun _ hk => hk) nofun⟩
    · rcases List.mem_append.mp htask with htask | htask
      · obtain ⟨done, hbegun, heq⟩ := htracked.tasks t htask
        refine ⟨done, hbegun.mono hspawned (fun _ hk => hk) fun m hm => ?_, heq⟩
        rw [hp] at hm
        rcases List.mem_cons.mp hm with hmn | hm
        · exact .inl ((Keys.insert_true_iff _ _ _).mpr (.inl hmn))
        · exact .inr hm
      · rw [List.mem_singleton.mp htask]
        refine ⟨st.completed, ?_, ?_⟩
        · exact begun_spawn htracked hc h.complete hroute n rest hp ht _ rfl _ rfl
        · have heq := contents_collectInputs hco.outputs h.complete ex.graph n
          rw [h.inputLoaded] at heq
          exact heq

/-! ### Runs -/

structure Follows (ex : Executor) (f : NodeFunctions) (input : Option Bytes) (st₀ : TraceState)
    (s : ExecState) : Prop where
  consistent : ex.Consistent st₀ s
  computing : ∀ st, s.trace = some st → ex.Computing f input s st

theorem follows_start (ex : Executor) (f : NodeFunctions) (tid : TraceId) (trigger : String)
    (ptr : RelPtr) (arena : Table RelPtr Bytes) (wal : List WalRecord)
    (hin : resolved arena ptr = true) :
    ex.Follows f (load arena ptr) (.new tid trigger ptr)
      (ExecState.start (.new tid trigger ptr) arena wal) where
  consistent := consistent_start ex _ (TraceState.initial_new _ _ _) arena wal
  computing st ht := by
    cases ht
    refine ⟨hin, rfl, nofun, nofun, nofun, fun route _ => ⟨?_, nofun, nofun⟩⟩
    exact .start

theorem Follows.step (a : Action) (hok : computes f s a = true) (h : ex.Follows f input st₀ s)
    (hs : ex.Step tid s a s') : ex.Follows f input st₀ s' := by
  have hnodes : ∀ n ∈ s.tasks.map Task.node, n ∈ ex.graph.nodeIds := fun n hn =>
    (ex.ordered.mem n).mp (h.consistent.safe.startedListed n (h.consistent.safe.taskStarted n hn))
  refine ⟨h.consistent.step a hs, ?_⟩
  cases hs with
  | ready st hp ht =>
    intro st' ht'
    refine (h.computing st' ht').fewer rfl (fun _ hm => hm) (List.Subset.refl _) fun _ => ?_
    rw [hp]
    exact List.nil_subset _
  | spawn n rest st hp ht hn =>
    intro st' ht'
    cases ht'
    exact (h.computing st ht).spawn h.consistent n rest hp ht
  | spawnDone hp =>
    intro st' ht'
    refine (h.computing st' ht').fewer rfl (fun _ hm => hm) (List.Subset.refl _) fun _ => ?_
    rw [hp]
    exact List.nil_subset _
  | acquire t ht hq hfree =>
    intro st' ht'
    exact (h.computing st' ht').setStatus t.node .running s.wal fun y _ _ r hr => by cases hr
  | arenaWrite t ptr data ht hr hfree =>
    intro st' ht'
    exact (h.computing st' ht').write ptr data hfree
  | finish t behaviour now walError ht hr =>
    intro st' ht'
    unfold computes at hok
    dsimp only at hok
    split at hok
    · rename_i port data hash
      rw [finishTask_returns] at ht' ⊢
      rw [Bool.and_eq_true, List.all_eq_true] at hok
      refine (h.computing st' ht').setStatus _ _ _ fun y hy hyn r hr => ?_
      cases hr
      have hvalue := hok.2 y hy
      rw [hyn] at hvalue
      refine ⟨port, data, hash, rfl, hok.1, ?_⟩
      simpa [hyn] using hvalue
    · cases hok
  | join t output hp ht hf hs =>
    intro st' ht'
    obtain ⟨st, htrace, rfl⟩ := Option.map_eq_some_iff.mp ht'
    exact (h.computing st htrace).record (h.consistent.coherent st htrace) hnodes t ht output hf _
      (by rw [hp]; rfl) rfl
  | joinSuspend t output hp ht hf hs =>
    intro st' ht'
    refine (h.computing st' ht').fewer rfl (fun _ hm => hm) (List.filter_subset_self _) fun _ => ?_
    rw [hp]
    exact List.nil_subset _
  | drain t output n hp ht hf hs =>
    intro st' ht'
    obtain ⟨st, htrace, rfl⟩ := Option.map_eq_some_iff.mp ht'
    have hpending : s.phase.pending = [] := by rw [hp]; rfl
    exact (h.computing st htrace).record (h.consistent.coherent st htrace) hnodes t ht output hf
      s.phase hpending hpending
  | drainSkip t r n hp ht hf hr =>
    intro st' ht'
    exact (h.computing st' ht').fewer rfl (fun _ hm => hm) (List.filter_subset_self _) fun _ =>
      List.Subset.refl _
  | suspend n metadata now hp htasks => exact nofun
  | finalize now hp => exact nofun
  | stop _ _ e hp htasks hphase htrace hwal harena hstarted hspawned hjoined =>
    intro st' ht'
    rcases htrace with htrace | htrace
    · refine (h.computing st' (htrace.symm.trans ht')).fewer harena hspawned ?_ fun hne => absurd htasks hne
      rw [htasks]
      exact List.nil_subset _
    · rw [htrace] at ht'
      cases ht'
  | otherRecord r hr =>
    intro st' ht'
    exact (h.computing st' ht').fewer rfl (fun _ hm => hm) (List.Subset.refl _) fun _ => List.Subset.refl _

theorem Follows.final (h : ex.Follows f input st₀ s) (hp : s.phase = .finalizing) :
    ∃ st, s.trace = some st ∧ (∀ n, (answers s.arena st n).isSome = st.completed n) ∧
      ∃ route, (∀ n, ∃ inputs, (f n inputs).1 = route n) ∧
        ex.graph.net.History f (entryInputs input) route (answers s.arena st) ∧
        ex.graph.net.Closed route (answers s.arena st) := by
  obtain ⟨st, ht, hco, hstuck⟩ := h.consistent.final hp
  have hc := h.computing st ht
  have hsome := answers_isSome hco.outputs hc.complete
  -- nodes that never ran may be given any port they could answer on
  let route : NodeId → String := fun n => ((answers s.arena st n).getD (f n Table.empty)).1
  have hroute : Agrees route st := by
    intro n o ho
    obtain ⟨port, data, hash, rfl, _⟩ := hc.complete n o ho
    show some port = some ((answers s.arena st n).getD (f n Table.empty)).1
    rw [answers_of_output s.arena st n port data hash ho]
    rfl
  have hhistory := (hc.tracked route hroute).history
  refine ⟨st, ht, hsome, route, fun n => ?_, hhistory, fun n hn hen => ?_⟩
  · cases ha : answers s.arena st n with
    | none =>
      refine ⟨Table.empty, ?_⟩
      show _ = ((answers s.arena st n).getD (f n Table.empty)).1
      rw [ha]
      rfl
    | some a =>
      obtain ⟨done, _, _, heq, hport⟩ := hhistory.computed n a ha
      exact ⟨_, heq ▸ hport⟩
  · rw [hsome n]
    cases hdone : st.completed n with
    | true => rfl
    | false =>
      obtain ⟨hentry, hwait⟩ := hstuck n hn hdone
      rw [answers_keys hco.outputs hc.complete, enabled_iff hco.outputs hroute] at hen
      rcases hen with hen | ⟨hcarries, hpreds⟩
      · exact absurd hen hentry
      · obtain ⟨p, hp', hopen⟩ := hwait hcarries
        rw [hpreds p hp'] at hopen
        cases hopen

/-- Any two executions on the graph with nodes that compute `f` from the same input contents end with
the same completed nodes, output ports and output contents, whatever the execution orders, the
concurrency limits and the interleavings. -/
def SchedulesAgree (g : FlowGraph) (f : NodeFunctions) : Prop :=
  ∀ (ex ex' : Executor) (tid tid' : TraceId) (trigger trigger' : String) (ptr ptr' : RelPtr)
    (arena arena' : Table RelPtr Bytes) (wal wal' : List WalRecord) (actions actions' : List Action)
    (s s' : ExecState), ex.graph = g → ex'.graph = g → resolved arena ptr = true →
    resolved arena' ptr' = true → load arena' ptr' = load arena ptr →
    ex.runIf tid (computes f) (.start (.new tid trigger ptr) arena wal) actions = some s →
    ex'.runIf tid' (computes f) (.start (.new tid' trigger' ptr') arena' wal') actions' = some s' →
    s.phase = .finalizing → s'.phase = .finalizing →
      ∃ st st', s.trace = some st ∧ s'.trace = some st' ∧
        (∀ n, st.completed n = st'.completed n) ∧
        ∀ n, st.completed n = true →
          ∃ answer, answers s.arena st n = some answer ∧ answers s'.arena st' n = some answer

theorem agree_of_settled (g : FlowGraph) (f : NodeFunctions) (hsettled : g.net.Settled f) :
    SchedulesAgree g f := by
  intro ex ex' tid tid' trigger trigger' ptr ptr' arena arena' wal wal' actions actions' s s' hgraph
    hgraph' hin hin' hinput hrun hrun' hend hend'
  have hfollows := runIf_invariant (computes f) (ex.Follows f (load arena ptr) (.new tid trigger ptr))
    (fun _ a _ hok h hs => h.step a hok hs) actions
    (follows_start ex f tid trigger ptr arena wal hin) hrun
  have hfollows' := runIf_invariant (computes f)
    (ex'.Follows f (load arena' ptr') (.new tid' trigger' ptr'))
    (fun _ a _ hok h hs => h.step a hok hs) actions'
    (follows_start ex' f tid' trigger' ptr' arena' wal' hin') hrun'
  obtain ⟨st, ht, hsome, route, hroute, hhistory, hclosed⟩ := hfollows.final hend
  obtain ⟨st', ht', hsome', route', hroute', hhistory', hclosed'⟩ := hfollows'.final hend'
  rw [hgraph] at hhistory hclosed
  rw [hgraph'] at hhistory' hclosed'
  rw [hinput] at hhistory'
  have hsame : answers s.arena st = answers s'.arena st' :=
    hhistory.unique hsettled hhistory' hclosed hclosed' hroute hroute'
  refine ⟨st, st', ht, ht', fun n => ?_, fun n hn => ?_⟩
  · rw [← hsome n, ← hsome' n, hsame]
  · rw [← hsome n] at hn
    obtain ⟨a, ha⟩ := Option.isSome_iff_exists.mp hn
    exact ⟨a, ha, hsame ▸ ha⟩

/-- On a graph that is settled for the functions of its nodes, two executions that compute them from
the same input contents end with the same completed nodes, output ports and output contents. -/
theorem schedules_agree (f : NodeFunctions) (ex ex' : Executor) (hgraph : ex'.graph = ex.graph)
    (hsettled : ex.graph.net.Settled f) (tid tid' : TraceId) (trigger trigger' : String)
    (ptr ptr' : RelPtr) (arena arena' : Table RelPtr Bytes) (wal wal' : List WalRecord)
    (hin : resolved arena ptr = true) (hin' : resolved arena' ptr' = true)
    (hinput : load arena' ptr' = load arena ptr) (actions actions' : List Action)
    (s s' : ExecState)
    (hrun : ex.runIf tid (computes f) (.start (.new tid trigger ptr) arena wal) actions = some s)
    (hrun' : ex'.runIf tid' (computes f) (.start (.new tid' trigger' ptr') arena' wal') actions' =
      some s')
    (hend : s.phase = .finalizing) (hend' : s'.phase = .finalizing) :
    ∃ st st', s.trace = some st ∧ s'.trace = some st' ∧
      (∀ n, st.completed n = st'.completed n) ∧
      ∀ n, st.completed n = true →
        ∃ answer, answers s.arena st n = some answer ∧ answers s'.arena st' n = some answer :=
  agree_of_settled ex.graph f hsettled ex ex' tid tid' trigger trigger' ptr ptr' arena arena' wal
    wal' actions actions' s s' rfl hgraph hin hin' hinput hrun hrun' hend hend'

/-! ### Two flows with a loop edge -/

/-- The task of a node runs, writes its contents and is joined. -/
def answerNode (n : NodeId) (port : String) (ptr : RelPtr) (data : Bytes) : List Action :=
  [.acquire n, .arenaWrite n ptr data, .finish n (.returns (.complete port ptr 0)) 0 none, .join n]

def startNodes (count : ℕ) : List Action := .findReady :: List.replicate count .spawnNext ++ [.spawnDone]

def builtGraph (flow : FlowDefinition) (order : List NodeId) : FlowGraph :=
  match FlowBuilder.build Char.isAlphanum flow order with
  | .ok g => g
  | .error _ => FlowGraph.new

theorem builtGraph_eq (flow : FlowDefinition) (order : List NodeId)
    (h : (FlowBuilder.build Char.isAlphanum flow order).toOption.isSome = true) :
    FlowBuilder.build Char.isAlphanum flow order = .ok (builtGraph flow order) := by
  unfold builtGraph
  cases hb : FlowBuilder.build Char.isAlphanum flow order with
  | error e =>
    rw [hb] at h
    cases h
  | ok g => rfl

def loopFlow : FlowDefinition where
  triggers := [⟨"webhook", "webhook", true⟩]
  nodes := [("audit", ⟨"std::log", true⟩), ("loop", ⟨"std::loop", true⟩),
    ("process", ⟨"std::log", true⟩)]
  edges := [⟨"webhook", "audit", false⟩, ⟨"webhook", "loop", false⟩,
    ⟨"loop.continue", "process", false⟩, ⟨"process", "loop", true⟩]
  distinctNodes := by decide

def loopExecutor (maxConcurrentNodes : ℕ) : Executor where
  graph := builtGraph loopFlow [0, 1, 2, 3]
  executionOrder := [0, 1, 2, 3]
  nodes := fun _ => true
  maxConcurrentNodes := maxConcurrentNodes
  nodeTimeoutMs := 30000
  hasSuspensionStore := false
  accepted := ⟨[0, 1, 2, 3], [0, 1, 2, 3], by decide,
    (builtGraph loopFlow [0, 1, 2, 3]).hashOrder_nodeIds (by decide), by decide⟩

def relay (n : NodeId) (inputs : Table String (Option Bytes)) : String × Option Bytes :=
  (if n = 2 then "continue" else "out", (inputs "in").getD none)

theorem settled_of_edges (g : FlowGraph) (f : NodeFunctions)
    (hedges : ∀ e ∈ g.edges, e.fromNode ∈ g.predecessors e.toNode ∨
      (e.fromNode ∉ g.entryPoints ∧ e.toNode ∈ g.predecessors e.fromNode)) : g.net.Settled f := by
  refine Net.settled_of_awaits f fun n _ l hl => ?_
  obtain ⟨e, he, rfl⟩ := List.mem_map.mp hl
  obtain ⟨hedge, rfl⟩ := (FlowGraph.mem_incomingEdges _ n e).mp he
  exact hedges e hedge

theorem loopFlow_settled : (builtGraph loopFlow [0, 1, 2, 3]).net.Settled relay :=
  settled_of_edges _ relay (by decide)

def sampleArena : Table RelPtr Bytes := Table.empty.insert ⟨64, 1⟩ [9]

def loopFirst : List Action :=
  startNodes 1 ++ answerNode 0 "out" ⟨72, 1⟩ [9] ++ startNodes 2 ++
    answerNode 2 "continue" ⟨80, 1⟩ [9] ++ startNodes 1 ++ answerNode 3 "out" ⟨88, 1⟩ [9] ++
    startNodes 0 ++ answerNode 1 "out" ⟨96, 1⟩ [9] ++ startNodes 0

def auditFirst : List Action :=
  startNodes 1 ++ answerNode 0 "out" ⟨72, 1⟩ [9] ++ startNodes 2 ++
    answerNode 1 "out" ⟨80, 1⟩ [9] ++ startNodes 0 ++ answerNode 2 "continue" ⟨88, 1⟩ [9] ++
    startNodes 1 ++ answerNode 3 "out" ⟨96, 1⟩ [9] ++ startNodes 0

theorem loopFlow_schedules_agree :
    FlowBuilder.build Char.isAlphanum loopFlow [0, 1, 2, 3] = .ok (loopExecutor 1).graph ∧
      ∃ s s' st st',
        (loopExecutor 16).runIf sampleTrace (computes relay)
          (.start (.new sampleTrace "webhook" ⟨64, 1⟩) sampleArena []) loopFirst = some s ∧
        (loopExecutor 1).runIf sampleTrace (computes relay)
          (.start (.new sampleTrace "webhook" ⟨64, 1⟩) sampleArena []) auditFirst = some s' ∧
        s.trace = some st ∧ s'.trace = some st' ∧ (∀ n, st.completed n = st'.completed n) ∧
        ∀ n, st.completed n = true →
          ∃ answer, answers s.arena st n = some answer ∧ answers s'.arena st' n = some answer := by
  have hend : ((loopExecutor 16).runIf sampleTrace (computes relay)
      (.start (.new sampleTrace "webhook" ⟨64, 1⟩) sampleArena []) loopFirst).any isFinalizing =
        true := by decide
  have hend' : ((loopExecutor 1).runIf sampleTrace (computes relay)
      (.start (.new sampleTrace "webhook" ⟨64, 1⟩) sampleArena []) auditFirst).any isFinalizing =
        true := by decide
  obtain ⟨s, hs, hp⟩ := (Option.any_eq_true _ _).mp hend
  obtain ⟨s', hs', hp'⟩ := (Option.any_eq_true _ _).mp hend'
  obtain ⟨st, st', ht, ht', hcompleted, hanswers⟩ := schedules_agree relay (loopExecutor 16)
    (loopExecutor 1) rfl loopFlow_settled sampleTrace sampleTrace "webhook" "webhook" ⟨64, 1⟩
    ⟨64, 1⟩ sampleArena sampleArena [] [] (by decide) (by decide) rfl loopFirst auditFirst s s' hs
    hs' (phase_of_isFinalizing hp) (phase_of_isFinalizing hp')
  exact ⟨builtGraph_eq loopFlow [0, 1, 2, 3] (by decide), s, s', st, st', hs, hs', ht, ht',
    hcompleted, hanswers⟩

/-- A node with an ordinary edge and a loop edge into the same input, from independent nodes. -/
def raceFlow : FlowDefinition where
  triggers := [⟨"webhook", "webhook", true⟩]
  nodes := [("a", ⟨"std::log", true⟩), ("b", ⟨"std::loop", true⟩), ("c", ⟨"std::log", true⟩)]
  edges := [⟨"webhook", "c", false⟩, ⟨"webhook", "a", false⟩, ⟨"c", "b", false⟩, ⟨"a", "b", true⟩]
  distinctNodes := by decide

def raceExecutor : Executor where
  graph := builtGraph raceFlow [0, 1, 2, 3]
  executionOrder := [0, 3, 1, 2]
  nodes := fun _ => true
  maxConcurrentNodes := 16
  nodeTimeoutMs := 30000
  hasSuspensionStore := false
  accepted := ⟨[0, 1, 2, 3], [0, 1, 2, 3], by decide,
    (builtGraph raceFlow [0, 1, 2, 3]).hashOrder_nodeIds (by decide), by decide⟩

def tagged (n : NodeId) (inputs : Table String (Option Bytes)) : String × Option Bytes :=
  ("out", if n = 1 then some [1] else if n = 3 then some [3] else (inputs "in").getD none)

def aFirst : List Action :=
  startNodes 1 ++ answerNode 0 "out" ⟨72, 1⟩ [9] ++ startNodes 2 ++
    answerNode 1 "out" ⟨80, 1⟩ [1] ++ startNodes 0 ++ answerNode 3 "out" ⟨88, 1⟩ [3] ++
    startNodes 1 ++ answerNode 2 "out" ⟨96, 1⟩ [1] ++ startNodes 0

def cFirst : List Action :=
  startNodes 1 ++ answerNode 0 "out" ⟨72, 1⟩ [9] ++ startNodes 2 ++
    answerNode 3 "out" ⟨80, 1⟩ [3] ++ startNodes 1 ++ answerNode 1 "out" ⟨88, 1⟩ [1] ++
    startNodes 0 ++ answerNode 2 "out" ⟨96, 1⟩ [3] ++ startNodes 0

/-- If `a` finishes before `c`, its output reaches `b` and replaces that of `c`; if `c` finishes
first, `b` has started with the output of `c`. -/
theorem loop_edge_races :
    FlowBuilder.build Char.isAlphanum raceFlow [0, 1, 2, 3] = .ok raceExecutor.graph ∧
      ∃ s s' st st',
        raceExecutor.runIf sampleTrace (computes tagged)
          (.start (.new sampleTrace "webhook" ⟨64, 1⟩) sampleArena []) aFirst = some s ∧
        raceExecutor.runIf sampleTrace (computes tagged)
          (.start (.new sampleTrace "webhook" ⟨64, 1⟩) sampleArena []) cFirst = some s' ∧
        s.phase = .finalizing ∧ s'.phase = .finalizing ∧ s.trace = some st ∧ s'.trace = some st' ∧
        answers s.arena st 2 = some ("out", some [1]) ∧
        answers s'.arena st' 2 = some ("out", some [3]) := by
  refine ⟨builtGraph_eq raceFlow [0, 1, 2, 3] (by decide), ?_⟩
  have hend : (raceExecutor.runIf sampleTrace (computes tagged)
      (.start (.new sampleTrace "webhook" ⟨64, 1⟩) sampleArena []) aFirst).any (fun s =>
          isFinalizing s && s.trace.any fun st =>
            answers s.arena st 2 = some ("out", some [1])) = true := by decide
  have hend' : (raceExecutor.runIf sampleTrace (computes tagged)
      (.start (.new sampleTrace "webhook" ⟨64, 1⟩) sampleArena []) cFirst).any (fun s =>
          isFinalizing s && s.trace.any fun st =>
            answers s.arena st 2 = some ("out", some [3])) = true := by decide
  obtain ⟨s, hs, hp⟩ := (Option.any_eq_true _ _).mp hend
  obtain ⟨s', hs', hp'⟩ := (Option.any_eq_true _ _).mp hend'
  rw [Bool.and_eq_true] at hp hp'
  obtain ⟨st, ht, hst⟩ := (Option.any_eq_true _ _).mp hp.2
  obtain ⟨st', ht', hst'⟩ := (Option.any_eq_true _ _).mp hp'.2
  exact ⟨s, s', st, st', hs, hs', phase_of_isFinalizing hp.1, phase_of_isFinalizing hp'.1, ht, ht',
    by simpa using hst, by simpa using hst'⟩

end Executor

end Xerv
