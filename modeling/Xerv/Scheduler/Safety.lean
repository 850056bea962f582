import Xerv.Scheduler.Executor

/-!
# Scheduler safety

What `execute_trace` guarantees whatever the nodes do and in whatever order the
tasks finish: no node is started twice or after it has completed, a node is started
only when its predecessors have completed, and the loop ends.
-/

namespace Xerv
open Xerv.Lib

namespace Executor

/-- A node the loop is about to start. -/
structure Startable (ex : Executor) (s : ExecState) (st : TraceState) (n : NodeId) : Prop where
  listed : n ∈ ex.executionOrder
  new : n ∉ s.started
  open_ : st.completed n = false
  activated : n ∉ ex.graph.entryPoints → ∃ e ∈ ex.graph.incomingEdges n, st.carries e = true
  waited : n ∉ ex.graph.entryPoints → ∀ p ∈ ex.graph.predecessors n, st.completed p = true

structure Safe (ex : Executor) (st₀ : TraceState) (s : ExecState) : Prop where
  startedNodup : s.started.Nodup
  startedListed : ∀ n ∈ s.started, n ∈ ex.executionOrder
  startedOpen : ∀ n ∈ s.started, st₀.completed n = false
  startedSpawned : ∀ n ∈ s.started, s.spawned n = true
  taskNodup : (s.tasks.map Task.node).Nodup
  taskStarted : ∀ n ∈ s.tasks.map Task.node, n ∈ s.started
  counted : s.joined + s.tasks.length ≤ s.started.length
  completedKept : ∀ st, s.trace = some st → ∀ n, st₀.completed n = true → st.completed n = true
  ready : ∀ ready, s.phase = .spawning ready → ready.Nodup ∧
    ∀ n ∈ ready, ∃ st, s.trace = some st ∧ ex.Startable s st n
  waiting : s.phase = .joining → s.tasks ≠ []
  done : s.phase = .finalizing → s.tasks = []

section
variable {ex : Executor} {tid : TraceId} {st₀ : TraceState} {s s' : ExecState}

theorem safe_start (ex : Executor) (st₀ : TraceState) (arena : Table RelPtr Bytes)
    (wal : List WalRecord) : ex.Safe st₀ (ExecState.start st₀ arena wal) where
  startedNodup := List.nodup_nil
  startedListed _ h := absurd h List.not_mem_nil
  startedOpen _ h := absurd h List.not_mem_nil
  startedSpawned _ h := absurd h List.not_mem_nil
  taskNodup := List.nodup_nil
  taskStarted _ h := absurd h List.not_mem_nil
  counted := Nat.le_refl _
  completedKept st ht n hn := by
    have hst : st₀ = st := Option.some.inj ht
    rw [← hst]
    exact hn
  ready _ h := by cases h
  waiting h := by cases h
  done h := by cases h

theorem Safe.startable (h : ex.Safe st₀ s) {n : NodeId} {rest : List NodeId} {st : TraceState}
    (hp : s.phase = .spawning (n :: rest)) (ht : s.trace = some st) : ex.Startable s st n := by
  obtain ⟨st', ht', hstart⟩ := (h.ready _ hp).2 n List.mem_cons_self
  rwa [Option.some.inj (ht.symm.trans ht')]

theorem Safe.quiet (h : ex.Safe st₀ s) (hq : Quiet s s') : ex.Safe st₀ s' := by
  have hlen : s'.tasks.length = s.tasks.length := by
    have := congrArg List.length hq.nodes
    simpa using this
  refine ⟨?_, ?_, ?_, ?_, ?_, ?_, ?_, ?_, ?_, ?_, ?_⟩
  · rw [hq.started]
    exact h.startedNodup
  · rw [hq.started]
    exact h.startedListed
  · rw [hq.started]
    exact h.startedOpen
  · rw [hq.started, hq.spawned]
    exact h.startedSpawned
  · rw [hq.nodes]
    exact h.taskNodup
  · rw [hq.nodes, hq.started]
    exact h.taskStarted
  · rw [hq.joined, hlen, hq.started]
    exact h.counted
  · rw [hq.trace]
    exact h.completedKept
  · intro ready hp
    rw [hq.phase] at hp
    obtain ⟨hnodup, hall⟩ := h.ready ready hp
    refine ⟨hnodup, fun n hn => ?_⟩
    obtain ⟨st, ht, hst⟩ := hall n hn
    exact ⟨st, hq.trace.trans ht, hst.listed, hq.started ▸ hst.new, hst.open_, hst.activated,
      hst.waited⟩
  · intro hp
    rw [hq.phase] at hp
    have hne := h.waiting hp
    intro hnil
    rw [hnil, List.length_nil] at hlen
    exact hne (List.length_eq_zero_iff.mp hlen.symm)
  · intro hp
    rw [hq.phase] at hp
    rw [h.done hp, List.length_nil] at hlen
    exact List.length_eq_zero_iff.mp hlen

theorem findReadyNodes_startable (h : ex.Safe st₀ s) (st : TraceState) (n : NodeId)
    (hn : n ∈ ex.findReadyNodes st s.spawned) : ex.Startable s st n := by
  obtain ⟨hlisted, hcond⟩ := List.mem_filter.mp hn
  simp only [Bool.and_eq_true, Bool.not_eq_true'] at hcond
  obtain ⟨hspawned, hready⟩ := hcond
  refine ⟨hlisted, ?_, (st.isNodeReady_idle n ex.graph hready).1, ?_, ?_⟩
  · intro hstarted
    have htrue := h.startedSpawned n hstarted
    rw [hspawned] at htrue
    exact absurd htrue (by simp)
  · intro hentry
    exact ((st.isNodeReady_inner n ex.graph hentry).mp hready).1
  · intro hentry
    exact ((st.isNodeReady_inner n ex.graph hentry).mp hready).2.1

theorem Safe.found (h : ex.Safe st₀ s) (st : TraceState) (ht : s.trace = some st) :
    ex.Safe st₀ { s with phase := .spawning (ex.findReadyNodes st s.spawned) } := by
  refine ⟨h.startedNodup, h.startedListed, h.startedOpen, h.startedSpawned, h.taskNodup,
    h.taskStarted, h.counted, h.completedKept, ?_, nofun, nofun⟩
  intro ready hp
  cases hp
  refine ⟨ex.ordered.nodup.filter _, fun n hn => ⟨st, ht, ?_⟩⟩
  have hst := findReadyNodes_startable h st n hn
  exact ⟨hst.listed, hst.new, hst.open_, hst.activated, hst.waited⟩

theorem Safe.spawned (h : ex.Safe st₀ s) (n : NodeId) (rest : List NodeId) (st : TraceState)
    (hp : s.phase = .spawning (n :: rest)) (ht : s.trace = some st) :
    ex.Safe st₀
      { s with
        spawned := s.spawned.insert n
        trace := some (st.markExecuting n)
        tasks := s.tasks ++ [⟨n, st.collectInputs n ex.graph, .queued⟩]
        phase := .spawning rest
        started := s.started ++ [n] } := by
  obtain ⟨hnodup, hall⟩ := h.ready _ hp
  obtain ⟨hnotin, hrest⟩ := List.nodup_cons.mp hnodup
  obtain ⟨st', ht', hn⟩ := hall n List.mem_cons_self
  have hst : st' = st := Option.some.inj (ht'.symm.trans ht)
  subst hst
  have hopen : st₀.completed n = false := by
    cases hc : st₀.completed n with
    | false => rfl
    | true =>
      have htrue := h.completedKept st' ht n hc
      rw [hn.open_] at htrue
      exact absurd htrue (by simp)
  refine ⟨?_, ?_, ?_, ?_, ?_, ?_, ?_, ?_, ?_, nofun, nofun⟩
  · rw [List.nodup_append]
    refine ⟨h.startedNodup, List.nodup_singleton n, ?_⟩
    intro a ha b hb hab
    rw [List.mem_singleton.mp hb] at hab
    exact hn.new (hab ▸ ha)
  · intro m hm
    rcases List.mem_append.mp hm with hm | hm
    · exact h.startedListed m hm
    · rw [List.mem_singleton.mp hm]
      exact hn.listed
  · intro m hm
    rcases List.mem_append.mp hm with hm | hm
    · exact h.startedOpen m hm
    · rw [List.mem_singleton.mp hm]
      exact hopen
  · intro m hm
    rw [Keys.insert_true_iff]
    rcases List.mem_append.mp hm with hm | hm
    · exact .inr (h.startedSpawned m hm)
    · exact .inl (List.mem_singleton.mp hm)
  · rw [List.map_append, List.nodup_append]
    refine ⟨h.taskNodup, List.nodup_singleton n, ?_⟩
    intro a ha b hb hab
    have hbn : b = n := List.mem_singleton.mp hb
    exact hn.new (h.taskStarted n (hbn ▸ hab ▸ ha))
  · intro m hm
    rw [List.map_append] at hm
    rcases List.mem_append.mp hm with hm | hm
    · exact List.mem_append_left _ (h.taskStarted m hm)
    · exact List.mem_append_right _ hm
  · have hcounted := h.counted
    simp only [List.length_append, List.length_singleton]
    omega
  · intro st hst m hm
    cases hst
    exact h.completedKept st' ht m hm
  · intro ready hready
    cases hready
    refine ⟨hrest, fun m hm => ⟨_, rfl, ?_⟩⟩
    obtain ⟨st'', ht'', hm'⟩ := hall m (List.mem_cons_of_mem _ hm)
    have hst : st'' = st' := Option.some.inj (ht''.symm.trans ht)
    subst hst
    refine ⟨hm'.listed, ?_, hm'.open_, hm'.activated, hm'.waited⟩
    intro hmem
    rcases List.mem_append.mp hmem with hmem | hmem
    · exact hm'.new hmem
    · exact hnotin (List.mem_singleton.mp hmem ▸ hm)

theorem joinTask_length (t : Task) (ht : t ∈ s.tasks) :
    (s.joinTask t.node).tasks.length + 1 ≤ s.tasks.length := by
  unfold ExecState.joinTask
  have hlt : (s.tasks.filter fun x => x.node ≠ t.node).length < s.tasks.length := by
    refine List.length_filter_lt_length_iff_exists.mpr ⟨t, ht, ?_⟩
    simp
  exact hlt

theorem Safe.joined (h : ex.Safe st₀ s) (t : Task) (ht : t ∈ s.tasks) (trace : Option TraceState)
    (phase : Phase) (hp : ∀ ready, phase ≠ .spawning ready) (hp' : phase ≠ .joining)
    (hp'' : phase ≠ .finalizing)
    (htrace : ∀ st, trace = some st → ∀ n, st₀.completed n = true → st.completed n = true) :
    ex.Safe st₀ { s.joinTask t.node with trace := trace, phase := phase } := by
  have hsub : ((s.joinTask t.node).tasks.map Task.node).Sublist (s.tasks.map Task.node) :=
    List.filter_sublist.map _
  have hlen := joinTask_length t ht
  have hcounted := h.counted
  refine ⟨h.startedNodup, h.startedListed, h.startedOpen, h.startedSpawned,
    h.taskNodup.sublist hsub, fun n hn => h.taskStarted n (hsub.subset hn), ?_, htrace,
    fun ready hready => absurd hready (hp ready), fun hjoin => absurd hjoin hp',
    fun hfin => absurd hfin hp''⟩
  show s.joined + 1 + (s.joinTask t.node).tasks.length ≤ s.started.length
  omega

theorem recordOutput_completed (st : TraceState) (n m : NodeId) (output : NodeOutput)
    (h : st.completed m = true) : (st.recordOutput n output).completed m = true :=
  (Keys.insert_true_iff _ _ _).mpr (.inr h)

theorem Safe.recorded (h : ex.Safe st₀ s) (n : NodeId) (output : NodeOutput) (st : TraceState)
    (hst : (s.trace.map fun st => st.recordOutput n output) = some st) (m : NodeId)
    (hm : st₀.completed m = true) : st.completed m = true := by
  obtain ⟨st', ht', hrec⟩ := Option.map_eq_some_iff.mp hst
  rw [← hrec]
  exact recordOutput_completed st' n m output (h.completedKept st' ht' m hm)

theorem Safe.ended (h : ex.Safe st₀ s) (r : Except XervError Unit) (htasks : s'.tasks = [])
    (hphase : s'.phase = .returned r) (htrace : s'.trace = s.trace ∨ s'.trace = none)
    (hstarted : s'.started = s.started) (hspawned : ∀ n, s.spawned n = true → s'.spawned n = true)
    (hjoined : s'.joined ≤ s.joined + s.tasks.length) : ex.Safe st₀ s' := by
  have hcounted := h.counted
  refine ⟨?_, ?_, ?_, ?_, ?_, ?_, ?_, ?_, ?_, ?_, ?_⟩
  · rw [hstarted]
    exact h.startedNodup
  · rw [hstarted]
    exact h.startedListed
  · rw [hstarted]
    exact h.startedOpen
  · rw [hstarted]
    exact fun n hn => hspawned n (h.startedSpawned n hn)
  · rw [htasks]
    exact List.nodup_nil
  · rw [htasks]
    exact fun _ hn => absurd hn List.not_mem_nil
  · rw [htasks, hstarted, List.length_nil]
    omega
  · intro st hst
    rcases htrace with htrace | htrace
    · exact h.completedKept st (htrace.symm.trans hst)
    · rw [htrace] at hst
      cases hst
  · simp [hphase]
  · simp [hphase]
  · simp [hphase]

theorem Safe.step (a : Action) (h : ex.Safe st₀ s) (hs : ex.Step tid s a s') : ex.Safe st₀ s' := by
  cases hs with
  | ready st hp ht => exact h.found st ht
  | spawn n rest st hp ht hn => exact h.spawned n rest st hp ht
  | spawnDone hp =>
    refine ⟨h.startedNodup, h.startedListed, h.startedOpen, h.startedSpawned, h.taskNodup,
      h.taskStarted, h.counted, h.completedKept, ?_, ?_, ?_⟩
    · intro ready hready
      dsimp only at hready
      split at hready
      · cases hready
      · cases hready
    · intro hjoin hnil
      have hempty : s.tasks = [] := hnil
      simp [hempty] at hjoin
    · intro hfin
      dsimp only at hfin
      split at hfin
      · rename_i hempty
        exact List.isEmpty_iff.mp hempty
      · cases hfin
  | acquire t ht hq hfree => exact h.quiet (setStatus_quiet _ _)
  | arenaWrite t ptr data ht hr hfree => exact h.quiet ⟨rfl, rfl, rfl, rfl, rfl, rfl⟩
  | finish t behaviour now walError ht hr => exact h.quiet (finishTask_quiet _ _ _ _)
  | join t output hp ht hf hs =>
    exact h.joined t ht _ .findReady nofun nofun nofun
      fun st hst m hm => h.recorded t.node output st hst m hm
  | joinSuspend t output hp ht hf hs =>
    exact h.joined t ht s.trace (.draining t.node) nofun nofun nofun h.completedKept
  | drain t output n hp ht hf hs =>
    exact h.joined t ht (s.trace.map fun st => st.recordOutput t.node output) s.phase
      (by simp [hp]) (by simp [hp]) (by simp [hp])
      fun st hst m hm => h.recorded t.node output st hst m hm
  | drainSkip t r n hp ht hf hr =>
    exact h.joined t ht s.trace s.phase (by simp [hp]) (by simp [hp]) (by simp [hp]) h.completedKept
  | suspend n metadata now hp htasks =>
    exact h.ended (.ok ()) htasks rfl (.inr rfl) rfl (fun _ hn => hn) (Nat.le_add_right _ _)
  | finalize now hp =>
    exact h.ended (.ok ()) (h.done hp) rfl (.inr rfl) rfl (fun _ hn => hn) (Nat.le_add_right _ _)
  | stop _ _ e hp htasks hphase htrace hwal harena hstarted hspawned hjoined =>
    exact h.ended (.error e) htasks hphase htrace hstarted hspawned hjoined
  | otherRecord r hr => exact h.quiet ⟨rfl, rfl, rfl, rfl, rfl, rfl⟩

end

end Executor

/-! ### The loop ends -/

def TaskStatus.weight : TaskStatus → ℕ
  | .queued => 5
  | .running => 4
  | .finished _ => 3

def Phase.weight : Phase → ℕ
  | .findReady => 4
  | .spawning _ => 3
  | .joining => 2
  | .draining _ => 2
  | .finalizing => 1
  | .returned _ => 0

/-- Steps of the loop and of the tasks, without arena writes and records of other traces. -/
def Action.isOwn : Action → Bool
  | .arenaWrite .. => false
  | .otherRecord _ => false
  | _ => true

def Action.ofLoop : Action → Bool
  | .findReady | .spawnNext | .spawnDone | .join _ | .drainJoin _ | .suspend .. | .finalize .. => true
  | _ => false

def Task.isFinished (t : Task) : Bool :=
  match t.status with
  | .finished _ => true
  | _ => false

namespace Executor
variable {ex : Executor} {tid : TraceId} {st₀ : TraceState} {s s' : ExecState}

def taskWeight (tasks : List Task) : ℕ := (tasks.map fun t => t.status.weight).sum

/-- What is left to do: every step of the loop or of a task takes at least one. -/
def weight (ex : Executor) (s : ExecState) : ℕ :=
  6 * (ex.executionOrder.length - s.started.length) + taskWeight s.tasks + s.phase.weight

theorem taskWeight_append (xs ys : List Task) :
    taskWeight (xs ++ ys) = taskWeight xs + taskWeight ys := by
  unfold taskWeight
  rw [List.map_append, List.sum_append]

theorem taskWeight_cons (t : Task) (ts : List Task) :
    taskWeight (t :: ts) = t.status.weight + taskWeight ts := by
  unfold taskWeight
  rw [List.map_cons, List.sum_cons]

theorem setStatus_eq_self (tasks : List Task) (n : NodeId) (status : TaskStatus)
    (h : n ∉ tasks.map Task.node) :
    (tasks.map fun t => if t.node = n then { t with status := status } else t) = tasks := by
  refine (List.map_congr_left fun t ht => ?_).trans (List.map_id _)
  have hne : t.node ≠ n := fun he => h (he ▸ List.mem_map_of_mem ht)
  rw [if_neg hne]
  rfl

theorem taskWeight_setStatus (tasks : List Task) (hnodup : (tasks.map Task.node).Nodup) (t : Task)
    (ht : t ∈ tasks) (status : TaskStatus) :
    taskWeight (tasks.map fun x => if x.node = t.node then { x with status := status } else x) +
      t.status.weight = taskWeight tasks + TaskStatus.weight status := by
  induction tasks with
  | nil => exact absurd ht List.not_mem_nil
  | cons x tasks ih =>
    rw [List.map_cons] at hnodup
    obtain ⟨hx, hrest⟩ := List.nodup_cons.mp hnodup
    rw [List.map_cons, taskWeight_cons, taskWeight_cons]
    rcases List.mem_cons.mp ht with heq | hmem
    · subst heq
      rw [setStatus_eq_self tasks t.node status hx, if_pos rfl]
      dsimp only
      omega
    · have hne : x.node ≠ t.node := fun he => hx (he ▸ List.mem_map_of_mem hmem)
      have hih := ih hrest hmem
      rw [if_neg hne]
      omega

theorem taskWeight_filter (tasks : List Task) (hnodup : (tasks.map Task.node).Nodup) (t : Task)
    (ht : t ∈ tasks) :
    taskWeight (tasks.filter fun x => x.node ≠ t.node) + t.status.weight =
      taskWeight tasks := by
  induction tasks with
  | nil => exact absurd ht List.not_mem_nil
  | cons x tasks ih =>
    rw [List.map_cons] at hnodup
    obtain ⟨hx, hrest⟩ := List.nodup_cons.mp hnodup
    rw [taskWeight_cons]
    rcases List.mem_cons.mp ht with heq | hmem
    · subst heq
      have hall : tasks.filter (fun y => y.node ≠ t.node) = tasks := by
        refine List.filter_eq_self.mpr fun y hy => ?_
        have hne : y.node ≠ t.node := fun he => hx (he ▸ List.mem_map_of_mem hy)
        simpa using hne
      rw [List.filter_cons_of_neg (by simp), hall]
      omega
    · have hne : x.node ≠ t.node := fun he => hx (he ▸ List.mem_map_of_mem hmem)
      have hih := ih hrest hmem
      rw [List.filter_cons_of_pos (by simpa using hne), taskWeight_cons]
      omega

theorem Safe.started_le (h : ex.Safe st₀ s) : s.started.length ≤ ex.executionOrder.length :=
  (List.subperm_of_subset h.startedNodup h.startedListed).length_le

theorem Safe.weight_setStatus (h : ex.Safe st₀ s) (t : Task) (ht : t ∈ s.tasks) (status : TaskStatus)
    (hlt : TaskStatus.weight status < t.status.weight) (wal : List WalRecord) :
    ex.weight { s.setStatus t.node status with wal := wal } + 1 ≤ ex.weight s := by
  have hset := taskWeight_setStatus s.tasks h.taskNodup t ht status
  unfold weight ExecState.setStatus
  dsimp only
  omega

theorem Safe.weight_joined (h : ex.Safe st₀ s) (t : Task) (ht : t ∈ s.tasks) (r : TaskResult)
    (hf : t.status = .finished r) (trace : Option TraceState) (phase : Phase)
    (hphase : Phase.weight phase ≤ s.phase.weight + 2) :
    ex.weight { s.joinTask t.node with trace := trace, phase := phase } + 1 ≤ ex.weight s := by
  have hfilter := taskWeight_filter s.tasks h.taskNodup t ht
  rw [hf] at hfilter
  unfold weight ExecState.joinTask
  dsimp only
  simp only [TaskStatus.weight] at hfilter
  omega

theorem Safe.weight_spawn (n : NodeId) (rest : List NodeId)
    (hp : s.phase = .spawning (n :: rest)) (s' : ExecState) (t : Task) (hq : t.status = .queued)
    (htasks : s'.tasks = s.tasks ++ [t]) (hphase : s'.phase = .spawning rest)
    (hstarted : s'.started = s.started ++ [n]) (hsafe : ex.Safe st₀ s') :
    ex.weight s' + 1 ≤ ex.weight s := by
  have hle := hsafe.started_le
  have hweight : taskWeight s'.tasks = taskWeight s.tasks + 5 := by
    rw [htasks, taskWeight_append, taskWeight_cons, hq]
    rfl
  rw [hstarted, List.length_append, List.length_singleton] at hle
  unfold weight
  rw [hweight, hphase, hp, hstarted, List.length_append, List.length_singleton]
  simp only [Phase.weight]
  omega

theorem Safe.weight_step (a : Action) (h : ex.Safe st₀ s) (hs : ex.Step tid s a s') :
    ex.weight s' + (if a.isOwn then 1 else 0) ≤ ex.weight s := by
  have hsafe := h.step a hs
  cases hs with
  | ready st hp ht =>
    unfold weight
    rw [hp]
    exact Nat.le_refl _
  | spawn n rest st hp ht hn => exact Safe.weight_spawn n rest hp _ _ rfl rfl rfl rfl hsafe
  | spawnDone hp =>
    unfold weight
    rw [hp]
    dsimp only
    split
    · simp [Phase.weight, Action.isOwn]
    · simp [Phase.weight, Action.isOwn]
  | acquire t ht hq hfree =>
    exact h.weight_setStatus t ht .running (by rw [hq]; decide) s.wal
  | arenaWrite t ptr data ht hr hfree => exact Nat.le_refl _
  | finish t behaviour now walError ht hr =>
    obtain ⟨r, records, heq⟩ := finishTask_eq ex tid s t.node behaviour now walError
    rw [heq]
    exact h.weight_setStatus t ht (.finished r) (by rw [hr]; simp [TaskStatus.weight]) _
  | join t output hp ht hf hs =>
    exact h.weight_joined t ht _ hf _ .findReady (by rw [hp]; decide)
  | joinSuspend t output hp ht hf hs =>
    exact h.weight_joined t ht _ hf s.trace (.draining t.node) (by rw [hp]; simp [Phase.weight])
  | drain t output n hp ht hf hs =>
    exact h.weight_joined t ht _ hf _ s.phase (Nat.le_add_right _ _)
  | drainSkip t r n hp ht hf hr =>
    exact h.weight_joined t ht _ hf s.trace s.phase (Nat.le_add_right _ _)
  | suspend n metadata now hp htasks =>
    unfold weight
    rw [hp]
    simp [Phase.weight, Action.isOwn]
  | finalize now hp =>
    unfold weight
    rw [hp]
    exact Nat.le_refl _
  | stop _ _ e hp htasks hphase htrace hwal harena hstarted hspawned hjoined =>
    have hpos : 1 ≤ s.phase.weight := by
      cases hq : s.phase with
      | returned r => exact absurd hq (hp r)
      | _ => simp [Phase.weight]
    unfold weight
    rw [htasks, hphase, hstarted]
    have hzero : (Phase.returned (.error e)).weight = 0 := rfl
    have hnone : taskWeight [] = 0 := rfl
    rw [hzero, hnone]
    split
    · omega
    · omega
  | otherRecord r hr => exact Nat.le_refl _

theorem run_weight (actions : List Action) (h : ex.Safe st₀ s)
    (hrun : ex.run tid s actions = some s') :
    ex.weight s' + actions.countP Action.isOwn ≤ ex.weight s := by
  induction actions generalizing s with
  | nil =>
    cases hrun
    exact Nat.le_refl _
  | cons a actions ih =>
    obtain ⟨s₁, hs₁, hrest⟩ := Option.bind_eq_some_iff.mp hrun
    have hstep := step_cases a hs₁
    have hone := h.weight_step a hstep
    have hmore := ih (h.step a hstep) hrest
    rw [List.countP_cons]
    omega

/-! ### The loop is never stuck -/

theorem finishedResult_head (t : Task) (rest : List Task) (htasks : s.tasks = t :: rest)
    (hf : t.isFinished = true) : ∃ r, finishedResult s t.node = some r := by
  have hfind : s.task? t.node = some t := by
    unfold ExecState.task?
    rw [htasks, List.find?_cons_of_pos (by simp)]
  unfold finishedResult
  rw [hfind]
  unfold Task.isFinished at hf
  cases hs : t.status with
  | queued => simp [hs] at hf
  | running => simp [hs] at hf
  | finished r => exact ⟨r, by simp [hs]⟩

theorem Safe.progress (h : ex.Safe st₀ s) :
    (∃ r, s.phase = .returned r) ∨ (∃ a s', a.ofLoop = true ∧ ex.step tid s a = some s') ∨
      ∃ t ∈ s.tasks, t.isFinished = false := by
  by_cases hunfinished : ∃ t ∈ s.tasks, t.isFinished = false
  · exact .inr (.inr hunfinished)
  have hfinished : ∀ t ∈ s.tasks, t.isFinished = true := by
    intro t ht
    cases hf : t.isFinished with
    | true => rfl
    | false => exact absurd ⟨t, ht, hf⟩ hunfinished
  cases hp : s.phase with
  | returned r => exact .inl ⟨r, rfl⟩
  | findReady =>
    refine .inr (.inl ⟨.findReady, ?_⟩)
    unfold Executor.step
    rw [hp]
    cases s.trace with
    | none => exact ⟨_, rfl, rfl⟩
    | some st => exact ⟨_, rfl, rfl⟩
  | spawning ready =>
    cases ready with
    | nil =>
      refine .inr (.inl ⟨.spawnDone, ?_⟩)
      unfold Executor.step
      rw [hp]
      exact ⟨_, rfl, rfl⟩
    | cons n rest =>
      refine .inr (.inl ⟨.spawnNext, ?_⟩)
      unfold Executor.step
      rw [hp]
      exact ⟨_, rfl, rfl⟩
  | joining =>
    cases htasks : s.tasks with
    | nil => exact absurd htasks (h.waiting hp)
    | cons t rest =>
      have ht := hfinished t (by rw [htasks]; exact List.mem_cons_self)
      obtain ⟨r, hr⟩ := finishedResult_head t rest htasks ht
      refine .inr (.inl ⟨.join t.node, ?_⟩)
      unfold Executor.step
      rw [hp]
      exact ⟨_, rfl, by simp only [hr]; rfl⟩
  | draining n =>
    cases htasks : s.tasks with
    | nil =>
      refine .inr (.inl ⟨.suspend "" 0 none, ?_⟩)
      unfold Executor.step
      rw [hp]
      exact ⟨_, rfl, by simp only [htasks]; rfl⟩
    | cons t rest =>
      have ht := hfinished t (by rw [htasks]; exact List.mem_cons_self)
      obtain ⟨r, hr⟩ := finishedResult_head t rest htasks ht
      refine .inr (.inl ⟨.drainJoin t.node, ?_⟩)
      unfold Executor.step
      rw [hp]
      exact ⟨_, rfl, by simp only [hr]; rfl⟩
  | finalizing =>
    refine .inr (.inl ⟨.finalize 0 none, ?_⟩)
    unfold Executor.step
    rw [hp]
    exact ⟨_, rfl, rfl⟩

/-! ### Whole runs -/

theorem executionOrder_length (ex : Executor) : ex.executionOrder.length = ex.graph.nodes.length := by
  obtain ⟨_, order', _, _, hs⟩ := ex.accepted
  unfold FlowGraph.topologicalSort at hs
  dsimp only at hs
  split at hs
  · exact absurd hs (by simp)
  · rename_i hlen
    have heq : _ = ex.executionOrder := Except.ok.inj hs
    rw [← heq]
    simpa using hlen

/-- Along every run of `execute_trace` from any trace state: no node is started twice, none that had
completed is started, a node about to be started has its predecessors completed unless it is an
entry point, at most as many tasks are joined as there are nodes, the loop and the tasks take
boundedly many steps, and the loop only ever waits for a task that has not finished. -/
theorem scheduler_safety (ex : Executor) (tid : TraceId) (st₀ : TraceState)
    (arena : Table RelPtr Bytes) (wal : List WalRecord) (actions : List Action) (s : ExecState)
    (hrun : ex.run tid (ExecState.start st₀ arena wal) actions = some s) :
    s.started.Nodup ∧ (∀ n ∈ s.started, st₀.completed n = false) ∧
      (∀ n rest, s.phase = .spawning (n :: rest) → ∃ st, s.trace = some st ∧ n ∉ s.started ∧
        st.completed n = false ∧
          (n ∉ ex.graph.entryPoints → ∀ p ∈ ex.graph.predecessors n, st.completed p = true)) ∧
      s.joined ≤ ex.graph.nodes.length ∧
      actions.countP Action.isOwn ≤ 6 * ex.graph.nodes.length + 4 ∧
      ((∃ r, s.phase = .returned r) ∨ (∃ a s', a.ofLoop = true ∧ ex.step tid s a = some s') ∨
        ∃ t ∈ s.tasks, t.isFinished = false) := by
  have hstart := safe_start ex st₀ arena wal
  have hsafe : ex.Safe st₀ s := run_invariant (ex.Safe st₀) (fun _ a _ h hs => h.step a hs) actions
    hstart hrun
  have hweight := run_weight actions hstart hrun
  refine ⟨hsafe.startedNodup, hsafe.startedOpen, ?_, ?_, ?_, hsafe.progress⟩
  · intro n rest hp
    obtain ⟨st, ht, hn⟩ := (hsafe.ready _ hp).2 n List.mem_cons_self
    exact ⟨st, ht, hn.new, hn.open_, hn.waited⟩
  · have hle := hsafe.started_le
    have hcounted := hsafe.counted
    rw [executionOrder_length] at hle
    omega
  · have hinit : ex.weight (ExecState.start st₀ arena wal) = 6 * ex.executionOrder.length + 4 := rfl
    rw [hinit, executionOrder_length] at hweight
    omega

def lineGraph : FlowGraph :=
  ((FlowGraph.new.addNode (.new 0 "trigger::webhook")).addNode (.new 1 "std::log")).addEdge
    ⟨0, "out", 1, "in"⟩

def lineExecutor : Executor where
  graph := lineGraph
  executionOrder := [0, 1]
  nodes := fun _ => true
  maxConcurrentNodes := 16
  nodeTimeoutMs := 30000
  hasSuspensionStore := false
  accepted := ⟨[0, 1], [0, 1], by decide, lineGraph.hashOrder_nodeIds (by decide), by decide⟩

def runNode (n : NodeId) (output : NodeOutput) : List Action :=
  [.findReady, .spawnNext, .spawnDone, .acquire n, .finish n (.returns output) 0 none, .join n]

def lineRun : List Action :=
  runNode 0 (.complete "out" ⟨64, 4⟩ 0) ++ runNode 1 (.complete "out" ⟨72, 4⟩ 0) ++
    [.findReady, .spawnDone, .finalize 0 none]

theorem lineExecutor_safe :
    ∃ s, lineExecutor.run sampleTrace
        (ExecState.start (.new sampleTrace "webhook" RelPtr.null) Table.empty []) lineRun = some s ∧
      s.started.Nodup ∧ s.joined ≤ 2 ∧ lineRun.countP Action.isOwn ≤ 16 := by
  have hsome : (lineExecutor.run sampleTrace
      (ExecState.start (.new sampleTrace "webhook" RelPtr.null) Table.empty []) lineRun).isSome = true := by
    decide +kernel
  obtain ⟨s, hs⟩ := Option.isSome_iff_exists.mp hsome
  obtain ⟨hnodup, _, _, hjoined, hsteps, _⟩ :=
    scheduler_safety lineExecutor sampleTrace _ _ _ lineRun s hs
  exact ⟨s, hs, hnodup, hjoined, hsteps⟩

end Executor

end Xerv
