import Xerv.Lib.Machine
import Xerv.Scheduler.Coherence

/-!
# How `execute_trace` returns

The loop has six ways out. A failed task that is joined, a suspension and a finalized
trace take the trace out of the executor's map; a node without an implementation, a
suspension that fails and a trace that cannot be finalized return through `?` and leave
it there. A task that fails while siblings are drained for a suspension is not looked at.
-/

namespace Xerv
open Xerv.Lib

def TaskResult.failed : TaskResult → Bool
  | .ok _ => false
  | _ => true

def Task.failed (t : Task) : Bool :=
  match t.status with
  | .finished r => r.failed
  | _ => false

def Phase.isReturned : Phase → Bool
  | .returned _ => true
  | _ => false

namespace Executor

/-- The steps that return to the caller. -/
inductive Exit (ex : Executor) (tid : TraceId) (s : ExecState) : Action → ExecState → Prop
  | missing (n : NodeId) (rest : List NodeId) (hp : s.phase = .spawning (n :: rest))
    (hn : ex.nodes n = false) :
    Exit ex tid s .spawnNext
      ({ s with spawned := s.spawned.insert n }.giveUp (.nodeNotFound (nodeText n)))
  | failed (t : Task) (e : XervError) (hp : s.phase = .joining) (ht : t ∈ s.tasks)
    (hf : t.failed = true) :
    Exit ex tid s (.join t.node) { (s.joinTask t.node).giveUp e with trace := none }
  | suspended (n : NodeId) (metadata : String) (now : UInt64) (hp : s.phase = .draining n)
    (htasks : s.tasks = []) (hstore : ex.hasSuspensionStore = true) :
    Exit ex tid s (.suspend metadata now none)
      { s with
        wal := s.wal ++ [(WalRecord.traceSuspended tid n now).withMetadata metadata]
        trace := none
        phase := .returned (.ok ()) }
  | unsuspended (n : NodeId) (metadata : String) (now : UInt64) (failure : Option XervError)
    (e : XervError) (hp : s.phase = .draining n) (htasks : s.tasks = [])
    (hfail : (!ex.hasSuspensionStore || failure.isSome) = true) :
    Exit ex tid s (.suspend metadata now failure) (s.giveUp e)
  | finalized (now : UInt64) (hp : s.phase = .finalizing) :
    Exit ex tid s (.finalize now none)
      { s with
        wal := s.wal ++ [.traceComplete tid now]
        trace := none
        phase := .returned (.ok ()) }
  | unfinalized (now : UInt64) (w : WalWriteError) (hp : s.phase = .finalizing) :
    Exit ex tid s (.finalize now (some w)) (s.giveUp (.walWrite w.traceId w.cause))

variable {ex : Executor} {tid : TraceId} {st₀ : TraceState} {s s' : ExecState}

theorem run_eq (actions : List Action) : ex.run tid s actions = Machine.run (ex.step tid) s actions := by
  induction actions generalizing s with
  | nil => rfl
  | cons a actions ih =>
    rw [Executor.run, Machine.run]
    exact congrArg _ (funext fun s₁ => ih)

theorem Quiet.open_ (hq : Quiet s s') (htrace : s.trace.isSome = true)
    (hp : s.phase.isReturned = false) : s'.phase.isReturned = false ∧ s'.trace.isSome = true := by
  rw [hq.phase, hq.trace]
  exact ⟨hp, htrace⟩

theorem spawn_exit (n : NodeId) (rest : List NodeId) (hp : s.phase = .spawning (n :: rest))
    (htrace : s.trace.isSome = true) :
    let s' := ex.spawn tid s n rest
    ex.Exit tid s .spawnNext s' ∨ (s'.phase.isReturned = false ∧ s'.trace.isSome = true) := by
  unfold Executor.spawn
  dsimp only
  split
  · rename_i hnone
    rw [hnone] at htrace
    cases htrace
  · split
    · exact .inr ⟨rfl, rfl⟩
    · rename_i hn
      exact .inl (.missing n rest hp (by simpa using hn))

theorem processResult_exit (t : Task) (r : TaskResult) (hp : s.phase = .joining) (ht : t ∈ s.tasks)
    (hf : t.status = .finished r) (htrace : s.trace.isSome = true) :
    let s' := processResult tid (s.joinTask t.node) t.node r
    ex.Exit tid s (.join t.node) s' ∨ (s'.phase.isReturned = false ∧ s'.trace.isSome = true) := by
  have hrecord (o : NodeOutput) : (s.trace.map fun st => st.recordOutput t.node o).isSome = true := by
    rw [Option.isSome_map]
    exact htrace
  cases r with
  | ok output =>
    cases output with
    | complete port data hash => exact .inr ⟨rfl, hrecord _⟩
    | error message data => exact .inr ⟨rfl, hrecord _⟩
    | suspend request data => exact .inr ⟨rfl, htrace⟩
  | err message => exact .inl (.failed t _ hp ht (by simp [Task.failed, hf, TaskResult.failed]))
  | lost panicked => exact .inl (.failed t _ hp ht (by simp [Task.failed, hf, TaskResult.failed]))

theorem drainResult_open (n : NodeId) (r : TaskResult) {m : NodeId} (hp : s.phase = .draining m)
    (htrace : s.trace.isSome = true) :
    let s' := drainResult (s.joinTask n) n r
    s'.phase.isReturned = false ∧ s'.trace.isSome = true := by
  have hphase : s.phase.isReturned = false := by
    rw [hp]
    rfl
  cases r with
  | ok output =>
    unfold drainResult
    dsimp only
    split
    · exact ⟨hphase, htrace⟩
    · refine ⟨hphase, ?_⟩
      show (s.trace.map _).isSome = true
      rw [Option.isSome_map]
      exact htrace
  | err message => exact ⟨hphase, htrace⟩
  | lost panicked => exact ⟨hphase, htrace⟩

theorem suspendTrace_exit (n : NodeId) (metadata : String) (now : UInt64) (failure : Option XervError)
    (hp : s.phase = .draining n) (htasks : s.tasks = []) (htrace : s.trace.isSome = true) :
    ex.Exit tid s (.suspend metadata now failure) (ex.suspendTrace tid s n metadata now failure) := by
  obtain ⟨st, ht⟩ := Option.isSome_iff_exists.mp htrace
  unfold suspendTrace
  rw [ht]
  split
  · rename_i hstore
    cases failure with
    | none => exact .suspended n metadata now hp htasks hstore
    | some e => exact .unsuspended n metadata now _ e hp htasks (by simp)
  · rename_i hstore
    exact .unsuspended n metadata now _ _ hp htasks (by simp [hstore])

theorem step_exit (a : Action) (htrace : s.trace.isSome = true) (hp : s.phase.isReturned = false)
    (h : ex.step tid s a = some s') :
    ex.Exit tid s a s' ∨ (s'.phase.isReturned = false ∧ s'.trace.isSome = true) := by
  obtain ⟨st, ht⟩ := Option.isSome_iff_exists.mp htrace
  unfold Executor.step at h
  cases a with
  | findReady =>
    cases hphase : s.phase with
    | findReady =>
      simp only [hphase, ht] at h
      cases h
      exact .inr ⟨rfl, rfl⟩
    | _ => simp [hphase] at h
  | spawnNext =>
    cases hphase : s.phase with
    | spawning ready =>
      cases ready with
      | nil => simp [hphase] at h
      | cons n rest =>
        simp only [hphase] at h
        cases h
        exact spawn_exit n rest hphase htrace
    | _ => simp [hphase] at h
  | spawnDone =>
    cases hphase : s.phase with
    | spawning ready =>
      cases ready with
      | nil =>
        simp only [hphase] at h
        cases h
        refine .inr ⟨?_, htrace⟩
        dsimp only
        split
        · rfl
        · rfl
      | cons n rest => simp [hphase] at h
    | _ => simp [hphase] at h
  | acquire n =>
    dsimp only at h
    split at h
    · cases h
      exact .inr ((setStatus_quiet _ _).open_ htrace hp)
    · cases h
  | arenaWrite n ptr data =>
    dsimp only at h
    split at h
    · cases h
      exact .inr ⟨hp, htrace⟩
    · cases h
  | finish n behaviour now walError =>
    dsimp only at h
    split at h
    · cases h
      exact .inr ((finishTask_quiet _ _ _ _).open_ htrace hp)
    · cases h
  | join n =>
    cases hphase : s.phase with
    | joining =>
      simp only [hphase] at h
      obtain ⟨r, hr, rfl⟩ := Option.map_eq_some_iff.mp h
      obtain ⟨t, htask, rfl, hf⟩ := finishedResult_some n r hr
      exact processResult_exit t r hphase htask hf htrace
    | _ => simp [hphase] at h
  | drainJoin n =>
    cases hphase : s.phase with
    | draining m =>
      simp only [hphase] at h
      obtain ⟨r, hr, rfl⟩ := Option.map_eq_some_iff.mp h
      exact .inr (drainResult_open n r hphase htrace)
    | _ => simp [hphase] at h
  | suspend metadata now failure =>
    cases hphase : s.phase with
    | draining n =>
      simp only [hphase] at h
      split at h
      · rename_i hempty
        cases h
        exact .inl (suspendTrace_exit n metadata now failure hphase (List.isEmpty_iff.mp hempty) htrace)
      · cases h
    | _ => simp [hphase] at h
  | finalize now walError =>
    cases hphase : s.phase with
    | finalizing =>
      simp only [hphase] at h
      cases h
      cases walError with
      | none => exact .inl (.finalized now hphase)
      | some w => exact .inl (.unfinalized now w hphase)
    | _ => simp [hphase] at h
  | otherRecord r =>
    dsimp only at h
    split at h
    · cases h
    · cases h
      exact .inr ⟨hp, htrace⟩

theorem step_returned (a : Action) (hp : s.phase.isReturned = true) (htasks : s.tasks = [])
    (h : ex.step tid s a = some s') :
    ∃ r, a = .otherRecord r ∧ s' = { s with wal := s.wal ++ [r] } := by
  have hphase (p : Phase) (hs : s.phase = p) (hp' : p.isReturned = false) : False := by
    rw [hs, hp'] at hp
    cases hp
  have htask (t : Task) (ht : t ∈ s.tasks) : False := by
    rw [htasks] at ht
    exact List.not_mem_nil ht
  cases step_cases a h with
  | ready st hp' ht => exact (hphase _ hp' rfl).elim
  | spawn n rest st hp' ht hn => exact (hphase _ hp' rfl).elim
  | spawnDone hp' => exact (hphase _ hp' rfl).elim
  | acquire t ht hq hfree => exact (htask t ht).elim
  | arenaWrite t ptr data ht hr hfree => exact (htask t ht).elim
  | finish t behaviour now walError ht hr => exact (htask t ht).elim
  | join t output hp' ht hf hs => exact (htask t ht).elim
  | joinSuspend t output hp' ht hf hs => exact (htask t ht).elim
  | drain t output n hp' ht hf hs => exact (htask t ht).elim
  | drainSkip t r n hp' ht hf hr => exact (htask t ht).elim
  | suspend n metadata now hp' htasks' => exact (hphase _ hp' rfl).elim
  | finalize now hp' => exact (hphase _ hp' rfl).elim
  | stop _ _ e hp' =>
    cases hs : s.phase with
    | returned r => exact absurd hs (hp' r)
    | _ =>
      rw [hs] at hp
      cases hp
  | otherRecord r hr => exact ⟨r, rfl, rfl⟩

/-- A call that runs has its trace, and one that has returned has no tasks. -/
structure Held (ex : Executor) (st₀ : TraceState) (s : ExecState) : Prop where
  safe : ex.Safe st₀ s
  held : s.phase.isReturned = false → s.trace.isSome = true
  gone : s.phase.isReturned = true → s.tasks = []

theorem held_start (ex : Executor) (st₀ : TraceState) (arena : Table RelPtr Bytes)
    (wal : List WalRecord) : ex.Held st₀ (ExecState.start st₀ arena wal) where
  safe := safe_start ex st₀ arena wal
  held _ := rfl
  gone := nofun

theorem Exit.gone {a : Action} (h : ex.Exit tid s a s') (hsafe : ex.Safe st₀ s) :
    s'.phase.isReturned = true ∧ s'.tasks = [] := by
  cases h with
  | missing n rest hp hn => exact ⟨rfl, rfl⟩
  | failed t e hp ht hf => exact ⟨rfl, rfl⟩
  | suspended n metadata now hp htasks hstore => exact ⟨rfl, htasks⟩
  | unsuspended n metadata now failure e hp htasks hfail => exact ⟨rfl, rfl⟩
  | finalized now hp => exact ⟨rfl, hsafe.done hp⟩
  | unfinalized now w hp => exact ⟨rfl, rfl⟩

theorem Held.step (a : Action) (h : ex.Held st₀ s) (hs : ex.step tid s a = some s') :
    ex.Held st₀ s' := by
  have hsafe := h.safe.step a (step_cases a hs)
  cases hp : s.phase.isReturned with
  | true =>
    obtain ⟨r, rfl, rfl⟩ := step_returned a hp (h.gone hp) hs
    exact ⟨hsafe, h.held, h.gone⟩
  | false =>
    rcases step_exit a (h.held hp) hp hs with hexit | ⟨hp', ht'⟩
    · obtain ⟨hret, htasks⟩ := hexit.gone h.safe
      exact ⟨hsafe, fun hp' => absurd (hret.symm.trans hp') (by simp), fun _ => htasks⟩
    · exact ⟨hsafe, fun _ => ht', fun hret => absurd (hp'.symm.trans hret) (by simp)⟩

/-! ### Failed tasks -/

/-- What `execute_single_node` returns. -/
def finishResult (ex : Executor) (tid : TraceId) (n : NodeId) (behaviour : NodeBehaviour) (now : UInt64)
    (walError : Option WalWriteError) : TaskResult :=
  match behaviour.record tid n now, walError with
  | some _, some e => .err e.text
  | _, _ => behaviour.result tid n ex.nodeTimeoutMs

theorem finishTask_tasks (n : NodeId) (behaviour : NodeBehaviour) (now : UInt64)
    (walError : Option WalWriteError) :
    (ex.finishTask tid s n behaviour now walError).tasks =
      (s.setStatus n (.finished (ex.finishResult tid n behaviour now walError))).tasks := by
  unfold finishTask finishResult
  cases behaviour.record tid n now with
  | none => rfl
  | some r =>
    cases walError with
    | none => rfl
    | some e => rfl

def fails (ex : Executor) (tid : TraceId) (_ : ExecState) : Action → Bool
  | .finish n behaviour now walError => (ex.finishResult tid n behaviour now walError).failed
  | _ => false

/-- A failed task is drained for a suspension, or dropped because a node has no implementation. -/
def swallows (ex : Executor) (s : ExecState) : Action → Bool
  | .drainJoin n => (finishedResult s n).any TaskResult.failed
  | .spawnNext =>
    match s.phase with
    | .spawning (n :: _) => !ex.nodes n && s.tasks.any Task.failed
    | _ => false
  | _ => false

/-- What has become of the failures so far. -/
structure Reported (ex : Executor) (st₀ : TraceState) (failed swallowed : Bool) (s : ExecState) : Prop
    extends Held ex st₀ s where
  noticed : ∀ t ∈ s.tasks, t.failed = true → failed = true
  pending : failed = true → swallowed = false →
    (∃ t ∈ s.tasks, t.failed = true) ∨ ((∃ e, s.phase = .returned (.error e)) ∧ s.trace = none)
  dropped : swallowed = true → failed = true ∧
    ((∃ n, s.phase = .draining n) ∨ s.phase = .returned (.ok ()) ∨
      (s.phase.isReturned = true ∧ s.trace.isSome = true))

theorem reported_start (ex : Executor) (st₀ : TraceState) (arena : Table RelPtr Bytes)
    (wal : List WalRecord) : ex.Reported st₀ false false (ExecState.start st₀ arena wal) where
  toHeld := held_start ex st₀ arena wal
  noticed _ ht := absurd ht List.not_mem_nil
  pending := nofun
  dropped := nofun

theorem mem_setStatus_keep (n : NodeId) (status : TaskStatus) (t : Task) (ht : t ∈ s.tasks)
    (hn : t.node ≠ n) : t ∈ (s.setStatus n status).tasks :=
  List.mem_map.mpr ⟨t, ht, if_neg hn⟩

theorem mem_joinTask_keep (n : NodeId) (t : Task) (ht : t ∈ s.tasks) (hn : t.node ≠ n) :
    t ∈ (s.joinTask n).tasks :=
  List.mem_filter.mpr ⟨ht, by simpa using hn⟩

theorem failed_of_finished (t : Task) (r : TaskResult) (h : t.status = .finished r) :
    t.failed = r.failed := by
  unfold Task.failed
  rw [h]

section Step
variable {b c : Bool}

theorem Reported.node_ne (h : ex.Reported st₀ b c s) (t x : Task) (ht : t ∈ s.tasks) (hx : x ∈ s.tasks)
    (hok : t.failed = false) (hfail : x.failed = true) : x.node ≠ t.node := by
  intro hn
  have heq := List.inj_on_of_nodup_map h.safe.taskNodup hx ht hn
  rw [heq, hok] at hfail
  cases hfail

theorem Reported.alive (h : ex.Reported st₀ b c s) (hp : s.phase.isReturned = false) (hb : b = true)
    (hc : c = false) : ∃ t ∈ s.tasks, t.failed = true := by
  rcases h.pending hb hc with ht | ⟨⟨e, he⟩, _⟩
  · exact ht
  · rw [he] at hp
    cases hp

theorem Reported.undropped (h : ex.Reported st₀ b c s) (hp : s.phase.isReturned = false)
    (hn : ∀ n, s.phase ≠ .draining n) : c = false := by
  cases hc : c with
  | false => rfl
  | true =>
    rcases (h.dropped hc).2 with ⟨n, hd⟩ | hok | ⟨hret, _⟩
    · exact absurd hd (hn n)
    · rw [hok] at hp
      cases hp
    · rw [hret] at hp
      cases hp

theorem Reported.loop (h : ex.Reported st₀ b c s) (hheld : ex.Held st₀ s')
    (hp : s.phase.isReturned = false) (hn : ∀ n, s.phase ≠ .draining n)
    (hkeep : ∀ t ∈ s.tasks, t.failed = true → t ∈ s'.tasks)
    (hnew : ∀ t ∈ s'.tasks, t.failed = true → t ∈ s.tasks) : ex.Reported st₀ b c s' where
  toHeld := hheld
  noticed t ht hf := h.noticed t (hnew t ht hf) hf
  pending hb hc := by
    obtain ⟨t, ht, hf⟩ := h.alive hp hb hc
    exact .inl ⟨t, hkeep t ht hf, hf⟩
  dropped hc := by
    rw [h.undropped hp hn] at hc
    cases hc

theorem Reported.stay (h : ex.Reported st₀ b c s) (hheld : ex.Held st₀ s')
    (hp : s.phase.isReturned = false) (hphase : s'.phase = s.phase)
    (b' c' : Bool) (hb : b = true → b' = true)
    (hnoticed : ∀ t ∈ s'.tasks, t.failed = true → b' = true)
    (hpending : b' = true → c' = false → ∃ t ∈ s'.tasks, t.failed = true)
    (hdropped : c' = true → c = false → b' = true ∧ ∃ n, s.phase = .draining n) :
    ex.Reported st₀ b' c' s' where
  toHeld := hheld
  noticed := hnoticed
  pending hb' hc' := .inl (hpending hb' hc')
  dropped hc' := by
    rw [hphase]
    cases hcc : c with
    | false =>
      obtain ⟨hb', hd⟩ := hdropped hc' hcc
      exact ⟨hb', .inl hd⟩
    | true =>
      obtain ⟨hb', hd⟩ := h.dropped hcc
      have ht' := hheld.held (hphase ▸ hp)
      exact ⟨hb hb', hd.imp_right (Or.imp_right fun hret => ⟨hret.1, ht'⟩)⟩

theorem reported_leave (hheld : ex.Held st₀ s') (b c' : Bool) (hret : s'.phase.isReturned = true)
    (hpending : b = true → c' = false → (∃ e, s'.phase = .returned (.error e)) ∧ s'.trace = none)
    (hdropped : c' = true → b = true ∧ (s'.phase = .returned (.ok ()) ∨ s'.trace.isSome = true)) :
    ex.Reported st₀ b c' s' where
  toHeld := hheld
  noticed t ht _ := by
    rw [hheld.gone hret] at ht
    exact absurd ht List.not_mem_nil
  pending hb hc := .inr (hpending hb hc)
  dropped hc := by
    obtain ⟨hb, hd⟩ := hdropped hc
    refine ⟨hb, .inr ?_⟩
    rcases hd with hd | hd
    · exact .inl hd
    · exact .inr ⟨hret, hd⟩

theorem Reported.exit (a : Action) (h : ex.Reported st₀ b c s) (hp : s.phase.isReturned = false)
    (hheld : ex.Held st₀ s') (he : ex.Exit tid s a s') :
    ex.Reported st₀ (b || ex.fails tid s a) (c || ex.swallows s a) s' := by
  have hnone (htasks : s.tasks = []) (hb : b = true) (hc : c = false) : False := by
    obtain ⟨t, ht, _⟩ := h.alive hp hb hc
    rw [htasks] at ht
    exact List.not_mem_nil ht
  cases he with
  | missing n rest hp' hn =>
    have hc : c = false := h.undropped hp (by simp [hp'])
    have hsw : ex.swallows s .spawnNext = s.tasks.any Task.failed := by
      simp [swallows, hp', hn]
    have hfa : ex.fails tid s .spawnNext = false := rfl
    rw [hsw, hfa, hc, Bool.false_or, Bool.or_false]
    refine reported_leave hheld b _ rfl (fun hb hany => ?_) fun hany => ?_
    · obtain ⟨t, ht, hf⟩ := h.alive hp hb hc
      rw [List.any_eq_false] at hany
      exact absurd hf (hany t ht)
    · obtain ⟨t, ht, hf⟩ := List.any_eq_true.mp hany
      exact ⟨h.noticed t ht hf, .inr (h.held hp)⟩
  | failed t e hp' ht hf =>
    have hc : c = false := h.undropped hp (by simp [hp'])
    have hsame := reported_leave hheld b c rfl (fun _ _ => ⟨⟨e, rfl⟩, rfl⟩) fun hc' => by
      rw [hc] at hc'
      cases hc'
    simpa [fails, swallows] using hsame
  | suspended n metadata now hp' htasks hstore =>
    have hsame := reported_leave hheld b c rfl (fun hb hc => (hnone htasks hb hc).elim) fun hc =>
      ⟨(h.dropped hc).1, .inl rfl⟩
    simpa [fails, swallows] using hsame
  | unsuspended n metadata now failure e hp' htasks hfail =>
    have hsame := reported_leave hheld b c rfl (fun hb hc => (hnone htasks hb hc).elim) fun hc =>
      ⟨(h.dropped hc).1, .inr (h.held hp)⟩
    simpa [fails, swallows] using hsame
  | finalized now hp' =>
    have htasks := h.safe.done hp'
    have hsame := reported_leave hheld b c rfl (fun hb hc => (hnone htasks hb hc).elim) fun hc =>
      ⟨(h.dropped hc).1, .inl rfl⟩
    simpa [fails, swallows] using hsame
  | unfinalized now w hp' =>
    have htasks := h.safe.done hp'
    have hsame := reported_leave hheld b c rfl (fun hb hc => (hnone htasks hb hc).elim) fun hc =>
      ⟨(h.dropped hc).1, .inr (h.held hp)⟩
    simpa [fails, swallows] using hsame

theorem Reported.joined (h : ex.Reported st₀ b c s) (t : Task) (ht : t ∈ s.tasks) (hok : t.failed = false) :
    (∀ x ∈ s.tasks, x.failed = true → x ∈ (s.joinTask t.node).tasks) ∧
      ∀ x ∈ (s.joinTask t.node).tasks, x.failed = true → x ∈ s.tasks :=
  ⟨fun x hx hf => mem_joinTask_keep _ x hx (h.node_ne t x ht hx hok hf),
    fun _ hx _ => (List.mem_filter.mp hx).1⟩

theorem Reported.drained (h : ex.Reported st₀ b c s) (t : Task) (r : TaskResult) (ht : t ∈ s.tasks)
    (hf : t.status = .finished r) (hp : s.phase.isReturned = false) {n : NodeId}
    (hd : s.phase = .draining n) (hheld : ex.Held st₀ s') (hphase : s'.phase = s.phase)
    (htasks : s'.tasks = (s.joinTask t.node).tasks) :
    ex.Reported st₀ (b || ex.fails tid s (.drainJoin t.node)) (c || ex.swallows s (.drainJoin t.node))
      s' := by
  have hfailed := failed_of_finished t r hf
  have hsw : ex.swallows s (.drainJoin t.node) = r.failed := by
    unfold swallows finishedResult
    dsimp only
    rw [task?_of_mem h.safe.taskNodup t ht]
    simp [hf]
  have hfa : ex.fails tid s (.drainJoin t.node) = false := rfl
  rw [hsw, hfa, Bool.or_false]
  refine h.stay hheld hp hphase b _ id ?_ ?_ ?_
  · intro x hx hxf
    rw [htasks] at hx
    exact h.noticed x (List.mem_filter.mp hx).1 hxf
  · intro hb hnone
    rw [Bool.or_eq_false_iff] at hnone
    obtain ⟨x, hx, hxf⟩ := h.alive hp hb hnone.1
    rw [htasks]
    exact ⟨x, (h.joined t ht (hfailed.trans hnone.2)).1 x hx hxf, hxf⟩
  · intro hany hc
    rw [hc, Bool.false_or] at hany
    exact ⟨h.noticed t ht (hfailed.trans hany), n, hd⟩

theorem Reported.step (a : Action) (h : ex.Reported st₀ b c s) (hs : ex.step tid s a = some s') :
    ex.Reported st₀ (b || ex.fails tid s a) (c || ex.swallows s a) s' := by
  have hheld := h.toHeld.step a hs
  cases hp : s.phase.isReturned with
  | true =>
    obtain ⟨r, rfl, rfl⟩ := step_returned a hp (h.gone hp) hs
    have hsame : ex.Reported st₀ b c { s with wal := s.wal ++ [r] } :=
      ⟨hheld, h.noticed, h.pending, h.dropped⟩
    simpa [fails, swallows] using hsame
  | false =>
    rcases step_exit a (h.held hp) hp hs with hexit | ⟨hp', _⟩
    · exact h.exit a hp hheld hexit
    · cases step_cases a hs with
      | ready st hphase ht =>
        have hsame := h.loop hheld hp (by simp [hphase]) (fun _ ht _ => ht) fun _ ht _ => ht
        simpa [fails, swallows] using hsame
      | spawn n rest st hphase ht hn =>
        have hsame := h.loop hheld hp (by simp [hphase])
          (fun _ ht _ => List.mem_append_left _ ht) fun t ht hf => by
            rcases List.mem_append.mp ht with ht | ht
            · exact ht
            · rw [List.mem_singleton.mp ht] at hf
              cases hf
        simpa [fails, swallows, hphase, hn] using hsame
      | spawnDone hphase =>
        have hsame := h.loop hheld hp (by simp [hphase]) (fun _ ht _ => ht) fun _ ht _ => ht
        simpa [fails, swallows] using hsame
      | acquire t ht hq hfree =>
        have hok : t.failed = false := by simp [Task.failed, hq]
        have hsame := h.stay hheld hp rfl b c id
          (fun x hx hf => by
            rcases mem_setStatus _ _ x hx with hx | ⟨y, _, _, rfl⟩
            · exact h.noticed x hx hf
            · cases hf)
          (fun hb hc => by
            obtain ⟨x, hx, hf⟩ := h.alive hp hb hc
            exact ⟨x, mem_setStatus_keep _ _ x hx (h.node_ne t x ht hx hok hf), hf⟩)
          (fun hc hc' => by
            rw [hc'] at hc
            cases hc)
        simpa [fails, swallows] using hsame
      | arenaWrite t ptr data ht hr hfree =>
        have hsame : ex.Reported st₀ b c { s with arena := s.arena.insert ptr data } :=
          ⟨hheld, h.noticed, h.pending, h.dropped⟩
        simpa [fails, swallows] using hsame
      | finish t behaviour now walError ht hr =>
        have hok : t.failed = false := by simp [Task.failed, hr]
        have hsame := h.stay hheld hp (finishTask_quiet _ _ _ _).phase
          (b || ex.fails tid s (.finish t.node behaviour now walError)) c (by simp +contextual)
          (fun x hx hf => by
            rw [finishTask_tasks] at hx
            rcases mem_setStatus _ _ x hx with hx | ⟨y, _, _, rfl⟩
            · rw [h.noticed x hx hf, Bool.true_or]
            · rw [Bool.or_eq_true]
              exact .inr hf)
          (fun hb hc => by
            rw [finishTask_tasks]
            rcases (Bool.or_eq_true _ _).mp hb with hb | hb
            · obtain ⟨x, hx, hf⟩ := h.alive hp hb hc
              exact ⟨x, mem_setStatus_keep _ _ x hx (h.node_ne t x ht hx hok hf), hf⟩
            · exact ⟨_, mem_setStatus_self t ht _, hb⟩)
          (fun hc hc' => by
            rw [hc'] at hc
            cases hc)
        simpa [swallows] using hsame
      | join t output hphase ht hf hsus =>
        obtain ⟨hkeep, hnew⟩ := h.joined t ht (failed_of_finished t _ hf)
        have hsame := h.loop hheld hp (by simp [hphase]) hkeep hnew
        simpa [fails, swallows] using hsame
      | joinSuspend t output hphase ht hf hsus =>
        obtain ⟨hkeep, hnew⟩ := h.joined t ht (failed_of_finished t _ hf)
        have hsame := h.loop hheld hp (by simp [hphase]) hkeep hnew
        simpa [fails, swallows] using hsame
      | drain t output n hphase ht hf hsus => exact h.drained t _ ht hf hp hphase hheld rfl rfl
      | drainSkip t r n hphase ht hf hr => exact h.drained t r ht hf hp hphase hheld rfl rfl
      | suspend n metadata now hphase htasks => cases hp'
      | finalize now hphase => cases hp'
      | stop _ _ e hrunning htasks hphase =>
        rw [hphase] at hp'
        cases hp'
      | otherRecord r hr =>
        have hsame : ex.Reported st₀ b c { s with wal := s.wal ++ [r] } :=
          ⟨hheld, h.noticed, h.pending, h.dropped⟩
        simpa [fails, swallows] using hsame

end Step

/-- In every run of `execute_trace` that has returned: if a task ended with an error or a panic, the call
returns an error and the trace is removed, if and only if no failed task was drained for a suspension
or dropped at a node without an implementation. -/
theorem failures_reported_iff (ex : Executor) (tid : TraceId) (st₀ : TraceState)
    (arena : Table RelPtr Bytes) (wal : List WalRecord) (actions : List Action) (s : ExecState)
    (hrun : ex.run tid (.start st₀ arena wal) actions = some s) (r : Except XervError Unit)
    (hret : s.phase = .returned r) :
    (Machine.happens (ex.step tid) (ex.fails tid) (.start st₀ arena wal) actions = true →
        (∃ e, r = .error e) ∧ s.trace = none) ↔
      Machine.happens (ex.step tid) ex.swallows (.start st₀ arena wal) actions = false := by
  rw [run_eq] at hrun
  have h := Machine.run_flags (ex.fails tid) ex.swallows (ex.Reported st₀)
    (fun _ _ _ a _ h hs => h.step a hs) actions false false (reported_start ex st₀ arena wal) hrun
  rw [Bool.false_or, Bool.false_or] at h
  have hgone := h.gone (by rw [hret]; rfl)
  constructor
  · intro hreported
    by_contra hsw
    rw [Bool.not_eq_false] at hsw
    obtain ⟨hfailed, hdropped⟩ := h.dropped hsw
    obtain ⟨⟨e, he⟩, hnone⟩ := hreported hfailed
    rw [hret, he, hnone] at hdropped
    simp at hdropped
  · intro hsw hfailed
    rcases h.pending hfailed hsw with ⟨t, ht, _⟩ | ⟨⟨e, he⟩, hnone⟩
    · rw [hgone] at ht
      exact absurd ht List.not_mem_nil
    · rw [hret] at he
      cases he
      exact ⟨⟨e, rfl⟩, hnone⟩

def returnedOk (s : ExecState) : Bool :=
  match s.phase with
  | .returned (.ok _) => true
  | _ => false

def returnedError (s : ExecState) : Bool :=
  match s.phase with
  | .returned (.error _) => true
  | _ => false

theorem phase_of_returnedOk (h : returnedOk s = true) : s.phase = .returned (.ok ()) := by
  unfold returnedOk at h
  split at h
  · assumption
  · cases h

theorem phase_of_returnedError (h : returnedError s = true) : ∃ e, s.phase = .returned (.error e) := by
  unfold returnedError at h
  split at h
  · exact ⟨_, by assumption⟩
  · cases h

def lineFailure : List Action :=
  [.findReady, .spawnNext, .spawnDone, .acquire 0, .finish 0 (.fails "no route to host") 0 none, .join 0]

theorem line_failure_is_reported :
    ∃ s e, lineExecutor.run sampleTrace
        (.start (.new sampleTrace "webhook" RelPtr.null) Table.empty []) lineFailure = some s ∧
      s.phase = .returned (.error e) ∧ s.trace = none := by
  have hend : (lineExecutor.run sampleTrace
      (.start (.new sampleTrace "webhook" RelPtr.null) Table.empty []) lineFailure).any
        returnedError = true := by decide
  obtain ⟨s, hs, hret⟩ := (Option.any_eq_true _ _).mp hend
  obtain ⟨e, he⟩ := phase_of_returnedError hret
  have hreported := (failures_reported_iff lineExecutor sampleTrace _ _ _ lineFailure s hs _ he).mpr
    (by decide) (by decide)
  exact ⟨s, e, hs, he, hreported.2⟩

/-- A trigger with two independent nodes behind it, the first of which waits for an approval. -/
def forkGraph : FlowGraph :=
  (((FlowGraph.new.addNode (.new 0 "trigger::webhook")).addNode (.new 1 "std::wait")).addNode
    (.new 2 "std::log")).addEdge ⟨0, "out", 1, "in"⟩ |>.addEdge ⟨0, "out", 2, "in"⟩

def forkExecutor : Executor where
  graph := forkGraph
  executionOrder := [0, 1, 2]
  nodes := fun _ => true
  maxConcurrentNodes := 16
  nodeTimeoutMs := 30000
  hasSuspensionStore := true
  accepted := ⟨[0, 1, 2], [0, 1, 2], by decide, forkGraph.hashOrder_nodeIds (by decide),
    by decide⟩

def approvalRequest : SuspensionRequest := ⟨"approval", none, .reject, .null⟩

def forkStarted : List Action :=
  runNode 0 (.complete "out" ⟨64, 4⟩ 0) ++ [.findReady, .spawnNext, .spawnNext, .spawnDone, .acquire 1,
    .finish 1 (.returns (.suspend approvalRequest RelPtr.null)) 0 none, .join 1]

def forkFailure : List Action :=
  forkStarted ++ [.acquire 2, .finish 2 (.fails "disk full") 0 none, .drainJoin 2, .suspend "meta" 0 none]

/-- The second node fails while it is drained for the suspension of the first: the call returns `Ok` with
the trace stored as suspended. -/
theorem drained_failure_is_dropped :
    ∃ s, forkExecutor.run sampleTrace
        (.start (.new sampleTrace "webhook" RelPtr.null) Table.empty []) forkFailure = some s ∧
      s.phase = .returned (.ok ()) ∧
      Machine.happens (forkExecutor.step sampleTrace) (forkExecutor.fails sampleTrace)
        (.start (.new sampleTrace "webhook" RelPtr.null) Table.empty []) forkFailure = true := by
  have hend : (forkExecutor.run sampleTrace
      (.start (.new sampleTrace "webhook" RelPtr.null) Table.empty []) forkFailure).any
        returnedOk = true := by decide
  obtain ⟨s, hs, hret⟩ := (Option.any_eq_true _ _).mp hend
  exact ⟨s, hs, phase_of_returnedOk hret, by decide⟩

end Executor
end Xerv
