import Xerv.Scheduler.Exits

/-!
# The traces of an executor

`Executor.traces` with any number of `execute_trace` calls in progress, in any
interleaving. `start_trace` checks the concurrency limit against the size of the map, so
an entry that outlives its call takes a slot for good. Every call sees the records the
others write to the WAL through its own `otherRecord` steps.
-/

namespace Xerv
open Xerv.Lib

/-- The calls of `execute_trace`, by trace; the last one, if a trace was resumed. -/
structure ActiveTraces where
  ids : List TraceId
  calls : Table TraceId ExecState

inductive TraceAction where
  | startTrace (tid : TraceId) (triggerId : String) (data : RelPtr) (wal : List WalRecord) (now : UInt64)
    (walError : Option WalWriteError)
  | resumeTrace (tid : TraceId) (st : TraceState) (arena : Table RelPtr Bytes) (wal : List WalRecord)
    (now : UInt64) (walError : Option WalWriteError)
  | resumeSuspendedTrace (tid : TraceId) (st : TraceState) (arena : Table RelPtr Bytes)
    (wal : List WalRecord) (now : UInt64) (walError : Option WalWriteError)
  | step (tid : TraceId) (a : Action)

namespace ActiveTraces

def empty : ActiveTraces := ⟨[], Table.empty⟩

def isActive (x : ActiveTraces) (tid : TraceId) : Bool := (x.calls tid).any fun s => s.trace.isSome

/-- No call on this trace has returned since it was inserted. -/
def isOpen (x : ActiveTraces) (tid : TraceId) : Bool := (x.calls tid).any fun s => !s.phase.isReturned

def activeTraceCount (x : ActiveTraces) : ℕ := (x.ids.filter x.isActive).length

def insert (x : ActiveTraces) (tid : TraceId) (s : ExecState) : ActiveTraces :=
  ⟨if tid ∈ x.ids then x.ids else tid :: x.ids, x.calls.insert tid s⟩

/-- `traces.insert`, then the WAL record; if that fails the caller returns and never executes the trace. -/
def enter (x : ActiveTraces) (tid : TraceId) (st : TraceState) (arena : Table RelPtr Bytes)
    (wal : List WalRecord) (record : WalRecord) : Option WalWriteError → ActiveTraces
  | none => x.insert tid (.start st arena (wal ++ [record]))
  | some w => x.insert tid ((ExecState.start st arena wal).giveUp (.walWrite w.traceId w.cause))

def atLimit (maxConcurrentTraces : ℕ) (x : ActiveTraces) : Bool :=
  maxConcurrentTraces ≤ x.activeTraceCount

def step (ex : Executor) (maxConcurrentTraces : ℕ) (x : ActiveTraces) :
    TraceAction → Option ActiveTraces
  -- the trace id of an event is new
  | .startTrace tid triggerId data wal now walError =>
    if tid ∈ x.ids then none
    else if x.atLimit maxConcurrentTraces then some x
    else some (x.enter tid (.new tid triggerId data) Table.empty wal (.traceStart tid now) walError)
  | .resumeTrace tid st arena wal now walError =>
    if x.isOpen tid then none
    else if x.atLimit maxConcurrentTraces then some x
    else some (x.enter tid st arena wal (.traceResumed tid now) walError)
  | .resumeSuspendedTrace tid st arena wal now walError =>
    if x.isOpen tid then none
    else some (x.enter tid st arena wal (.traceResumed tid now) walError)
  | .step tid a =>
    (x.calls tid).bind fun s => (ex.step tid s a).map fun s' => { x with calls := x.calls.insert tid s' }

/-- No call that has returned has left its trace in the map, so the traces in the map are those whose
call has not returned. -/
def Released (x : ActiveTraces) : Prop :=
  (∀ tid s, x.calls tid = some s → s.phase.isReturned = true → s.trace = none) ∧
    x.activeTraceCount = (x.ids.filter x.isOpen).length

end ActiveTraces

namespace Executor

/-- The exits that leave the trace in the map. -/
def leaks (ex : Executor) (s : ExecState) : Action → Bool
  | .spawnNext =>
    match s.phase with
    | .spawning (n :: _) => !ex.nodes n
    | _ => false
  | .suspend _ _ failure => !ex.hasSuspensionStore || failure.isSome
  | .finalize _ walError => walError.isSome
  | _ => false

variable {ex : Executor} {tid : TraceId} {s s' : ExecState}

theorem Exit.released_iff {a : Action} (h : ex.Exit tid s a s') (htrace : s.trace.isSome = true) :
    s'.trace = none ↔ ex.leaks s a = false := by
  have hsome : s.trace ≠ none := Option.isSome_iff_ne_none.mp htrace
  cases h with
  | missing n rest hp hn => simp [leaks, hp, hn, ExecState.giveUp, hsome]
  | failed t e hp ht hf => simp [leaks]
  | suspended n metadata now hp htasks hstore => simp [leaks, hstore]
  | unsuspended n metadata now failure e hp htasks hfail =>
    have hl : ex.leaks s (.suspend metadata now failure) = true := hfail
    simp [hl, ExecState.giveUp, hsome]
  | finalized now hp => simp [leaks]
  | unfinalized now w hp => simp [leaks, ExecState.giveUp, hsome]

theorem leaks_returns (a : Action) (hl : ex.leaks s a = true) (h : ex.step tid s a = some s') :
    s'.phase.isReturned = true := by
  unfold Executor.step at h
  cases a with
  | spawnNext =>
    cases hp : s.phase with
    | spawning ready =>
      cases ready with
      | nil => simp [hp] at h
      | cons n rest =>
        simp only [hp] at h
        have hn : ex.nodes n = false := by simpa [leaks, hp] using hl
        cases h
        unfold Executor.spawn
        dsimp only
        split
        · rfl
        · rw [if_neg (by simp [hn])]
          rfl
    | _ => simp [hp] at h
  | suspend metadata now failure =>
    cases hp : s.phase with
    | draining n =>
      simp only [hp] at h
      split at h
      · cases h
        unfold suspendTrace
        split
        · split
          · rfl
          · rfl
          · rfl
        · rfl
      · cases h
    | _ => simp [hp] at h
  | finalize now walError =>
    cases hp : s.phase with
    | finalizing =>
      simp only [hp] at h
      cases h
      cases walError with
      | none => rfl
      | some w => rfl
    | _ => simp [hp] at h
  | _ => cases hl

end Executor

namespace ActiveTraces

def leaks (ex : Executor) (maxConcurrentTraces : ℕ) (x : ActiveTraces) : TraceAction → Bool
  | .startTrace _ _ _ _ _ walError => !x.atLimit maxConcurrentTraces && walError.isSome
  | .resumeTrace _ _ _ _ _ walError => !x.atLimit maxConcurrentTraces && walError.isSome
  | .resumeSuspendedTrace _ _ _ _ _ walError => walError.isSome
  | .step tid a => (x.calls tid).any fun s => ex.leaks s a

structure Listed (ex : Executor) (x : ActiveTraces) : Prop where
  listed : ∀ tid, tid ∈ x.ids ↔ (x.calls tid).isSome = true
  held : ∀ tid s, x.calls tid = some s → ∃ st₀, ex.Held st₀ s

variable {ex : Executor} {limit : ℕ} {x x' : ActiveTraces} {tid : TraceId} {s s' : ExecState}

theorem listed_empty (ex : Executor) : Listed ex empty := ⟨fun tid => by simp [empty], nofun⟩

theorem Listed.insert (h : Listed ex x) (tid : TraceId) (s : ExecState) (hs : ∃ st₀, ex.Held st₀ s) :
    Listed ex (x.insert tid s) := by
  refine ⟨fun t => ?_, fun t s' ht => ?_⟩
  · have hmem : t ∈ (if tid ∈ x.ids then x.ids else tid :: x.ids) ↔ t = tid ∨ t ∈ x.ids := by
      split
      · rename_i htid
        constructor
        · exact .inr
        · rintro (rfl | ht)
          · exact htid
          · exact ht
      · exact List.mem_cons
    show t ∈ (if tid ∈ x.ids then x.ids else tid :: x.ids) ↔ _
    rw [hmem, h.listed t]
    by_cases ht : t = tid
    · simp [ActiveTraces.insert, ht]
    · simp [ActiveTraces.insert, ht]
  · by_cases hne : t = tid
    · subst hne
      have heq : some s = some s' := (Table.insert_self _ _ _).symm.trans ht
      cases heq
      exact hs
    · exact h.held t s' ((Table.insert_ne _ _ hne).symm.trans ht)

theorem Listed.set (h : Listed ex x) (s s' : ExecState) (hs : x.calls tid = some s)
    (hs' : ∃ st₀, ex.Held st₀ s') : Listed ex { x with calls := x.calls.insert tid s' } := by
  have hmem : tid ∈ x.ids := by
    rw [h.listed tid, hs]
    rfl
  have hins := h.insert tid s' hs'
  unfold ActiveTraces.insert at hins
  rwa [if_pos hmem] at hins

theorem held_giveUp (ex : Executor) (st : TraceState) (arena : Table RelPtr Bytes)
    (wal : List WalRecord) (e : XervError) :
    ex.Held st ((ExecState.start st arena wal).giveUp e) :=
  ⟨(Executor.safe_start ex st arena wal).ended (.error e) rfl rfl (.inl rfl) rfl (fun _ h => h)
    (Nat.zero_le _), nofun, fun _ => rfl⟩

theorem Listed.enter (h : Listed ex x) (tid : TraceId) (st : TraceState) (arena : Table RelPtr Bytes)
    (wal : List WalRecord) (record : WalRecord) (walError : Option WalWriteError) :
    Listed ex (x.enter tid st arena wal record walError) := by
  cases walError with
  | none => exact h.insert tid _ ⟨st, Executor.held_start ex st arena _⟩
  | some w => exact h.insert tid _ ⟨st, held_giveUp ex st arena wal _⟩

theorem Listed.step (a : TraceAction) (h : Listed ex x) (hs : x.step ex limit a = some x') :
    Listed ex x' := by
  cases a with
  | startTrace tid triggerId data wal now walError =>
    unfold ActiveTraces.step at hs
    dsimp only at hs
    split_ifs at hs
    · cases hs
      exact h
    · cases hs
      exact h.enter _ _ _ _ _ _
  | resumeTrace tid st arena wal now walError =>
    unfold ActiveTraces.step at hs
    dsimp only at hs
    split_ifs at hs
    · cases hs
      exact h
    · cases hs
      exact h.enter _ _ _ _ _ _
  | resumeSuspendedTrace tid st arena wal now walError =>
    unfold ActiveTraces.step at hs
    dsimp only at hs
    split_ifs at hs
    cases hs
    exact h.enter _ _ _ _ _ _
  | step tid a =>
    obtain ⟨s, hcall, hmap⟩ := Option.bind_eq_some_iff.mp hs
    obtain ⟨s', hstep, rfl⟩ := Option.map_eq_some_iff.mp hmap
    obtain ⟨st₀, hheld⟩ := h.held tid s hcall
    exact h.set s s' hcall ⟨st₀, hheld.step a hstep⟩

/-! ### Counting -/

theorem Listed.isActive_of_isOpen (h : Listed ex x) (ho : x.isOpen tid = true) :
    x.isActive tid = true := by
  obtain ⟨s, hs, hp⟩ := (Option.any_eq_true _ _).mp ho
  obtain ⟨st₀, hheld⟩ := h.held tid s hs
  refine (Option.any_eq_true _ _).mpr ⟨s, hs, hheld.held ?_⟩
  simpa using hp

theorem Listed.released_iff (h : Listed ex x) :
    x.Released ↔ ∀ tid s, x.calls tid = some s → s.phase.isReturned = true → s.trace = none := by
  refine ⟨And.left, fun hnone => ⟨hnone, ?_⟩⟩
  unfold activeTraceCount
  refine congrArg List.length (List.filter_congr fun tid _ => ?_)
  rw [Bool.eq_iff_iff]
  refine ⟨fun hactive => ?_, h.isActive_of_isOpen⟩
  obtain ⟨s, hs, ht⟩ := (Option.any_eq_true _ _).mp hactive
  refine (Option.any_eq_true _ _).mpr ⟨s, hs, ?_⟩
  cases hp : s.phase.isReturned with
  | false => rfl
  | true =>
    rw [hnone tid s hs hp] at ht
    cases ht

theorem Listed.released_set (hx' : Listed ex x') (hx : x.Released)
    (hcalls : x'.calls = x.calls.insert tid s) :
    x'.Released ↔ (s.phase.isReturned = true → s.trace = none) := by
  rw [hx'.released_iff, hcalls]
  constructor
  · intro hall hret
    exact hall tid s (Table.insert_self _ _ _) hret
  · intro hs t s₁ ht hret
    by_cases hne : t = tid
    · subst hne
      rw [Table.insert_self] at ht
      cases ht
      exact hs hret
    · rw [Table.insert_ne _ _ hne] at ht
      exact hx.1 t s₁ ht hret

theorem Listed.released_enter (h : Listed ex x) (hx : x.Released) (st : TraceState)
    (arena : Table RelPtr Bytes) (wal : List WalRecord) (record : WalRecord)
    (walError : Option WalWriteError) :
    (x.enter tid st arena wal record walError).Released ↔ walError.isSome = false := by
  have henter := h.enter tid st arena wal record walError
  cases walError with
  | none =>
    rw [henter.released_set hx rfl]
    simp [ExecState.start, Phase.isReturned]
  | some w =>
    rw [henter.released_set hx rfl]
    simp [ExecState.start, ExecState.giveUp, Phase.isReturned]

theorem Listed.released_step (a : Action) (h : Listed ex x) (hx : x.Released)
    (hs : x.calls tid = some s) (hstep : ex.step tid s a = some s') :
    ({ x with calls := x.calls.insert tid s' } : ActiveTraces).Released ↔ ex.leaks s a = false := by
  obtain ⟨st₀, hheld⟩ := h.held tid s hs
  rw [(h.set s s' hs ⟨st₀, hheld.step a hstep⟩).released_set hx rfl]
  cases hp : s.phase.isReturned with
  | true =>
    obtain ⟨r, rfl, rfl⟩ := Executor.step_returned a hp (hheld.gone hp) hstep
    have hnone := hx.1 tid s hs hp
    simp [Executor.leaks, hnone]
  | false =>
    rcases Executor.step_exit a (hheld.held hp) hp hstep with hexit | ⟨hp', ht'⟩
    · rw [← hexit.released_iff (hheld.held hp)]
      simp [(hexit.gone hheld.safe).1]
    · have hl : ex.leaks s a = false := by
        cases hl : ex.leaks s a with
        | false => rfl
        | true =>
          rw [Executor.leaks_returns a hl hstep] at hp'
          cases hp'
      simp [hl, hp']

theorem Listed.keeps_iff (a : TraceAction) (h : Listed ex x) (hx : x.Released)
    (hs : x.step ex limit a = some x') : x'.Released ↔ leaks ex limit x a = false := by
  cases a with
  | startTrace tid triggerId data wal now walError =>
    unfold ActiveTraces.step at hs
    dsimp only at hs
    split_ifs at hs with _ hlimit
    · cases hs
      simp [leaks, hlimit, hx]
    · cases hs
      rw [h.released_enter hx]
      simp [leaks, hlimit]
  | resumeTrace tid st arena wal now walError =>
    unfold ActiveTraces.step at hs
    dsimp only at hs
    split_ifs at hs with _ hlimit
    · cases hs
      simp [leaks, hlimit, hx]
    · cases hs
      rw [h.released_enter hx]
      simp [leaks, hlimit]
  | resumeSuspendedTrace tid st arena wal now walError =>
    unfold ActiveTraces.step at hs
    dsimp only at hs
    split_ifs at hs
    cases hs
    exact h.released_enter hx st arena wal _ walError
  | step tid a =>
    obtain ⟨s, hcall, hmap⟩ := Option.bind_eq_some_iff.mp hs
    obtain ⟨s', hstep, rfl⟩ := Option.map_eq_some_iff.mp hmap
    rw [h.released_step a hx hcall hstep]
    simp [leaks, hcall]

theorem released_empty : empty.Released := ⟨nofun, rfl⟩

/-- In every interleaving of calls on an executor: no call that has returned leaves its trace in the map,
and the active traces are those whose call has not returned, in every state reached, if and only if no
step returns through a missing node implementation, a suspension that fails or a failed WAL write
of the executor itself. -/
theorem released_throughout_iff (ex : Executor) (maxConcurrentTraces : ℕ) (actions : List TraceAction)
    (x : ActiveTraces) (hrun : Machine.run (step ex maxConcurrentTraces) empty actions = some x) :
    (∀ before x', before <+: actions →
        Machine.run (step ex maxConcurrentTraces) empty before = some x' → x'.Released) ↔
      Machine.happens (step ex maxConcurrentTraces) (leaks ex maxConcurrentTraces) empty actions = false :=
  Machine.throughout_iff (leaks ex maxConcurrentTraces) (Listed ex) Released
    (fun _ a _ h hs => h.step a hs) (fun _ a _ h hx hs => h.keeps_iff a hx hs) actions
    (listed_empty ex) released_empty hrun

def startLine : TraceAction := .startTrace sampleTrace "webhook" RelPtr.null [] 0 none

theorem line_is_released :
    ∃ x, Machine.run (step Executor.lineExecutor 100) empty
        (startLine :: Executor.lineRun.map (.step sampleTrace)) = some x ∧
      x.isOpen sampleTrace = false ∧ x.Released := by
  have hend : (Machine.run (step Executor.lineExecutor 100) empty
      (startLine :: Executor.lineRun.map (.step sampleTrace))).any
        (fun x => !x.isOpen sampleTrace) = true := by decide
  obtain ⟨x, hx, hopen⟩ := (Option.any_eq_true _ _).mp hend
  have hall := (released_throughout_iff Executor.lineExecutor 100 _ x hx).mpr (by decide)
  exact ⟨x, hx, by simpa using hopen, hall _ x List.prefix_rfl hx⟩

/-- The node behind the trigger is in the graph, but no implementation was handed to the executor. -/
def bareExecutor : Executor := { Executor.lineExecutor with nodes := fun n => n = 0 }

def bareRun : List Action := Executor.runNode 0 (.complete "out" ⟨64, 4⟩ 0) ++ [.findReady, .spawnNext]

/-- The call returns an error when it comes to the node, and the trace stays in the map. -/
theorem missing_node_keeps_slot :
    ∃ x, Machine.run (step bareExecutor 100) empty (startLine :: bareRun.map (.step sampleTrace)) =
        some x ∧
      x.isOpen sampleTrace = false ∧ x.isActive sampleTrace = true ∧ x.activeTraceCount = 1 := by
  have hend : (Machine.run (step bareExecutor 100) empty
      (startLine :: bareRun.map (.step sampleTrace))).any (fun x =>
        !x.isOpen sampleTrace && x.isActive sampleTrace && x.activeTraceCount = 1) = true := by
    decide
  obtain ⟨x, hx, h⟩ := (Option.any_eq_true _ _).mp hend
  simp only [Bool.and_eq_true, Bool.not_eq_true', decide_eq_true_eq] at h
  exact ⟨x, hx, h.1.1, h.1.2, h.2⟩

end ActiveTraces
end Xerv
