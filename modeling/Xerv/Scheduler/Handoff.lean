import Xerv.Lib.Machine
import Xerv.Scheduler.Suspension

/-!
# Handing a trace over to a resumer (`scheduler/suspension.rs`, `arena/writer.rs`)

`suspend_trace` makes its hook visible in the store long before it removes the trace from
the map of active traces, so a `resume_suspended_trace` of that hook may run in between.
The two calls are cut at their accesses to what they share: the store, the log, the map and
the arena files. An arena holds an exclusive lock on its file until it is dropped, and
`Arena::open` does not wait for it; an insertion waits while the suspender holds its guard
on the map entry.
-/

namespace Xerv
open Xerv.Lib

/-- A trace state with the file of the arena that it owns. -/
structure ActiveTrace where
  state : TraceState
  arenaPath : String

/-- The arguments of the two calls, and what the arena, the disk and the log answer to them. -/
structure HandoffCalls where
  suspended : SuspendedTraceState
  record : WalRecord
  flush : Except XervError Unit
  walWrite : Except WalWriteError Unit
  decision : ResumeDecision
  env : ResumeEnv
  lockRefused : String

inductive Suspender where
  | entered
  | flushed
  | stored
  | logged
  | released
  | removed (trace : Option ActiveTrace)
  | done
  | failed (error : XervError)

/-- Where the resumer is; what it carries is local to the call. -/
inductive Resumer where
  | waiting
  | refused (error : XervError)
  | taken (suspended : SuspendedTraceState)
  | opened (suspended : SuspendedTraceState)
  | replayed (suspended : SuspendedTraceState) (recovery : Option TraceRecoveryState)
  | rebuilt (trace : ActiveTrace)
  | inserted (trace : ActiveTrace)
  | logged (trace : ActiveTrace)
  | executing (trace : ActiveTrace) (found : Option ActiveTrace)
  | failed (error : XervError)

structure Handoff where
  store : MemorySuspensionStore
  traces : Table TraceId ActiveTrace
  wal : List WalRecord
  locked : Keys String
  suspender : Suspender
  resumer : Resumer

inductive HandoffStep where
  | flush
  | store
  | log
  | release
  | remove
  | drop
  | take
  | openArena
  | replay
  | writeDecision
  | insert
  | logResume
  | execute

/-- The guard is taken before the arena is flushed and dropped after the record is written. -/
def Suspender.holdsGuard : Suspender → Bool
  | .entered | .flushed | .stored | .logged => true
  | _ => false

namespace Resumer

/-- The store has given the suspension out. -/
def accepted : Resumer → Bool
  | .waiting | .refused _ => false
  | _ => true

def executes : Resumer → Bool
  | .executing _ _ => true
  | _ => false

def ended : Resumer → Bool
  | .executing _ _ | .failed _ => true
  | _ => false

/-- The execution begins and finds the trace that the resume has inserted. -/
def CarriedOut : Resumer → Prop
  | .executing trace found => found = some trace
  | _ => False

theorem CarriedOut.executes {r : Resumer} (h : r.CarriedOut) : r.executes = true := by
  cases r with
  | executing trace found => rfl
  | _ => exact h.elim

end Resumer

namespace Handoff
variable (calls : HandoffCalls)

/-- `trace` is active and owns the arena whose path the suspension names. -/
def start (store : MemorySuspensionStore) (traces : Table TraceId ActiveTrace) (wal : List WalRecord)
    (locked : Keys String) (state : TraceState) : Handoff where
  store := store
  traces := traces.insert calls.suspended.traceId ⟨state, calls.suspended.arenaPath⟩
  wal := wal
  locked := locked.insert calls.suspended.arenaPath
  suspender := .entered
  resumer := .waiting

/-- A trace state that is dropped drops its arena, and with it the lock on the file. -/
def dropTrace (locked : Keys String) : Option ActiveTrace → Keys String
  | none => locked
  | some trace => locked.remove trace.arenaPath

/-- `Arena::open` of the resume. -/
def openAnswer (h : Handoff) (path : String) : Except String Unit :=
  if h.locked path then .error calls.lockRefused else calls.env.arenaOpen

/-- The resume gives up; an arena that it had opened is dropped. -/
def fail (h : Handoff) (path : Option String) (e : XervError) : Handoff :=
  { h with locked := path.elim h.locked h.locked.remove, resumer := .failed e }

def suspend (h : Handoff) (a : HandoffStep) : Option Handoff :=
  match a, h.suspender with
  | .flush, .entered =>
    match calls.flush with
    | .error e => some { h with suspender := .failed e }
    | .ok () => some { h with suspender := .flushed }
  | .store, .flushed =>
    match h.store.suspend calls.suspended with
    | .error e => some { h with suspender := .failed e }
    | .ok store => some { h with store := store, suspender := .stored }
  | .log, .stored =>
    match calls.walWrite with
    | .error e => some { h with suspender := .failed (.walWrite e.traceId e.cause) }
    | .ok () => some { h with wal := h.wal ++ [calls.record], suspender := .logged }
  | .release, .logged => some { h with suspender := .released }
  | .remove, .released =>
    some { h with
      traces := h.traces.remove calls.suspended.traceId
      suspender := .removed (h.traces calls.suspended.traceId) }
  | .drop, .removed trace => some { h with locked := dropTrace h.locked trace, suspender := .done }
  | _, _ => none

def resume (h : Handoff) (a : HandoffStep) : Option Handoff :=
  match a, h.resumer with
  | .take, .waiting =>
    match h.store.resume calls.suspended.hookId calls.decision with
    | .error e => some { h with resumer := .refused e }
    | .ok (suspended, store) => some { h with store := store, resumer := .taken suspended }
  | .openArena, .taken suspended =>
    match h.openAnswer calls suspended.arenaPath with
    | .error e =>
      some (h.fail none (.arenaCreate suspended.arenaPath
        ("Failed to reopen arena for suspended trace: " ++ e)))
    | .ok () =>
      some { h with locked := h.locked.insert suspended.arenaPath, resumer := .opened suspended }
  | .replay, .opened suspended =>
    match calls.env.incomplete with
    | .error e => some (h.fail (some suspended.arenaPath) e)
    | .ok incomplete =>
      some { h with resumer := .replayed suspended (incomplete suspended.traceId) }
  | .writeDecision, .replayed suspended recovery =>
    match calls.env.decisionPtr calls.decision with
    | .error e => some (h.fail (some suspended.arenaPath) e)
    | .ok data =>
      some { h with
        resumer := .rebuilt ⟨resumedState suspended recovery calls.decision data, suspended.arenaPath⟩ }
  | .insert, .rebuilt trace =>
    if h.suspender.holdsGuard then none
    else
      -- what was stored under the key is dropped
      some { h with
        traces := h.traces.insert trace.state.traceId trace
        locked := dropTrace h.locked (h.traces trace.state.traceId)
        resumer := .inserted trace }
  | .logResume, .inserted trace =>
    match calls.env.walWrite with
    | .error e => some (h.fail none (.walWrite e.traceId e.cause))
    | .ok () =>
      some { h with
        wal := h.wal ++ [.traceResumed trace.state.traceId calls.env.now]
        resumer := .logged trace }
  | .execute, .logged trace =>
    some { h with resumer := .executing trace (h.traces trace.state.traceId) }
  | _, _ => none

/-- The steps of the suspender come first in `HandoffStep`, those of the resumer behind them. -/
def step (h : Handoff) (a : HandoffStep) : Option Handoff :=
  match a with
  | .flush | .store | .log | .release | .remove | .drop => h.suspend calls a
  | _ => h.resume calls a

/-- The step costs the resume its trace: `Arena::open` meets the lock of the suspended trace, something
that the resume asks for fails, or the suspender removes what the resume has inserted. -/
def strands (h : Handoff) (a : HandoffStep) : Bool :=
  match a, h.resumer with
  | .openArena, .taken suspended => !(h.openAnswer calls suspended.arenaPath).isOk
  | .replay, .opened _ => !calls.env.incomplete.isOk
  | .writeDecision, .replayed _ _ => !(calls.env.decisionPtr calls.decision).isOk
  | .logResume, .inserted _ => !calls.env.walWrite.isOk
  | .remove, .inserted trace | .remove, .logged trace => trace.state.traceId = calls.suspended.traceId
  | _, _ => false

/-- What a resume that has not ended, or has, shows of the strandings so far. -/
def Tracked (stranded : Bool) (h : Handoff) : Prop :=
  match h.resumer with
  | .inserted trace | .logged trace =>
    h.traces trace.state.traceId = if stranded then none else some trace
  | .executing trace found => found = if stranded then none else some trace
  | .failed _ => stranded = true
  | _ => stranded = false

variable {calls} {h h' : Handoff} {a : HandoffStep} {stranded : Bool}

/-! ### Steps of the suspender -/

/-- What a step of the suspender leaves alone, and what it may change. -/
structure Suspends (calls : HandoffCalls) (h : Handoff) (a : HandoffStep) (h' : Handoff) : Prop where
  resumer : h'.resumer = h.resumer
  store : h'.store = h.store ∨ h.store.suspend calls.suspended = .ok h'.store
  traces : h'.traces = h.traces ∧ a ≠ .remove ∨
    a = .remove ∧ h'.traces = h.traces.remove calls.suspended.traceId
  running : h.suspender ≠ .done
  locked : h'.suspender = .done ∨ h'.locked = h.locked

theorem suspend_cases (hs : h.suspend calls a = some h') : Suspends calls h a h' := by
  unfold suspend at hs
  split at hs
  · rename_i hsusp
    split at hs
    · cases hs
      exact ⟨rfl, .inl rfl, .inl ⟨rfl, nofun⟩, by rw [hsusp]; nofun, .inr rfl⟩
    · cases hs
      exact ⟨rfl, .inl rfl, .inl ⟨rfl, nofun⟩, by rw [hsusp]; nofun, .inr rfl⟩
  · rename_i hsusp
    split at hs
    · cases hs
      exact ⟨rfl, .inl rfl, .inl ⟨rfl, nofun⟩, by rw [hsusp]; nofun, .inr rfl⟩
    · rename_i store hstore
      cases hs
      exact ⟨rfl, .inr hstore, .inl ⟨rfl, nofun⟩, by rw [hsusp]; nofun, .inr rfl⟩
  · rename_i hsusp
    split at hs
    · cases hs
      exact ⟨rfl, .inl rfl, .inl ⟨rfl, nofun⟩, by rw [hsusp]; nofun, .inr rfl⟩
    · cases hs
      exact ⟨rfl, .inl rfl, .inl ⟨rfl, nofun⟩, by rw [hsusp]; nofun, .inr rfl⟩
  · rename_i hsusp
    cases hs
    exact ⟨rfl, .inl rfl, .inl ⟨rfl, nofun⟩, by rw [hsusp]; nofun, .inr rfl⟩
  · rename_i hsusp
    cases hs
    exact ⟨rfl, .inl rfl, .inr ⟨rfl, rfl⟩, by rw [hsusp]; nofun, .inr rfl⟩
  · rename_i hsusp
    cases hs
    exact ⟨rfl, .inl rfl, .inl ⟨rfl, nofun⟩, by rw [hsusp]; nofun, .inl rfl⟩
  · cases hs

theorem Tracked.keep (ht : Tracked stranded h) (hresumer : h'.resumer = h.resumer)
    (htraces : h'.traces = h.traces) : Tracked stranded h' := by
  unfold Tracked at ht ⊢
  rw [hresumer, htraces]
  exact ht

theorem Tracked.remove (ht : Tracked stranded h) (hresumer : h'.resumer = h.resumer)
    (htraces : h'.traces = h.traces.remove calls.suspended.traceId) :
    Tracked (stranded || strands calls h .remove) h' := by
  have hentry (trace : ActiveTrace)
      (htrace : h.traces trace.state.traceId = if stranded then none else some trace) :
      h.traces.remove calls.suspended.traceId trace.state.traceId =
        if stranded || decide (trace.state.traceId = calls.suspended.traceId) then none
        else some trace := by
    by_cases he : trace.state.traceId = calls.suspended.traceId
    · simp [he]
    · simp [he, htrace]
  unfold Tracked strands at *
  rw [hresumer, htraces]
  cases hr : h.resumer with
  | inserted trace =>
    rw [hr] at ht
    exact hentry trace ht
  | logged trace =>
    rw [hr] at ht
    exact hentry trace ht
  | _ => simpa [hr] using ht

theorem tracked_suspend (ht : Tracked stranded h) (hs : h.suspend calls a = some h') :
    Tracked (stranded || strands calls h a) h' := by
  have hsuspends := suspend_cases hs
  obtain ⟨htraces, hother⟩ | ⟨rfl, htraces⟩ := hsuspends.traces
  · have hcalm : strands calls h a = false := by
      unfold suspend at hs
      cases a with
      | remove => exact absurd rfl hother
      | flush => rfl
      | store => rfl
      | log => rfl
      | release => rfl
      | drop => rfl
      | _ => cases hs
    rw [hcalm, Bool.or_false]
    exact ht.keep hsuspends.resumer htraces
  · exact ht.remove hsuspends.resumer htraces

/-! ### Steps of the resumer -/

theorem tracked_fail (path : Option String) (e : XervError) {b : Bool} (hb : b = true) :
    Tracked (stranded || b) (h.fail path e) := by
  change (stranded || b) = true
  rw [hb, Bool.or_true]

theorem tracked_resume (ht : Tracked stranded h) (hs : h.resume calls a = some h') :
    Tracked (stranded || strands calls h a) h' := by
  unfold resume at hs
  unfold strands
  split at hs
  · rename_i hr
    unfold Tracked at ht
    rw [hr] at ht ⊢
    rw [Bool.or_false]
    split at hs
    · cases hs
      exact ht
    · cases hs
      exact ht
  · rename_i suspended hr
    simp only [hr]
    split at hs
    · rename_i e hopen
      cases hs
      exact tracked_fail none _ (by rw [hopen]; rfl)
    · rename_i hopen
      cases hs
      unfold Tracked at ht
      rw [hr] at ht
      rw [hopen]
      exact Bool.or_eq_false_iff.mpr ⟨ht, rfl⟩
  · rename_i suspended hr
    simp only [hr]
    split at hs
    · rename_i e hread
      cases hs
      exact tracked_fail _ _ (by rw [hread]; rfl)
    · rename_i incomplete hread
      cases hs
      unfold Tracked at ht
      rw [hr] at ht
      rw [hread]
      exact Bool.or_eq_false_iff.mpr ⟨ht, rfl⟩
  · rename_i suspended recovery hr
    simp only [hr]
    split at hs
    · rename_i e hdata
      cases hs
      exact tracked_fail _ _ (by rw [hdata]; rfl)
    · rename_i data hdata
      cases hs
      unfold Tracked at ht
      rw [hr] at ht
      rw [hdata]
      exact Bool.or_eq_false_iff.mpr ⟨ht, rfl⟩
  · rename_i trace hr
    unfold Tracked at ht
    rw [hr] at ht ⊢
    rw [Bool.or_false]
    split at hs
    · cases hs
    · cases hs
      subst ht
      exact Table.insert_self _ _ _
  · rename_i trace hr
    simp only [hr]
    split at hs
    · rename_i e hwrite
      cases hs
      exact tracked_fail none _ (by rw [hwrite]; rfl)
    · rename_i hwrite
      cases hs
      unfold Tracked at ht
      rw [hr] at ht
      rw [hwrite]
      change h.traces _ = if stranded || false then none else some trace
      rw [Bool.or_false]
      exact ht
  · rename_i trace hr
    cases hs
    unfold Tracked at ht
    rw [hr] at ht ⊢
    rw [Bool.or_false]
    exact ht
  · cases hs

theorem tracked_step (ht : Tracked stranded h) (hs : step calls h a = some h') :
    Tracked (stranded || strands calls h a) h' := by
  unfold step at hs
  split at hs
  case h_7 => exact tracked_resume ht hs
  all_goals exact tracked_suspend ht hs

/-! ### The steps of the resumer one by one -/

section Equations
variable {suspended : SuspendedTraceState} {store : MemorySuspensionStore} {recovery : Option TraceRecoveryState}
  {trace : ActiveTrace}

theorem take_refused (hr : h.resumer = .waiting) {e : XervError}
    (htake : h.store.resume calls.suspended.hookId calls.decision = .error e) :
    step calls h .take = some { h with resumer := .refused e } := by
  unfold step resume
  simp only [hr, htake]

theorem take_given (hr : h.resumer = .waiting)
    (htake : h.store.resume calls.suspended.hookId calls.decision = .ok (suspended, store)) :
    step calls h .take = some { h with store := store, resumer := .taken suspended } := by
  unfold step resume
  simp only [hr, htake]

theorem openArena_refused (hr : h.resumer = .taken suspended) {e : String}
    (hopen : h.openAnswer calls suspended.arenaPath = .error e) :
    step calls h .openArena = some (h.fail none (.arenaCreate suspended.arenaPath
      ("Failed to reopen arena for suspended trace: " ++ e))) := by
  unfold step resume
  simp only [hr, hopen]

theorem openArena_opened (hr : h.resumer = .taken suspended)
    (hopen : h.openAnswer calls suspended.arenaPath = .ok ()) :
    step calls h .openArena =
      some { h with locked := h.locked.insert suspended.arenaPath, resumer := .opened suspended } := by
  unfold step resume
  simp only [hr, hopen]

theorem replay_failed (hr : h.resumer = .opened suspended) {e : XervError} (hread : calls.env.incomplete = .error e) :
    step calls h .replay = some (h.fail (some suspended.arenaPath) e) := by
  unfold step resume
  simp only [hr, hread]

theorem replay_read (hr : h.resumer = .opened suspended) {incomplete : Table TraceId TraceRecoveryState}
    (hread : calls.env.incomplete = .ok incomplete) :
    step calls h .replay = some { h with resumer := .replayed suspended (incomplete suspended.traceId) } := by
  unfold step resume
  simp only [hr, hread]

theorem writeDecision_failed (hr : h.resumer = .replayed suspended recovery) {e : XervError}
    (hdata : calls.env.decisionPtr calls.decision = .error e) :
    step calls h .writeDecision = some (h.fail (some suspended.arenaPath) e) := by
  unfold step resume
  simp only [hr, hdata]

theorem writeDecision_written (hr : h.resumer = .replayed suspended recovery) {data : RelPtr}
    (hdata : calls.env.decisionPtr calls.decision = .ok data) :
    step calls h .writeDecision = some { h with
      resumer := .rebuilt ⟨resumedState suspended recovery calls.decision data, suspended.arenaPath⟩ } := by
  unfold step resume
  simp only [hr, hdata]

theorem insert_unguarded (hr : h.resumer = .rebuilt trace) (hfree : h.suspender.holdsGuard = false) :
    step calls h .insert = some { h with
      traces := h.traces.insert trace.state.traceId trace
      locked := dropTrace h.locked (h.traces trace.state.traceId)
      resumer := .inserted trace } := by
  unfold step resume
  simp only [hr, hfree, Bool.false_eq_true, if_false]

theorem logResume_failed (hr : h.resumer = .inserted trace) {e : WalWriteError} (hwrite : calls.env.walWrite = .error e) :
    step calls h .logResume = some (h.fail none (.walWrite e.traceId e.cause)) := by
  unfold step resume
  simp only [hr, hwrite]

theorem logResume_written (hr : h.resumer = .inserted trace) (hwrite : calls.env.walWrite = .ok ()) :
    step calls h .logResume = some { h with
      wal := h.wal ++ [.traceResumed trace.state.traceId calls.env.now]
      resumer := .logged trace } := by
  unfold step resume
  simp only [hr, hwrite]

theorem execute_logged (hr : h.resumer = .logged trace) :
    step calls h .execute = some { h with resumer := .executing trace (h.traces trace.state.traceId) } := by
  unfold step resume
  simp only [hr]

end Equations

/-! ### The resume comes to an end -/

variable (calls) in
/-- From here the two calls can go on until the resume has ended. -/
def Ends (h : Handoff) : Prop :=
  ∃ more h', Machine.run (step calls) h more = some h' ∧ h'.resumer.ended = true

theorem Ends.of_ended (hend : h.resumer.ended = true) : Ends calls h := ⟨[], h, rfl, hend⟩

theorem Ends.before (a : HandoffStep) (hs : step calls h a = some h') (hends : Ends calls h') :
    Ends calls h := by
  obtain ⟨more, last, hrun, hend⟩ := hends
  exact ⟨a :: more, last, (Machine.run_cons hs more).trans hrun, hend⟩

section Ends
variable {suspended : SuspendedTraceState} {recovery : Option TraceRecoveryState} {trace : ActiveTrace}

theorem ends_logged (hr : h.resumer = .logged trace) : Ends calls h :=
  .before .execute (execute_logged hr) (.of_ended rfl)

theorem ends_inserted (hr : h.resumer = .inserted trace) : Ends calls h := by
  cases hwrite : calls.env.walWrite with
  | error e => exact .before .logResume (logResume_failed hr hwrite) (.of_ended rfl)
  | ok u => exact .before .logResume (logResume_written hr hwrite) (ends_logged rfl)

theorem ends_unguarded (hr : h.resumer = .rebuilt trace) (hfree : h.suspender.holdsGuard = false) :
    Ends calls h :=
  .before .insert (insert_unguarded hr hfree) (ends_inserted rfl)

theorem ends_rebuilt (hr : h.resumer = .rebuilt trace) : Ends calls h := by
  have hlogged (h₁ : Handoff) (hr₁ : h₁.resumer = .rebuilt trace) (hsusp : h₁.suspender = .logged) :
      Ends calls h₁ := by
    have hs : step calls h₁ .release = some { h₁ with suspender := .released } := by
      simp only [step, suspend, hsusp]
    exact .before .release hs (ends_unguarded hr₁ rfl)
  have hstored (h₁ : Handoff) (hr₁ : h₁.resumer = .rebuilt trace) (hsusp : h₁.suspender = .stored) :
      Ends calls h₁ := by
    cases hwrite : calls.walWrite with
    | error e =>
      have hs : step calls h₁ .log = some { h₁ with suspender := .failed (.walWrite e.traceId e.cause) } := by
        simp only [step, suspend, hsusp, hwrite]
      exact .before .log hs (ends_unguarded hr₁ rfl)
    | ok u =>
      have hs : step calls h₁ .log =
          some { h₁ with wal := h₁.wal ++ [calls.record], suspender := .logged } := by
        simp only [step, suspend, hsusp, hwrite]
      exact .before .log hs (hlogged _ hr₁ rfl)
  have hflushed (h₁ : Handoff) (hr₁ : h₁.resumer = .rebuilt trace) (hsusp : h₁.suspender = .flushed) :
      Ends calls h₁ := by
    cases hstore : h₁.store.suspend calls.suspended with
    | error e =>
      have hs : step calls h₁ .store = some { h₁ with suspender := .failed e } := by
        simp only [step, suspend, hsusp, hstore]
      exact .before .store hs (ends_unguarded hr₁ rfl)
    | ok store =>
      have hs : step calls h₁ .store = some { h₁ with store := store, suspender := .stored } := by
        simp only [step, suspend, hsusp, hstore]
      exact .before .store hs (hstored _ hr₁ rfl)
  cases hsusp : h.suspender with
  | entered =>
    cases hflush : calls.flush with
    | error e =>
      have hs : step calls h .flush = some { h with suspender := .failed e } := by
        simp only [step, suspend, hsusp, hflush]
      exact .before .flush hs (ends_unguarded hr rfl)
    | ok u =>
      have hs : step calls h .flush = some { h with suspender := .flushed } := by
        simp only [step, suspend, hsusp, hflush]
      exact .before .flush hs (hflushed _ hr rfl)
  | flushed => exact hflushed h hr hsusp
  | stored => exact hstored h hr hsusp
  | logged => exact hlogged h hr hsusp
  | _ => exact ends_unguarded hr (by rw [hsusp]; rfl)

theorem ends_replayed (hr : h.resumer = .replayed suspended recovery) : Ends calls h := by
  cases hdata : calls.env.decisionPtr calls.decision with
  | error e => exact .before .writeDecision (writeDecision_failed hr hdata) (.of_ended rfl)
  | ok data => exact .before .writeDecision (writeDecision_written hr hdata) (ends_rebuilt rfl)

theorem ends_opened (hr : h.resumer = .opened suspended) : Ends calls h := by
  cases hread : calls.env.incomplete with
  | error e => exact .before .replay (replay_failed hr hread) (.of_ended rfl)
  | ok incomplete => exact .before .replay (replay_read hr hread) (ends_replayed rfl)

theorem ends_taken (hr : h.resumer = .taken suspended) : Ends calls h := by
  cases hopen : h.openAnswer calls suspended.arenaPath with
  | error e => exact .before .openArena (openArena_refused hr hopen) (.of_ended rfl)
  | ok u => exact .before .openArena (openArena_opened hr hopen) (ends_opened rfl)

end Ends

theorem accepted_ends (haccepted : h.resumer.accepted = true) : Ends calls h := by
  cases hr : h.resumer with
  | waiting =>
    rw [hr] at haccepted
    cases haccepted
  | refused e =>
    rw [hr] at haccepted
    cases haccepted
  | taken suspended => exact ends_taken hr
  | opened suspended => exact ends_opened hr
  | replayed suspended recovery => exact ends_replayed hr
  | rebuilt trace => exact ends_rebuilt hr
  | inserted trace => exact ends_inserted hr
  | logged trace => exact ends_logged hr
  | executing trace found => exact .of_ended (by rw [hr]; rfl)
  | failed e => exact .of_ended (by rw [hr]; rfl)

/-! ### The resumer on its own is `resume_suspended_trace` -/

def runtime (h : Handoff) : Runtime := ⟨some h.store, h.traces.mapValues ActiveTrace.state, h.wal⟩

variable (calls) in
/-- What the whole call is answered if it runs now. -/
def answers (h : Handoff) : ResumeEnv :=
  { calls.env with
    arenaOpen := match h.store.suspensions calls.suspended.hookId with
      | none => calls.env.arenaOpen
      | some suspended => h.openAnswer calls suspended.arenaPath }

/-- The resumer has come to where the call returns this, or calls `execute_trace`. -/
def Returns : Resumer → Except XervError TraceId → Prop
  | .refused e, .error e' | .failed e, .error e' => e = e'
  | .logged trace, .ok traceId => trace.state.traceId = traceId
  | _, _ => False

theorem mapValues_insert (traces : Table TraceId ActiveTrace) (traceId : TraceId) (trace : ActiveTrace) :
    (traces.insert traceId trace).mapValues ActiveTrace.state =
      (traces.mapValues ActiveTrace.state).insert traceId trace.state := by
  funext id
  unfold Table.mapValues Table.insert
  split
  · rfl
  · rfl

/-- Where nothing comes in between, the steps of the resumer are the whole call. -/
theorem resumer_alone (hwaiting : h.resumer = .waiting) (hfree : h.suspender.holdsGuard = false) :
    ∃ actions h', Machine.run (step calls) h actions = some h' ∧
      h'.runtime = (resumeSuspendedTrace h.runtime calls.suspended.hookId calls.decision
        (h.answers calls)).1 ∧
      Returns h'.resumer (resumeSuspendedTrace h.runtime calls.suspended.hookId calls.decision
        (h.answers calls)).2 := by
  unfold resumeSuspendedTrace
  cases htake : h.store.resume calls.suspended.hookId calls.decision with
  | error e =>
    simp only [runtime, htake]
    exact ⟨[.take], _, Machine.run_cons (take_refused hwaiting htake) [], rfl, rfl⟩
  | ok given =>
    obtain ⟨suspended, store⟩ := given
    have hfound : h.store.suspensions calls.suspended.hookId = some suspended := by
      unfold MemorySuspensionStore.resume at htake
      split at htake
      · cases htake
      · rename_i found
        cases htake
        exact found
    have hanswer : (h.answers calls).arenaOpen = h.openAnswer calls suspended.arenaPath := by
      unfold answers
      rw [hfound]
    have hincomplete : (h.answers calls).incomplete = calls.env.incomplete := rfl
    have hptr : (h.answers calls).decisionPtr calls.decision = calls.env.decisionPtr calls.decision := rfl
    have hresumed : (h.answers calls).walWrite = calls.env.walWrite := rfl
    simp only [runtime, htake, hanswer, hincomplete, hptr, hresumed]
    have htaken := Machine.run_cons (take_given hwaiting htake)
    cases hopen : h.openAnswer calls suspended.arenaPath with
    | error e =>
      have hrefused := openArena_refused (h := { h with store := store, resumer := .taken suspended }) rfl hopen
      exact ⟨[.take, .openArena], _, (htaken _).trans (Machine.run_cons hrefused []), rfl, rfl⟩
    | ok u =>
      have hopened := openArena_opened (h := { h with store := store, resumer := .taken suspended }) rfl hopen
      have hrun₂ (more : List HandoffStep) := (htaken _).trans (Machine.run_cons hopened more)
      cases hread : calls.env.incomplete with
      | error e =>
        exact ⟨[.take, .openArena, .replay], _, (hrun₂ _).trans (Machine.run_cons (replay_failed rfl hread) []),
          rfl, rfl⟩
      | ok incomplete =>
        have hrun₃ (more : List HandoffStep) := (hrun₂ _).trans (Machine.run_cons (replay_read rfl hread) more)
        cases hdata : calls.env.decisionPtr calls.decision with
        | error e =>
          exact ⟨[.take, .openArena, .replay, .writeDecision], _,
            (hrun₃ _).trans (Machine.run_cons (writeDecision_failed rfl hdata) []), rfl, rfl⟩
        | ok data =>
          have hrun₄ (more : List HandoffStep) :=
            (hrun₃ _).trans (Machine.run_cons (writeDecision_written rfl hdata) more)
          have hrun₅ (more : List HandoffStep) :=
            (hrun₄ _).trans (Machine.run_cons (insert_unguarded rfl (by exact hfree)) more)
          cases hwrite : calls.env.walWrite with
          | error e =>
            refine ⟨[.take, .openArena, .replay, .writeDecision, .insert, .logResume], _,
              (hrun₅ _).trans (Machine.run_cons (logResume_failed rfl hwrite) []), ?_, rfl⟩
            simp only [fail, Option.elim_none, mapValues_insert]
            rfl
          | ok u =>
            refine ⟨[.take, .openArena, .replay, .writeDecision, .insert, .logResume], _,
              (hrun₅ _).trans (Machine.run_cons (logResume_written rfl hwrite) []), ?_, ?_⟩
            · simp only [mapValues_insert]
              rfl
            · exact Eq.refl suspended.traceId

/-! ### The lock keeps the insertion behind the removal -/

variable (calls) in
/-- Until the resume has opened the arena, its file is locked unless the suspended trace has been dropped.
What the resume carries of this trace afterwards says that it has been. -/
def Behind (h : Handoff) : Prop :=
  match h.resumer with
  | .waiting =>
    (∀ s, h.store.suspensions calls.suspended.hookId = some s → s.traceId = calls.suspended.traceId →
      s.arenaPath = calls.suspended.arenaPath) ∧
      (h.suspender ≠ .done → h.locked calls.suspended.arenaPath = true)
  | .taken s =>
    (s.traceId = calls.suspended.traceId → s.arenaPath = calls.suspended.arenaPath) ∧
      (h.suspender ≠ .done → h.locked calls.suspended.arenaPath = true)
  | .opened s | .replayed s _ => s.traceId = calls.suspended.traceId → h.suspender = .done
  | .rebuilt trace | .inserted trace | .logged trace | .executing trace _ =>
    trace.state.traceId = calls.suspended.traceId → h.suspender = .done
  | _ => True

theorem Suspends.stillLocked (hs : Suspends calls h a h')
    (hlocked : h.suspender ≠ .done → h.locked calls.suspended.arenaPath = true) (hbusy : h'.suspender ≠ .done) :
    h'.locked calls.suspended.arenaPath = true := by
  rw [hs.locked.resolve_left hbusy]
  exact hlocked hs.running

theorem behind_suspend (hb : Behind calls h) (hs : Suspends calls h a h') : Behind calls h' := by
  unfold Behind at hb ⊢
  rw [hs.resumer]
  cases hr : h.resumer with
  | waiting =>
    rw [hr] at hb
    refine ⟨fun s hsome htrace => ?_, fun hbusy => hs.stillLocked hb.2 hbusy⟩
    rcases hs.store with hstore | hstore
    · rw [hstore] at hsome
      exact hb.1 s hsome htrace
    · -- the suspension that has just been stored
      unfold MemorySuspensionStore.suspend at hstore
      split at hstore
      · cases hstore
      · rw [← Except.ok.inj hstore] at hsome
        rw [← Option.some.inj ((Table.insert_self _ _ _).symm.trans hsome)]
  | taken s =>
    rw [hr] at hb
    exact ⟨hb.1, fun hbusy => hs.stillLocked hb.2 hbusy⟩
  | refused e => trivial
  | failed e => trivial
  | opened s =>
    rw [hr] at hb
    exact fun htrace => absurd (hb htrace) hs.running
  | replayed s recovery =>
    rw [hr] at hb
    exact fun htrace => absurd (hb htrace) hs.running
  | rebuilt trace =>
    rw [hr] at hb
    exact fun htrace => absurd (hb htrace) hs.running
  | inserted trace =>
    rw [hr] at hb
    exact fun htrace => absurd (hb htrace) hs.running
  | logged trace =>
    rw [hr] at hb
    exact fun htrace => absurd (hb htrace) hs.running
  | executing trace found =>
    rw [hr] at hb
    exact fun htrace => absurd (hb htrace) hs.running

theorem behind_resume (hb : Behind calls h) (hs : h.resume calls a = some h') : Behind calls h' := by
  unfold Behind at hb
  unfold resume at hs
  split at hs
  · rename_i hr
    rw [hr] at hb
    split at hs
    · cases hs
      trivial
    · rename_i suspended store htake
      cases hs
      refine ⟨hb.1 suspended ?_, hb.2⟩
      unfold MemorySuspensionStore.resume at htake
      split at htake
      · cases htake
      · rename_i found
        cases htake
        exact found
  · rename_i suspended hr
    rw [hr] at hb
    split at hs
    · cases hs
      trivial
    · rename_i hopen
      cases hs
      intro htrace
      by_contra hbusy
      rw [openAnswer, hb.1 htrace, hb.2 hbusy] at hopen
      cases hopen
  · rename_i suspended hr
    rw [hr] at hb
    split at hs
    · cases hs
      trivial
    · cases hs
      exact hb
  · rename_i suspended recovery hr
    rw [hr] at hb
    split at hs
    · cases hs
      trivial
    · cases hs
      exact hb
  · rename_i trace hr
    rw [hr] at hb
    split at hs
    · cases hs
    · cases hs
      exact hb
  · rename_i trace hr
    rw [hr] at hb
    split at hs
    · cases hs
      trivial
    · cases hs
      exact hb
  · rename_i trace hr
    rw [hr] at hb
    cases hs
    exact hb
  · cases hs

theorem behind_step (hb : Behind calls h) (hs : step calls h a = some h') : Behind calls h' := by
  unfold step at hs
  split at hs
  case h_7 => exact behind_resume hb hs
  all_goals exact behind_suspend hb (suspend_cases hs)

/-- One trace has one arena file: so, whatever the interleaving, a resume inserts the suspended trace again only
after the suspender has removed and dropped it. -/
theorem inserted_behind_removal (store : MemorySuspensionStore) (traces : Table TraceId ActiveTrace)
    (wal : List WalRecord) (locked : Keys String) (state : TraceState) (schedule : List HandoffStep)
    (honeFile : ∀ s, store.suspensions calls.suspended.hookId = some s →
      s.traceId = calls.suspended.traceId → s.arenaPath = calls.suspended.arenaPath)
    (hrun : Machine.run (step calls) (start calls store traces wal locked state) schedule = some h)
    (trace : ActiveTrace) (hr : h.resumer = .inserted trace ∨ h.resumer = .logged trace)
    (htrace : trace.state.traceId = calls.suspended.traceId) : h.suspender = .done := by
  have hstart : Behind calls (start calls store traces wal locked state) :=
    ⟨honeFile, fun _ => Keys.insert_self _ _⟩
  have hend : Behind calls h :=
    Machine.run_invariant (Behind calls) (fun _ _ _ => behind_step) schedule hstart hrun
  unfold Behind at hend
  rcases hr with hr | hr
  · rw [hr] at hend
    exact hend htrace
  · rw [hr] at hend
    exact hend htrace

/-! ### Every interleaving -/

/-- In every interleaving of the two calls, whatever they are answered: a resume that the store has accepted
comes to an end, and there its execution begins with the trace that it has inserted if and only if no step
has stranded it. -/
theorem resume_carried_out_iff (calls : HandoffCalls) (store : MemorySuspensionStore)
    (traces : Table TraceId ActiveTrace) (wal : List WalRecord) (locked : Keys String) (state : TraceState)
    (schedule : List HandoffStep) (h : Handoff)
    (hrun : Machine.run (step calls) (start calls store traces wal locked state) schedule = some h)
    (haccepted : h.resumer.accepted = true) :
    (∃ more h', Machine.run (step calls) h more = some h' ∧ h'.resumer.ended = true) ∧
      (h.resumer.ended = true → (h.resumer.CarriedOut ↔
        Machine.happens (step calls) (strands calls) (start calls store traces wal locked state)
          schedule = false)) := by
  refine ⟨accepted_ends haccepted, fun hend => ?_⟩
  have htracked : Tracked (false || Machine.happens (step calls) (strands calls)
      (start calls store traces wal locked state) schedule) h :=
    Machine.run_flags (strands calls) (fun _ _ => false) (fun b _ => Tracked b)
      (fun _ _ _ _ _ ht hs => tracked_step ht hs) schedule false false rfl hrun
  rw [Bool.false_or] at htracked
  generalize Machine.happens (step calls) (strands calls) (start calls store traces wal locked state)
    schedule = stranded at htracked
  unfold Tracked at htracked
  cases hr : h.resumer with
  | executing trace found =>
    rw [hr] at htracked
    rw [show found = if stranded then none else some trace from htracked]
    cases stranded with
    | false => exact ⟨fun _ => rfl, fun _ => rfl⟩
    | true => exact ⟨nofun, nofun⟩
  | failed e =>
    rw [hr] at htracked
    rw [show stranded = true from htracked]
    exact ⟨False.elim, nofun⟩
  | _ =>
    rw [hr] at hend
    cases hend

end Handoff

def approvalCalls : HandoffCalls where
  suspended := approvalStored
  record := .traceSuspended sampleTrace 1 0
  flush := .ok ()
  walWrite := .ok ()
  decision := .approve none
  env := { unreadableLog with incomplete := .ok Table.empty }
  lockRefused := "Resource temporarily unavailable (os error 11)"

def approvalActive : Handoff :=
  .start approvalCalls .new Table.empty [.traceStart sampleTrace 0] Keys.empty
    (.new sampleTrace "webhook" RelPtr.null)

theorem resume_behind_suspension_is_carried_out :
    ∃ h, Machine.run (Handoff.step approvalCalls) approvalActive
        [.flush, .store, .log, .take, .release, .remove, .drop, .openArena, .replay, .writeDecision,
          .insert, .logResume, .execute] = some h ∧ h.resumer.CarriedOut := by
  have hend : (Machine.run (Handoff.step approvalCalls) approvalActive
      [.flush, .store, .log, .take, .release, .remove, .drop, .openArena, .replay, .writeDecision,
        .insert, .logResume, .execute]).any (fun h => h.resumer.accepted && h.resumer.ended) = true := by
    decide
  obtain ⟨h, hrun, hend⟩ := (Option.any_eq_true _ _).mp hend
  obtain ⟨haccepted, hended⟩ := Bool.and_eq_true_iff.mp hend
  refine ⟨h, hrun, ?_⟩
  exact ((Handoff.resume_carried_out_iff approvalCalls .new Table.empty [.traceStart sampleTrace 0] Keys.empty
    (.new sampleTrace "webhook" RelPtr.null) _ h hrun haccepted).2 hended).mpr (by decide)

/-- The resume finds the hook in the store while the suspender is on its way to the removal: the suspended trace
still locks its arena, the resume fails, and the hook is gone. -/
theorem resume_meets_arena_lock :
    ∃ h, Machine.run (Handoff.step approvalCalls) approvalActive
        [.flush, .store, .log, .take, .openArena, .release, .remove, .drop] = some h ∧
      h.resumer.accepted = true ∧ h.resumer.ended = true ∧ ¬ h.resumer.CarriedOut ∧
      h.store.suspensions "approval" = none := by
  have hend : (Machine.run (Handoff.step approvalCalls) approvalActive
      [.flush, .store, .log, .take, .openArena, .release, .remove, .drop]).any
        (fun h => h.resumer.accepted && h.resumer.ended && !h.resumer.executes &&
          (h.store.suspensions "approval").isNone) = true := by decide
  obtain ⟨h, hrun, hend⟩ := (Option.any_eq_true _ _).mp hend
  simp only [Bool.and_eq_true, Bool.not_eq_true', Option.isNone_iff_eq_none] at hend
  obtain ⟨⟨⟨haccepted, hended⟩, hstill⟩, hgone⟩ := hend
  refine ⟨h, hrun, haccepted, hended, fun hcarried => ?_, hgone⟩
  rw [hcarried.executes] at hstill
  cases hstill

end Xerv
