import Xerv.Lib.Machine
import Xerv.Scheduler.Suspension

/-!
# Timeouts of suspensions (`suspension/timeout.rs`)

`process_expired` reads the expired suspensions and then resumes each in the store, with the decision
of its timeout action. Calls of `resume_suspended_trace` run in between; of what they share with the
processor they touch only the store, and that in one step.
-/

namespace Xerv
open Xerv.Lib

def SuspendedTraceState.isExpired (s : SuspendedTraceState) (now : ℤ) : Bool :=
  s.expiresAt.any fun expiresAt => expiresAt ≤ now

/-- The message that the processor sends. -/
structure TimeoutEvent where
  hookId : String
  traceId : TraceId
  action : TimeoutAction
  pipelineId : String
  deriving DecidableEq

def TimeoutAction.decision : TimeoutAction → ResumeDecision
  | approve => .approve none
  | reject => .reject (some "Timeout: auto-rejected")
  | escalate => .escalate (some (.object [("reason", .string "Timeout: auto-escalated")]))

/-- The executor's state, the expired suspensions that the processor has read and not yet come to, and
what has been sent and decided. -/
structure TimeoutRun where
  rt : Runtime
  expired : List (String × SuspendedTraceState)
  events : List TimeoutEvent
  departures : List (String × ResumeDecision)

inductive TimeoutStep where
  | getExpired (now : ℤ) (order : List String)
  | processExpired (i : ℕ)
  | resumeSuspendedTrace (hookId : String) (decision : ResumeDecision) (env : ResumeEnv)

namespace TimeoutRun

def start (rt : Runtime) : TimeoutRun := ⟨rt, [], [], []⟩

/-- `get_expired`, with the hooks in the order in which the hash map yields them. -/
def getExpired (rt : Runtime) (now : ℤ) (order : List String) : List (String × SuspendedTraceState) :=
  order.filterMap fun hookId =>
    ((rt.suspension hookId).filter fun state => state.isExpired now).map fun state => (hookId, state)

/-- One round of the loop of `process_expired`. -/
def processOne (eventTx : Bool) (x : TimeoutRun) (hookId : String) (state : SuspendedTraceState) :
    TimeoutRun :=
  match x.rt.store with
  | none => x
  | some store =>
    let decision := state.timeoutAction.decision
    match store.resume hookId decision with
    | .error _ => x
    | .ok (resumed, store) =>
      let event := ⟨hookId, resumed.traceId, state.timeoutAction, resumed.pipelineId⟩
      { x with
        rt := { x.rt with store := some store }
        events := if eventTx then x.events ++ [event] else x.events
        departures := x.departures ++ [(hookId, decision)] }

def step (eventTx : Bool) (x : TimeoutRun) : TimeoutStep → Option TimeoutRun
  | .getExpired now order => some { x with expired := x.expired ++ getExpired x.rt now order }
  | .processExpired i =>
    x.expired[i]?.map fun entry =>
      { x with expired := x.expired.eraseIdx i }.processOne eventTx entry.1 entry.2
  | .resumeSuspendedTrace hookId decision env =>
    some { x with
      rt := (resumeSuspendedTrace x.rt hookId decision env).1
      departures :=
        if (x.rt.suspension hookId).isSome then x.departures ++ [(hookId, decision)] else x.departures }

/-- The decisions for which the suspension of the hook has left the store. -/
def decisions (x : TimeoutRun) (hookId : String) : List ResumeDecision :=
  (x.departures.filter fun departure => departure.1 = hookId).map Prod.snd

/-- A resume with the decision finds the suspension and puts the trace back, with the output of the
waiting node on the decision's port. -/
def Continuable (rt : Runtime) (hookId : String) (suspended : SuspendedTraceState)
    (decision : ResumeDecision) : Prop :=
  ∀ env : ResumeEnv, env.Sound decision → ∃ state data,
    (resumeSuspendedTrace rt hookId decision env).2 = .ok suspended.traceId ∧
      (resumeSuspendedTrace rt hookId decision env).1.traces suspended.traceId = some state ∧
      state.outputs suspended.suspendedAt = some (.complete decision.outputPort data 0)

def handled (x : TimeoutRun) : TimeoutStep → Option (String × ResumeDecision)
  | .processExpired i =>
    (x.expired[i]?.filter fun entry => (x.rt.suspension entry.1).isSome).map fun entry =>
      (entry.1, entry.2.timeoutAction.decision)
  | _ => none

/-- The suspension is as it was at the start, or has left the store for exactly one decision. -/
def DecidedOnce (rt : Runtime) (x : TimeoutRun) : Prop :=
  ∀ hookId, (x.rt.suspension hookId = rt.suspension hookId ∧ x.decisions hookId = []) ∨
    ((rt.suspension hookId).isSome = true ∧ x.rt.suspension hookId = none ∧
      ∃ decision, x.decisions hookId = [decision])

/-- Suspensions leave for one decision each, and what the processor has decided can be carried out. -/
structure CarriedOut (eventTx : Bool) (rt : Runtime) (actions : List TimeoutStep) : Prop where
  once : ∀ before x, before <+: actions → Machine.run (step eventTx) (start rt) before = some x →
    x.DecidedOnce rt
  continued : ∀ before a x x' hookId decision suspended, before ++ [a] <+: actions →
    Machine.run (step eventTx) (start rt) before = some x → x.step eventTx a = some x' →
    x.handled a = some (hookId, decision) → x.rt.suspension hookId = some suspended →
    Continuable x'.rt hookId suspended decision

def timesOut (x : TimeoutRun) (a : TimeoutStep) : Bool := (x.handled a).isSome

/-! ### Leaving the store -/

section Departures
variable {rt : Runtime} {hookId : String} {eventTx : Bool} {x x' : TimeoutRun}

theorem resume_store {store : MemorySuspensionStore} {suspended : SuspendedTraceState}
    (decision : ResumeDecision) (env : ResumeEnv) (hs : rt.store = some store)
    (hget : store.suspensions hookId = some suspended) :
    (resumeSuspendedTrace rt hookId decision env).1.store =
      some ⟨store.suspensions.remove hookId, store.pendingResumes.insert hookId decision⟩ := by
  unfold resumeSuspendedTrace
  simp only [hs, MemorySuspensionStore.resume, hget]
  split
  · rfl
  · split
    · rfl
    · split
      · rfl
      · split
        · rfl
        · rfl

theorem suspension_removed {store : MemorySuspensionStore} {rt' : Runtime} {pending : Table String ResumeDecision}
    (hs : rt.store = some store) (hs' : rt'.store = some ⟨store.suspensions.remove hookId, pending⟩)
    (other : String) :
    rt'.suspension other = if other = hookId then none else rt.suspension other := by
  unfold Runtime.suspension
  rw [hs, hs', Option.bind_some, Option.bind_some]
  rfl

/-- No suspension leaves the store, or one does, for one decision. -/
inductive Departs (x x' : TimeoutRun) : Prop
  | none (hrest : ∀ hookId, x'.rt.suspension hookId = x.rt.suspension hookId)
      (hdepartures : x'.departures = x.departures)
  | one (hookId : String) (decision : ResumeDecision) (hstored : (x.rt.suspension hookId).isSome = true)
      (hrest : ∀ other, x'.rt.suspension other = if other = hookId then Option.none else x.rt.suspension other)
      (hdepartures : x'.departures = x.departures ++ [(hookId, decision)])

theorem processOne_departs (state : SuspendedTraceState) : Departs x (x.processOne eventTx hookId state) := by
  unfold processOne
  cases hs : x.rt.store with
  | none => exact .none (fun _ => rfl) rfl
  | some store =>
    cases hget : store.suspensions hookId with
    | none =>
      simp only [MemorySuspensionStore.resume, hget]
      exact .none (fun _ => rfl) rfl
    | some suspended =>
      simp only [MemorySuspensionStore.resume, hget]
      refine .one hookId state.timeoutAction.decision ?_ (suspension_removed hs rfl) rfl
      rw [Runtime.suspension, hs, Option.bind_some, hget]
      rfl

theorem resume_departs (decision : ResumeDecision) (env : ResumeEnv)
    (hs : x.step eventTx (.resumeSuspendedTrace hookId decision env) = some x') : Departs x x' := by
  cases hs
  cases hsusp : x.rt.suspension hookId with
  | none =>
    refine .none (fun other => ?_) rfl
    rw [resume_unknown decision env hsusp]
  | some suspended =>
    obtain ⟨store, hstore, hget⟩ := Option.bind_eq_some_iff.mp hsusp
    refine .one hookId decision (by rw [hsusp]; rfl) ?_ rfl
    exact suspension_removed hstore (resume_store decision env hstore hget)

theorem step_departs (a : TimeoutStep) (hs : x.step eventTx a = some x') : Departs x x' := by
  cases a with
  | getExpired now order =>
    cases hs
    exact .none (fun _ => rfl) rfl
  | processExpired i =>
    obtain ⟨entry, -, rfl⟩ := Option.map_eq_some_iff.mp hs
    have hone : Departs { x with expired := x.expired.eraseIdx i }
        ({ x with expired := x.expired.eraseIdx i }.processOne eventTx entry.1 entry.2) :=
      processOne_departs entry.2
    cases hone with
    | none hrest hdepartures => exact .none hrest hdepartures
    | one hookId decision hstored hrest hdepartures => exact .one hookId decision hstored hrest hdepartures
  | resumeSuspendedTrace hookId decision env => exact resume_departs decision env hs

theorem decisions_concat {hook : String} {decision : ResumeDecision}
    (h : x'.departures = x.departures ++ [(hook, decision)]) (other : String) :
    x'.decisions other = x.decisions other ++ if hook = other then [decision] else [] := by
  unfold decisions
  rw [h, List.filter_append, List.map_append]
  by_cases hhook : hook = other
  · simp [hhook]
  · simp [hhook]

theorem DecidedOnce.step (h : x.DecidedOnce rt) (a : TimeoutStep) (hs : x.step eventTx a = some x') :
    x'.DecidedOnce rt := by
  intro other
  cases step_departs a hs with
  | none hrest hdepartures =>
    have hsame : x'.decisions other = x.decisions other := by rw [decisions, hdepartures]; rfl
    rw [hrest, hsame]
    exact h other
  | one hook decision hstored hrest hdepartures =>
    rw [hrest, decisions_concat hdepartures]
    by_cases hother : other = hook
    · subst hother
      rw [if_pos rfl, if_pos rfl]
      rcases h other with ⟨hsame, hnone⟩ | ⟨-, hgone, -⟩
      · rw [hnone]
        exact .inr ⟨hsame ▸ hstored, rfl, decision, rfl⟩
      · rw [hgone] at hstored
        cases hstored
    · rw [if_neg hother, if_neg (Ne.symm hother), List.append_nil]
      exact h other

/-! ### Carrying the decision out -/

def soundEnv : ResumeEnv where
  arenaOpen := .ok ()
  incomplete := .ok fun _ => none
  toVec _ := .ok []
  writeBytes _ := .ok RelPtr.null
  walWrite := .ok ()
  now := 0

theorem soundEnv_sound (decision : ResumeDecision) : soundEnv.Sound decision := by
  refine ⟨rfl, ⟨_, rfl⟩, ?_, rfl⟩
  unfold ResumeEnv.decisionPtr
  split
  · exact ⟨_, rfl⟩
  · exact ⟨_, rfl⟩

theorem not_continuable (hnone : rt.suspension hookId = none) (suspended : SuspendedTraceState)
    (decision : ResumeDecision) : ¬ Continuable rt hookId suspended decision := by
  intro hcont
  obtain ⟨state, data, hok, -⟩ := hcont soundEnv (soundEnv_sound decision)
  rw [resume_unknown decision soundEnv hnone] at hok
  cases hok

theorem handled_leaves {a : TimeoutStep} {decision : ResumeDecision}
    (hhandled : x.handled a = some (hookId, decision)) (hs : x.step eventTx a = some x') :
    (x.rt.suspension hookId).isSome = true ∧ x'.rt.suspension hookId = none := by
  cases a with
  | processExpired i =>
    obtain ⟨entry, hentry, heq⟩ := Option.map_eq_some_iff.mp hhandled
    obtain ⟨hentry, hstored⟩ := Option.filter_eq_some_iff.mp hentry
    cases heq
    refine ⟨hstored, ?_⟩
    unfold step at hs
    dsimp only at hs
    rw [hentry] at hs
    cases hs
    obtain ⟨suspended, hsusp⟩ := Option.isSome_iff_exists.mp hstored
    obtain ⟨store, hstore, hget⟩ := Option.bind_eq_some_iff.mp hsusp
    unfold processOne
    simp only [hstore, MemorySuspensionStore.resume, hget]
    exact Table.remove_self _ _
  | getExpired now order => cases hhandled
  | resumeSuspendedTrace hook decision env => cases hhandled

/-- For every store content and every interleaving of the processor with resumes of traces: each
suspension that leaves the store does so for one decision, and what the processor has decided can be
carried out by a resume, if and only if the processor handles no suspension that is still stored. -/
theorem carriedOut_iff (eventTx : Bool) (rt : Runtime) (actions : List TimeoutStep) (x : TimeoutRun)
    (hrun : Machine.run (step eventTx) (start rt) actions = some x) :
    CarriedOut eventTx rt actions ↔ Machine.happens (step eventTx) timesOut (start rt) actions = false := by
  rw [Machine.not_happens_iff timesOut actions hrun]
  constructor
  · intro hcarried before a x₁ hpre hbefore
    by_contra htimes
    rw [Bool.not_eq_false] at htimes
    obtain ⟨⟨hook, decision⟩, hhandled⟩ := Option.isSome_iff_exists.mp htimes
    obtain ⟨x₂, hs, -⟩ := Machine.run_next hrun hpre hbefore
    obtain ⟨hstored, hgone⟩ := handled_leaves hhandled hs
    obtain ⟨suspended, hsusp⟩ := Option.isSome_iff_exists.mp hstored
    exact not_continuable hgone suspended decision
      (hcarried.continued before a x₁ x₂ hook decision suspended hpre hbefore hs hhandled hsusp)
  · intro hnone
    refine ⟨fun before x₁ _ hbefore => ?_, fun before a x₁ x₂ hook decision _ hpre hbefore _ hhandled => ?_⟩
    · exact Machine.run_invariant (DecidedOnce rt) (fun _ a _ h hs => h.step a hs) before
        (fun _ => .inl ⟨rfl, rfl⟩) hbefore
    · have hnot := hnone before a x₁ hpre hbefore
      rw [timesOut, hhandled] at hnot
      cases hnot

end Departures

def expiredRuntime : Runtime :=
  { approvalRuntime with
    store := some ⟨Table.empty.insert "approval" (approvalStored.withTimeout 60 .approve 0), Table.empty⟩ }

/-- The approval is given while the processor is on its way to it. -/
def approvedInTime : List TimeoutStep :=
  [.getExpired 60 ["approval"], .resumeSuspendedTrace "approval" (.approve none) soundEnv, .processExpired 0]

theorem approved_in_time_is_carried_out :
    ∃ x, Machine.run (step true) (start expiredRuntime) approvedInTime = some x ∧
      x.decisions "approval" = [.approve none] ∧ CarriedOut true expiredRuntime approvedInTime := by
  have hend : (Machine.run (step true) (start expiredRuntime) approvedInTime).any (fun x =>
      x.decisions "approval" = [.approve none]) = true := by
    decide
  obtain ⟨x, hx, hdecisions⟩ := (Option.any_eq_true _ _).mp hend
  exact ⟨x, hx, of_decide_eq_true hdecisions,
    (carriedOut_iff true expiredRuntime approvedInTime x hx).mpr (by decide)⟩

def timedOut : List TimeoutStep := [.getExpired 60 ["approval"], .processExpired 0]

/-- The approval that the timeout gives has no effect: the trace cannot be resumed any more. -/
theorem timed_out_trace_is_lost :
    ∃ x, Machine.run (step true) (start expiredRuntime) timedOut = some x ∧
      x.decisions "approval" = [.approve none] ∧
      (resumeSuspendedTrace x.rt "approval" (.approve none) soundEnv).2 = .error (.hookNotFound "approval") ∧
      ¬ CarriedOut true expiredRuntime timedOut := by
  have hend : (Machine.run (step true) (start expiredRuntime) timedOut).any (fun x =>
      x.decisions "approval" = [.approve none] ∧ x.rt.suspension "approval" = none) = true := by
    decide
  obtain ⟨x, hx, h⟩ := (Option.any_eq_true _ _).mp hend
  obtain ⟨hdecisions, hgone⟩ := of_decide_eq_true h
  refine ⟨x, hx, hdecisions, by rw [resume_unknown _ _ hgone], fun hcarried => ?_⟩
  obtain ⟨x₁, hx₁, hstep⟩ := Option.bind_eq_some_iff.mp hx
  obtain ⟨x₂, hx₂, hend₂⟩ := Option.bind_eq_some_iff.mp hstep
  cases hend₂
  cases hx₁
  have hcont := hcarried.continued [.getExpired 60 ["approval"]] (.processExpired 0) _ _ "approval"
    (.approve none) (approvalStored.withTimeout 60 .approve 0) List.prefix_rfl rfl hx₂
    (by decide) (by decide)
  exact not_continuable hgone _ _ hcont

end TimeoutRun
end Xerv
