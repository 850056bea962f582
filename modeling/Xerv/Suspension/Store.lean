import Xerv.Lib.Machine
import Xerv.Scheduler.Suspension

/-!
# Concurrent calls of the suspension store (`suspension/store.rs`)

`suspend` looks for the hook id under a read lock and inserts under a write lock of its own; `remove`
takes the locks of the two maps one after the other. `resume` inserts the decision while it still holds
the lock of the suspensions, so it is one step. What the calls have returned is kept in order.
-/

namespace Xerv
open Xerv.Lib

inductive StoreEvent where
  | suspended (hookId : String)
  | resumed (hookId : String)
  | removed (hookId : String)
  deriving DecidableEq

/-- The store, the suspend calls that found no duplicate, the remove calls under way, and what has
happened. -/
structure StoreRun where
  store : MemorySuspensionStore
  checked : List SuspendedTraceState
  removing : List String
  events : List StoreEvent

inductive StoreAction where
  | suspendCheck (state : SuspendedTraceState)
  | suspendInsert (i : ℕ)
  | resume (hookId : String) (decision : ResumeDecision)
  | remove (hookId : String)
  | removeDecision (i : ℕ)

namespace StoreRun

def start : StoreRun := ⟨.new, [], [], []⟩

def step (x : StoreRun) : StoreAction → Option StoreRun
  | .suspendCheck state =>
    -- the call returns `SuspensionFailed`
    if (x.store.suspensions state.hookId).isSome then some x
    else some { x with checked := x.checked ++ [state] }
  | .suspendInsert i =>
    x.checked[i]?.map fun state =>
      { x with
        checked := x.checked.eraseIdx i
        store := { x.store with suspensions := x.store.suspensions.insert state.hookId state }
        events := x.events ++ [.suspended state.hookId] }
  | .resume hookId decision =>
    match x.store.resume hookId decision with
    | .error _ => some x
    | .ok (_, store) => some { x with store, events := x.events ++ [.resumed hookId] }
  | .remove hookId =>
    some { x with
      store := { x.store with suspensions := x.store.suspensions.remove hookId }
      removing := x.removing ++ [hookId]
      events := x.events ++ [.removed hookId] }
  | .removeDecision i =>
    x.removing[i]?.map fun hookId =>
      { x with
        removing := x.removing.eraseIdx i
        store := { x.store with pendingResumes := x.store.pendingResumes.remove hookId } }

/-- Between two suspensions of a hook it was resumed or removed. -/
def Separated (events : List StoreEvent) : Prop :=
  ∀ hookId before between after,
    events = before ++ .suspended hookId :: between ++ .suspended hookId :: after →
      .resumed hookId ∈ between ∨ .removed hookId ∈ between

def clears (hookId : String) : StoreAction → Bool
  | .resume h _ => h = hookId
  | .remove h => h = hookId
  | _ => false

/-- No action but a resume or a remove of the hook changes its suspension. -/
def Kept (x x' : StoreRun) (a : StoreAction) : Prop :=
  ∀ hookId state, x.store.suspensions hookId = some state →
    x'.store.suspensions hookId = some state ∨ clears hookId a = true

/-- One suspension per hook, in every state reached and in every step on the way. -/
structure OnePerHook (actions : List StoreAction) : Prop where
  separated : ∀ before x, before <+: actions → Machine.run step start before = some x → Separated x.events
  kept : ∀ before a x x', before ++ [a] <+: actions → Machine.run step start before = some x →
    x.step a = some x' → x.Kept x' a

/-- A call inserts while the hook is stored: another one has inserted since its own check. -/
def overtaken (x : StoreRun) : StoreAction → Bool
  | .suspendInsert i => x.checked[i]?.any fun state => (x.store.suspensions state.hookId).isSome
  | _ => false

/-! ### What has happened to a hook -/

def StoreEvent.after (hookId : String) (stored : Bool) : StoreEvent → Bool
  | .suspended h => if h = hookId then true else stored
  | .resumed h => if h = hookId then false else stored
  | .removed h => if h = hookId then false else stored

/-- The last thing that happened to the hook is that it was suspended. -/
def live (events : List StoreEvent) (hookId : String) : Bool :=
  events.foldl (StoreEvent.after hookId) false

theorem live_concat (events : List StoreEvent) (e : StoreEvent) (hookId : String) :
    live (events ++ [e]) hookId = StoreEvent.after hookId (live events hookId) e := by
  rw [live, live, List.foldl_append, List.foldl_cons, List.foldl_nil]

theorem after_other {e : StoreEvent} {hookId : String} {stored : Bool} (hsuspended : e ≠ .suspended hookId)
    (hresumed : e ≠ .resumed hookId) (hremoved : e ≠ .removed hookId) :
    StoreEvent.after hookId stored e = stored := by
  cases e with
  | suspended h => exact if_neg fun heq => hsuspended (by rw [heq])
  | resumed h => exact if_neg fun heq => hresumed (by rw [heq])
  | removed h => exact if_neg fun heq => hremoved (by rw [heq])

theorem live_iff (events : List StoreEvent) (hookId : String) :
    live events hookId = true ↔ ∃ before between, events = before ++ .suspended hookId :: between ∧
      .resumed hookId ∉ between ∧ .removed hookId ∉ between := by
  induction events using List.reverseRecOn with
  | nil =>
    refine iff_of_false (fun h => by cases h) ?_
    rintro ⟨before, between, heq, -⟩
    have hlen := congrArg List.length heq
    simp at hlen
  | append_singleton events e ih =>
    rw [live_concat]
    constructor
    · intro hlive
      by_cases hsuspended : e = .suspended hookId
      · exact ⟨events, [], by rw [hsuspended], List.not_mem_nil, List.not_mem_nil⟩
      · have hresumed : e ≠ .resumed hookId := by
          rintro rfl
          rw [StoreEvent.after, if_pos rfl] at hlive
          cases hlive
        have hremoved : e ≠ .removed hookId := by
          rintro rfl
          rw [StoreEvent.after, if_pos rfl] at hlive
          cases hlive
        rw [after_other hsuspended hresumed hremoved] at hlive
        obtain ⟨before, between, rfl, hno, hno'⟩ := ih.mp hlive
        refine ⟨before, between ++ [e], by rw [List.append_assoc]; rfl, ?_, ?_⟩
        · rw [List.mem_append, List.mem_singleton]
          exact fun h => h.elim hno fun heq => hresumed heq.symm
        · rw [List.mem_append, List.mem_singleton]
          exact fun h => h.elim hno' fun heq => hremoved heq.symm
    · rintro ⟨before, between, heq, hno, hno'⟩
      induction between using List.reverseRecOn with
      | nil =>
        obtain ⟨-, he⟩ := List.append_inj' heq rfl
        cases he
        exact if_pos rfl
      | append_singleton between e' _ =>
        rw [← List.cons_append, ← List.append_assoc] at heq
        obtain ⟨rfl, he⟩ := List.append_inj' heq rfl
        cases he
        rw [List.mem_append, List.mem_singleton, not_or] at hno hno'
        have hlive := ih.mpr ⟨before, between, rfl, hno.1, hno'.1⟩
        by_cases hsuspended : e = .suspended hookId
        · rw [hsuspended]
          exact if_pos rfl
        · rw [after_other hsuspended (Ne.symm hno.2) (Ne.symm hno'.2), hlive]

theorem separated_concat (events : List StoreEvent) (e : StoreEvent) :
    Separated (events ++ [e]) ↔
      Separated events ∧ ∀ hookId, e = .suspended hookId → live events hookId = false := by
  constructor
  · intro h
    refine ⟨fun hookId before between after heq => ?_, fun hookId he => ?_⟩
    · refine h hookId before between (after ++ [e]) ?_
      rw [heq, List.append_assoc]
      rfl
    · by_contra hlive
      rw [Bool.not_eq_false, live_iff] at hlive
      obtain ⟨before, between, rfl, hno, hno'⟩ := hlive
      exact (h hookId before between [] (by rw [he])).elim hno hno'
  · rintro ⟨hall, hlast⟩ hookId before between after heq
    induction after using List.reverseRecOn with
    | nil =>
      obtain ⟨rfl, he⟩ := List.append_inj' heq rfl
      cases he
      have hdead := hlast hookId rfl
      by_contra hno
      rw [not_or] at hno
      rw [(live_iff _ _).mpr ⟨before, between, rfl, hno⟩] at hdead
      cases hdead
    | append_singleton after e' _ =>
      rw [← List.cons_append, ← List.append_assoc] at heq
      obtain ⟨rfl, -⟩ := List.append_inj' heq rfl
      exact hall hookId before between after rfl

/-! ### Steps -/

variable {x x' : StoreRun}

/-- What a step does to the suspensions and to what has happened. -/
inductive Changes (x : StoreRun) (a : StoreAction) (x' : StoreRun) : Prop
  | nothing (hstore : x'.store.suspensions = x.store.suspensions) (hevents : x'.events = x.events)
      (hnot : x.overtaken a = false)
  | inserts (state : SuspendedTraceState)
      (hstore : x'.store.suspensions = x.store.suspensions.insert state.hookId state)
      (hevents : x'.events = x.events ++ [.suspended state.hookId])
      (hovertaken : x.overtaken a = (x.store.suspensions state.hookId).isSome)
  | clears (hook : String) (e : StoreEvent) (he : e = .resumed hook ∨ e = .removed hook)
      (hstore : x'.store.suspensions = x.store.suspensions.remove hook) (hevents : x'.events = x.events ++ [e])
      (hclears : clears hook a = true) (hnot : x.overtaken a = false)

theorem step_changes (a : StoreAction) (hs : x.step a = some x') : Changes x a x' := by
  cases a with
  | suspendCheck state =>
    unfold step at hs
    dsimp only at hs
    split at hs
    · cases hs
      exact .nothing rfl rfl rfl
    · cases hs
      exact .nothing rfl rfl rfl
  | suspendInsert i =>
    obtain ⟨state, hstate, rfl⟩ := Option.map_eq_some_iff.mp hs
    refine .inserts state rfl rfl ?_
    rw [overtaken, hstate, Option.any_some]
  | resume hook decision =>
    unfold step MemorySuspensionStore.resume at hs
    dsimp only at hs
    cases hget : x.store.suspensions hook with
    | none =>
      rw [hget] at hs
      cases hs
      exact .nothing rfl rfl rfl
    | some state =>
      rw [hget] at hs
      cases hs
      exact .clears hook (.resumed hook) (.inl rfl) rfl rfl (decide_eq_true rfl) rfl
  | remove hook =>
    cases hs
    exact .clears hook (.removed hook) (.inr rfl) rfl rfl (decide_eq_true rfl) rfl
  | removeDecision i =>
    obtain ⟨hook, -, rfl⟩ := Option.map_eq_some_iff.mp hs
    exact .nothing rfl rfl rfl

/-- The store holds the hooks that are suspended. -/
def Tracked (x : StoreRun) : Prop :=
  ∀ hookId, live x.events hookId = (x.store.suspensions hookId).isSome

theorem after_cleared {hook : String} {e : StoreEvent} (he : e = .resumed hook ∨ e = .removed hook)
    (hookId : String) (stored : Bool) :
    StoreEvent.after hookId stored e = if hook = hookId then false else stored := by
  rcases he with rfl | rfl
  · rfl
  · rfl

theorem Tracked.step (h : x.Tracked) (a : StoreAction) (hs : x.step a = some x') : x'.Tracked := by
  intro hookId
  cases step_changes a hs with
  | nothing hstore hevents _ =>
    rw [hstore, hevents]
    exact h hookId
  | inserts state hstore hevents _ =>
    rw [hstore, hevents, live_concat, StoreEvent.after, h hookId]
    by_cases hid : state.hookId = hookId
    · rw [if_pos hid, ← hid, Table.insert_self]
      rfl
    · rw [if_neg hid, Table.insert_ne _ _ (Ne.symm hid)]
  | clears hook e he hstore hevents _ _ =>
    rw [hstore, hevents, live_concat, after_cleared he, h hookId]
    by_cases hid : hook = hookId
    · rw [if_pos hid, ← hid, Table.remove_self]
      rfl
    · rw [if_neg hid, Table.remove_ne _ (Ne.symm hid)]

theorem separated_step_iff (h : x.Tracked) (hsep : Separated x.events) (a : StoreAction)
    (hs : x.step a = some x') : Separated x'.events ↔ x.overtaken a = false := by
  cases step_changes a hs with
  | nothing _ hevents hnot =>
    rw [hevents]
    exact iff_of_true hsep hnot
  | inserts state _ hevents hovertaken =>
    rw [hevents, separated_concat, hovertaken, ← h state.hookId]
    constructor
    · exact fun hboth => hboth.2 state.hookId rfl
    · refine fun hdead => ⟨hsep, fun hookId heq => ?_⟩
      cases heq
      exact hdead
  | clears hook e he _ hevents _ hnot =>
    rw [hevents, separated_concat]
    refine iff_of_true ⟨hsep, fun hookId heq => ?_⟩ hnot
    subst heq
    rcases he with hresumed | hremoved
    · cases hresumed
    · cases hremoved

theorem kept_of_not_overtaken (a : StoreAction) (hnot : x.overtaken a = false) (hs : x.step a = some x') :
    x.Kept x' a := by
  intro hookId stored hget
  cases step_changes a hs with
  | nothing hstore _ _ =>
    rw [hstore]
    exact .inl hget
  | inserts state hstore _ hovertaken =>
    have hid : hookId ≠ state.hookId := by
      rintro rfl
      rw [hovertaken, hget] at hnot
      cases hnot
    rw [hstore]
    exact .inl ((Table.insert_ne _ _ hid).trans hget)
  | clears hook e _ hstore _ hclears _ =>
    by_cases hid : hookId = hook
    · rw [hid]
      exact .inr hclears
    · rw [hstore]
      exact .inl ((Table.remove_ne _ hid).trans hget)

/-- In every interleaving of suspend, resume and remove calls: two suspensions of a hook have a resume
or a remove of it between them, and no stored suspension is overwritten, if and only if no suspend
call inserts after another one has inserted the same hook since its check. -/
theorem onePerHook_iff (actions : List StoreAction) (x : StoreRun)
    (hrun : Machine.run step start actions = some x) :
    OnePerHook actions ↔ Machine.happens step overtaken start actions = false := by
  have hstart : start.Tracked := fun _ => rfl
  have hsep : Separated start.events := by
    intro hookId before between after heq
    have hlen := congrArg List.length heq
    simp [start] at hlen
  have hiff := Machine.throughout_iff overtaken Tracked (fun x => Separated x.events)
    (fun _ a _ h hs => h.step a hs) (fun _ a _ h hx hs => separated_step_iff h hx a hs) actions hstart hsep hrun
  constructor
  · exact fun h => hiff.mp h.separated
  · intro hnone
    refine ⟨hiff.mpr hnone, fun before a x₁ x₂ hpre hbefore hs => ?_⟩
    exact kept_of_not_overtaken a (Machine.not_happens_at _ actions before a hnone hpre hbefore) hs

/-- Suspend calls one after another: the check and the insertion with nothing in between. -/
theorem suspend_alone (x : StoreRun) (state : SuspendedTraceState) (store : MemorySuspensionStore)
    (h : x.store.suspend state = .ok store) :
    ∃ x', Machine.run step x [.suspendCheck state, .suspendInsert x.checked.length] = some x' ∧
      x'.store = store := by
  unfold MemorySuspensionStore.suspend at h
  split at h
  · cases h
  · rename_i hfree
    cases h
    refine ⟨{ x with
      store := { x.store with suspensions := x.store.suspensions.insert state.hookId state }
      checked := (x.checked ++ [state]).eraseIdx x.checked.length
      events := x.events ++ [.suspended state.hookId] }, ?_, rfl⟩
    rw [Machine.run, step, if_neg hfree, Option.bind_some, Machine.run, step]
    dsimp only
    rw [List.getElem?_concat_length]
    rfl

def reusedHook : List StoreAction :=
  [.suspendCheck approvalStored, .suspendInsert 0, .resume "approval" (.approve none),
    .suspendCheck approvalStored, .suspendInsert 0]

theorem reused_hook_is_separate :
    ∃ x, Machine.run step start reusedHook = some x ∧
      x.events = [.suspended "approval", .resumed "approval", .suspended "approval"] ∧
      OnePerHook reusedHook := by
  have hend : (Machine.run step start reusedHook).any (fun x =>
      x.events = [.suspended "approval", .resumed "approval", .suspended "approval"]) = true := by
    decide
  obtain ⟨x, hx, hevents⟩ := (Option.any_eq_true _ _).mp hend
  exact ⟨x, hx, of_decide_eq_true hevents, (onePerHook_iff reusedHook x hx).mpr (by decide)⟩

def secondApproval : SuspendedTraceState := .new "approval" otherTrace 2 "/tmp/xerv/other.bin" "orders" 5

/-- Two traces suspend on one hook, and both look before either inserts. -/
def racingSuspends : List StoreAction :=
  [.suspendCheck approvalStored, .suspendCheck secondApproval, .suspendInsert 0, .suspendInsert 0]

/-- Both calls succeed and the first suspension is overwritten. -/
theorem racing_suspends_overwrite :
    ∃ x, Machine.run step start racingSuspends = some x ∧
      x.events = [.suspended "approval", .suspended "approval"] ∧
      x.store.suspensions "approval" = some secondApproval ∧ ¬ OnePerHook racingSuspends := by
  have hend : (Machine.run step start racingSuspends).any (fun x =>
      x.events = [.suspended "approval", .suspended "approval"] ∧
        x.store.suspensions "approval" = some secondApproval) = true := by
    decide
  obtain ⟨x, hx, h⟩ := (Option.any_eq_true _ _).mp hend
  obtain ⟨hevents, hstored⟩ := of_decide_eq_true h
  refine ⟨x, hx, hevents, hstored, fun hone => ?_⟩
  have hsep := hone.separated racingSuspends x List.prefix_rfl hx
  rw [hevents] at hsep
  have hbetween := hsep "approval" [] [] [] rfl
  rw [List.mem_nil_iff, List.mem_nil_iff] at hbetween
  exact hbetween.elim id id

end StoreRun
end Xerv
