import Mathlib.Data.List.Infix
import Mathlib.Logic.Function.Basic
import Xerv.Lib.Machine

/-!
# Starting and stopping a trigger (`triggers/queue.rs`, `memory.rs`, `cron.rs`, `webhook.rs`)

A call of `start` or `stop` is the list of the atomic steps it still has to make: loads and stores of
`running`, lock sections of `shutdown_tx` and of the message sender, and the loop, which it leaves for the
shutdown signal. A call begins with its first step and has returned when no step is left. A sender is named by
the `start` call that holds its receiver; a sender that is dropped signals as one that sends does. Events,
`pause` and `resume` are left out.
-/

namespace Xerv.Nodes

inductive TriggerKind where
  | queue | memory | cron | webhook
  deriving DecidableEq

inductive TriggerOp where
  -- `running` is loaded, and the call ends with an error if it is set
  | checkRunning
  -- the address is parsed and bound, or the call ends with an error
  | bind
  | setRunning (value : Bool)
  -- `event_count` is set to zero
  | resetCount
  | publishShutdown
  -- `message_tx`, `inject_tx`
  | publishSender
  -- `ends`: the loop is also left when no fire time is left
  | loop (ends : Bool)
  -- the sender is taken and used under one lock
  | takeShutdown
  | clearSender
  deriving DecidableEq

def TriggerOp.isLoop : TriggerOp → Bool
  | loop _ => true
  | _ => false

/-- A lock section of `shutdown_tx` signals the call whose sender is there. -/
def TriggerOp.usesShutdown : TriggerOp → Bool
  | publishShutdown | takeShutdown => true
  | _ => false

namespace TriggerKind

def start : TriggerKind → List TriggerOp
  | queue => [.checkRunning, .setRunning true, .publishShutdown, .publishSender, .loop false, .clearSender,
      .setRunning false]
  | memory => [.checkRunning, .setRunning true, .resetCount, .publishShutdown, .publishSender, .loop false,
      .clearSender, .setRunning false]
  | cron => [.checkRunning, .setRunning true, .publishShutdown, .loop true, .setRunning false]
  | webhook => [.checkRunning, .bind, .setRunning true, .publishShutdown, .loop false, .setRunning false]

def stop : TriggerKind → List TriggerOp
  | queue | memory => [.takeShutdown, .clearSender, .setRunning false]
  | cron | webhook => [.takeShutdown, .setRunning false]

end TriggerKind

inductive CallKind where
  | start | stop
  deriving DecidableEq

def CallKind.ops (kind : TriggerKind) : CallKind → List TriggerOp
  | start => kind.start
  | stop => kind.stop

def CallKind.first : CallKind → TriggerOp
  | start => .checkRunning
  | stop => .takeShutdown

structure TriggerCall where
  kind : CallKind
  ops : List TriggerOp
  -- the shutdown receiver of a `start` call is ready
  signalled : Bool
  deriving DecidableEq

namespace TriggerCall

def inLoop (call : TriggerCall) : Bool := call.ops.head?.any (·.isLoop)

def settled (call : TriggerCall) : Bool :=
  decide (.publishShutdown ∉ call.ops) && decide (.publishSender ∉ call.ops)

end TriggerCall

structure TriggerWorld where
  running : Bool
  shutdownTx : Option ℕ
  senderTx : Option ℕ
  calls : ℕ → TriggerCall
  size : ℕ

inductive TriggerStep where
  | start
  | stop
  -- what the listener or the schedule answers, where the step asks
  | advance (call : ℕ) (answer : Bool)
  deriving DecidableEq

namespace TriggerWorld

def initial : TriggerWorld := ⟨false, none, none, fun _ => ⟨.stop, [], false⟩, 0⟩

def isRunning (w : TriggerWorld) : Bool := w.running

/-- `handle()`, `injector()` -/
def handle (w : TriggerWorld) : Option ℕ := w.senderTx

def proceed (w : TriggerWorld) (i : ℕ) (ops : List TriggerOp) : TriggerWorld :=
  { w with calls := Function.update w.calls i { w.calls i with ops := ops } }

def signal (w : TriggerWorld) : Option ℕ → TriggerWorld
  | none => w
  | some i => { w with calls := Function.update w.calls i { w.calls i with signalled := true } }

def perform (w : TriggerWorld) (i : ℕ) (rest : List TriggerOp) (answer : Bool) : TriggerOp → TriggerWorld
  | .checkRunning => w.proceed i (if w.running then [] else rest)
  | .bind => w.proceed i (if answer then rest else [])
  | .setRunning value => { w.proceed i rest with running := value }
  | .resetCount => w.proceed i rest
  | .publishShutdown => { (w.signal w.shutdownTx).proceed i rest with shutdownTx := some i }
  | .publishSender => { w.proceed i rest with senderTx := some i }
  | .loop ends => if (w.calls i).signalled || (ends && answer) then w.proceed i rest else w
  | .takeShutdown => { (w.signal w.shutdownTx).proceed i rest with shutdownTx := none }
  | .clearSender => { w.proceed i rest with senderTx := none }

def advance (w : TriggerWorld) (i : ℕ) (answer : Bool) : TriggerWorld :=
  match (w.calls i).ops with
  | [] => w
  | op :: rest => w.perform i rest answer op

def enter (w : TriggerWorld) (kind : TriggerKind) (call : CallKind) : TriggerWorld :=
  { w with calls := Function.update w.calls w.size ⟨call, call.ops kind, false⟩, size := w.size + 1 }

def begin (w : TriggerWorld) (kind : TriggerKind) (call : CallKind) : TriggerWorld :=
  (w.enter kind call).advance w.size true

def next (kind : TriggerKind) (w : TriggerWorld) : TriggerStep → TriggerWorld
  | .start => w.begin kind .start
  | .stop => w.begin kind .stop
  | .advance i answer => w.advance i answer

/-! ### What one step changes -/

def leftOps (w : TriggerWorld) (i : ℕ) (rest : List TriggerOp) (answer : Bool) (op : TriggerOp) :
    List TriggerOp :=
  match op with
  | .checkRunning => if w.running then [] else rest
  | .bind => if answer then rest else []
  | .loop ends => if (w.calls i).signalled || (ends && answer) then rest else (w.calls i).ops
  | _ => rest

section Effects
variable (w : TriggerWorld) (i : ℕ) (rest : List TriggerOp) (answer : Bool) (op : TriggerOp) (j : ℕ)

@[simp] theorem proceed_kind : ((w.proceed i rest).calls j).kind = (w.calls j).kind := by
  by_cases hj : j = i <;> simp [proceed, hj]

@[simp] theorem proceed_ops :
    ((w.proceed i rest).calls j).ops = if j = i then rest else (w.calls j).ops := by
  by_cases hj : j = i <;> simp [proceed, hj]

@[simp] theorem proceed_signalled : ((w.proceed i rest).calls j).signalled = (w.calls j).signalled := by
  by_cases hj : j = i <;> simp [proceed, hj]

@[simp] theorem signal_kind (tx : Option ℕ) : ((w.signal tx).calls j).kind = (w.calls j).kind := by
  cases tx with
  | none => rfl
  | some k => by_cases hj : j = k <;> simp [signal, hj]

@[simp] theorem signal_ops (tx : Option ℕ) : ((w.signal tx).calls j).ops = (w.calls j).ops := by
  cases tx with
  | none => rfl
  | some k => by_cases hj : j = k <;> simp [signal, hj]

@[simp] theorem signal_signalled (tx : Option ℕ) :
    ((w.signal tx).calls j).signalled = ((w.calls j).signalled || decide (tx = some j)) := by
  cases tx with
  | none => simp [signal]
  | some k => by_cases hj : j = k <;> simp [signal, hj, eq_comm]

@[simp] theorem signal_running (tx : Option ℕ) : (w.signal tx).running = w.running := by
  cases tx <;> rfl

@[simp] theorem signal_senderTx (tx : Option ℕ) : (w.signal tx).senderTx = w.senderTx := by
  cases tx <;> rfl

@[simp] theorem signal_size (tx : Option ℕ) : (w.signal tx).size = w.size := by
  cases tx <;> rfl

theorem perform_kind : ((w.perform i rest answer op).calls j).kind = (w.calls j).kind := by
  unfold perform
  cases op <;> simp
  split <;> simp

theorem perform_ops : ((w.perform i rest answer op).calls j).ops =
    if j = i then w.leftOps i rest answer op else (w.calls j).ops := by
  unfold perform leftOps
  cases op <;> simp
  split
  · simp
  · by_cases hj : j = i <;> simp [hj]

theorem perform_signalled : ((w.perform i rest answer op).calls j).signalled =
    ((w.calls j).signalled || (op.usesShutdown && decide (w.shutdownTx = some j))) := by
  unfold perform TriggerOp.usesShutdown
  cases op <;> simp
  split <;> simp

theorem perform_shutdownTx : (w.perform i rest answer op).shutdownTx =
    if op = .publishShutdown then some i else if op = .takeShutdown then none else w.shutdownTx := by
  unfold perform proceed
  cases op <;> simp
  split <;> rfl

theorem perform_running : (w.perform i rest answer op).running =
    if op = .setRunning true then true else if op = .setRunning false then false else w.running := by
  unfold perform
  cases op with
  | setRunning value => cases value <;> rfl
  | loop ends =>
    dsimp only
    split <;> rfl
  | publishShutdown => simp [proceed]
  | takeShutdown => simp [proceed]
  | _ => rfl

theorem perform_senderTx : (w.perform i rest answer op).senderTx =
    if op = .publishSender then some i else if op = .clearSender then none else w.senderTx := by
  unfold perform
  cases op with
  | loop ends =>
    dsimp only
    split <;> rfl
  | publishShutdown => simp [proceed]
  | takeShutdown => simp [proceed]
  | _ => rfl

theorem perform_size : (w.perform i rest answer op).size = w.size := by
  unfold perform
  cases op with
  | loop ends =>
    dsimp only
    split <;> rfl
  | publishShutdown => simp [proceed]
  | takeShutdown => simp [proceed]
  | _ => rfl

theorem leftOps_cases (h : (w.calls i).ops = op :: rest) :
    w.leftOps i rest answer op = [] ∨ w.leftOps i rest answer op = rest ∨
      w.leftOps i rest answer op = op :: rest := by
  cases op with
  | checkRunning =>
    dsimp only [leftOps]
    split
    · exact Or.inl rfl
    · exact Or.inr (Or.inl rfl)
  | bind =>
    dsimp only [leftOps]
    split
    · exact Or.inr (Or.inl rfl)
    · exact Or.inl rfl
  | loop ends =>
    dsimp only [leftOps]
    split
    · exact Or.inr (Or.inl rfl)
    · exact Or.inr (Or.inr h)
  | _ => exact Or.inr (Or.inl rfl)

theorem leftOps_suffix (h : (w.calls i).ops = op :: rest) : w.leftOps i rest answer op <:+ op :: rest := by
  rcases w.leftOps_cases i rest answer op h with heq | heq | heq
  · rw [heq]
    exact List.nil_suffix
  · rw [heq]
    exact List.suffix_cons op rest
  · rw [heq]

end Effects

/-! ### Runs of any calls -/

section Runs
variable (kind : TriggerKind)

/-- The receiver of this call is behind the sender in `shutdown_tx`, or is ready. -/
def SlotAt (w : TriggerWorld) (j : ℕ) : Prop :=
  (w.calls j).ops.any (·.isLoop) = true → .publishShutdown ∉ (w.calls j).ops →
    (w.calls j).signalled = false → w.shutdownTx = some j

structure Sound (w : TriggerWorld) : Prop where
  suffix : ∀ j, (w.calls j).ops <:+ ((w.calls j).kind.ops kind).tail
  beyond : ∀ j, w.size ≤ j → (w.calls j).ops = []
  slot : ∀ j, w.SlotAt j

theorem start_tail_no_take {op : TriggerOp} {rest : List TriggerOp} (h : op :: rest <:+ kind.start.tail) :
    op ≠ .takeShutdown := by
  rintro rfl
  have hmem := h.subset (List.mem_cons_self)
  revert hmem
  cases kind <;> decide

theorem publish_mem_start : TriggerOp.publishShutdown ∈ kind.start := by
  cases kind <;> decide

theorem stop_no_loop : kind.stop.any (·.isLoop) = false := by
  cases kind <;> rfl

theorem stop_no_publish : TriggerOp.publishShutdown ∉ kind.stop := by
  cases kind <;> decide

theorem stop_tail_no_take : TriggerOp.takeShutdown ∉ kind.stop.tail := by
  cases kind <;> decide

theorem perform_slot {w : TriggerWorld} {i : ℕ} {op : TriggerOp} {rest : List TriggerOp} (answer : Bool)
    (h : (w.calls i).ops = op :: rest) (hslot : ∀ j, w.SlotAt j)
    (htake : op = .takeShutdown → rest.any (·.isLoop) = false) (j : ℕ) :
    (w.perform i rest answer op).SlotAt j := by
  intro hloop hpublished hsignalled
  rw [perform_ops] at hloop hpublished
  rw [perform_signalled, Bool.or_eq_false_iff] at hsignalled
  rw [perform_shutdownTx]
  by_cases hj : j = i
  · subst hj
    rw [if_pos rfl] at hloop hpublished
    by_cases hop : op = .publishShutdown
    · rw [if_pos hop]
    have hop' : op ≠ .takeShutdown := by
      rintro rfl
      rw [show w.leftOps j rest answer .takeShutdown = rest from rfl, htake rfl] at hloop
      cases hloop
    rw [if_neg hop, if_neg hop']
    have hall := List.any_eq_true.mp hloop
    refine hslot j ?_ ?_ hsignalled.1
    · obtain ⟨o, ho, hisLoop⟩ := hall
      rw [h]
      exact List.any_eq_true.mpr ⟨o, (w.leftOps_suffix j rest answer op h).subset ho, hisLoop⟩
    · rw [h]
      rcases w.leftOps_cases j rest answer op h with heq | heq | heq
      · rw [heq] at hloop
        cases hloop
      · rw [heq] at hpublished
        simpa [Ne.symm hop] using hpublished
      · rw [heq] at hpublished
        exact hpublished
  · rw [if_neg hj] at hloop hpublished
    have htx := hslot j hloop hpublished hsignalled.1
    -- the sender of a call that is not signalled is in no lock section
    have huses : op.usesShutdown = false := by
      simpa [htx] using hsignalled.2
    cases op with
    | publishShutdown => cases huses
    | takeShutdown => cases huses
    | _ => exact htx

theorem Sound.perform {w : TriggerWorld} {i : ℕ} {op : TriggerOp} {rest : List TriggerOp} (answer : Bool)
    (h : (w.calls i).ops = op :: rest) (hi : i < w.size) (hslot : ∀ j, w.SlotAt j)
    (hbeyond : ∀ j, w.size ≤ j → (w.calls j).ops = [])
    (hsuffix : ∀ j, j ≠ i → (w.calls j).ops <:+ ((w.calls j).kind.ops kind).tail)
    (hself : w.leftOps i rest answer op <:+ ((w.calls i).kind.ops kind).tail)
    (htake : op = .takeShutdown → rest.any (·.isLoop) = false) :
    (w.perform i rest answer op).Sound kind := by
  refine ⟨fun j => ?_, fun j hj => ?_, perform_slot answer h hslot htake⟩
  · rw [perform_ops, perform_kind]
    by_cases hji : j = i
    · rw [if_pos hji, hji]
      exact hself
    · rw [if_neg hji]
      exact hsuffix j hji
  · rw [perform_size] at hj
    rw [perform_ops, if_neg (by omega)]
    exact hbeyond j hj

theorem Sound.advance {w : TriggerWorld} (hw : w.Sound kind) (i : ℕ) (answer : Bool) :
    (w.advance i answer).Sound kind := by
  unfold TriggerWorld.advance
  split
  · exact hw
  · next op rest h =>
    have hi : i < w.size := by
      by_contra hge
      rw [hw.beyond i (by omega)] at h
      cases h
    have hsuffix := hw.suffix i
    rw [h] at hsuffix
    refine Sound.perform kind answer h hi hw.slot hw.beyond (fun j _ => hw.suffix j)
      ((w.leftOps_suffix i rest answer op h).trans hsuffix) ?_
    rintro rfl
    -- only a `stop` call takes the sender, as its first step
    cases hkind : (w.calls i).kind with
    | start =>
      rw [hkind] at hsuffix
      exact absurd rfl (start_tail_no_take kind hsuffix)
    | stop =>
      rw [hkind] at hsuffix
      exact absurd (hsuffix.subset List.mem_cons_self) (stop_tail_no_take kind)

theorem enter_self (w : TriggerWorld) (call : CallKind) :
    (w.enter kind call).calls w.size = ⟨call, call.ops kind, false⟩ := by
  simp [enter]

theorem enter_other (w : TriggerWorld) (call : CallKind) {j : ℕ} (hj : j ≠ w.size) :
    (w.enter kind call).calls j = w.calls j := by
  simp [enter, hj]

theorem begin_eq (w : TriggerWorld) (call : CallKind) :
    w.begin kind call = (w.enter kind call).perform w.size (call.ops kind).tail true (call.first) := by
  unfold begin TriggerWorld.advance
  rw [enter_self]
  cases call <;> cases kind <;> rfl

theorem Sound.begin {w : TriggerWorld} (hw : w.Sound kind) (call : CallKind) : (w.begin kind call).Sound kind := by
  have hops : ((w.enter kind call).calls w.size).ops = call.first :: (call.ops kind).tail := by
    rw [enter_self]
    cases call <;> cases kind <;> rfl
  rw [begin_eq]
  refine Sound.perform kind true hops (Nat.lt_succ_self _) (fun j => ?_) (fun j hj => ?_) (fun j hj => ?_) ?_ ?_
  · by_cases hj : j = w.size
    · -- a `start` call has yet to publish its sender, and a `stop` call has no loop
      intro hloop hpublished
      rw [hj, enter_self] at hloop hpublished
      cases call with
      | start => exact absurd (publish_mem_start kind) hpublished
      | stop =>
        rw [show CallKind.ops kind .stop = kind.stop from rfl, stop_no_loop] at hloop
        cases hloop
    · unfold SlotAt
      rw [enter_other kind w call hj]
      exact hw.slot j
  · have hlt : w.size < j := hj
    rw [enter_other kind w call (by omega)]
    exact hw.beyond j (by omega)
  · rw [enter_other kind w call hj]
    exact hw.suffix j
  · rw [enter_self]
    cases call with
    | start =>
      dsimp only [CallKind.first, leftOps]
      split
      · exact List.nil_suffix
      · exact List.suffix_rfl
    | stop => exact List.suffix_rfl
  · intro hfirst
    cases call with
    | start => cases hfirst
    | stop => cases kind <;> rfl

theorem Sound.next {w : TriggerWorld} (hw : w.Sound kind) (step : TriggerStep) : (w.next kind step).Sound kind := by
  cases step with
  | start => exact hw.begin kind .start
  | stop => exact hw.begin kind .stop
  | advance i answer => exact hw.advance kind i answer

theorem sound_initial : initial.Sound kind := by
  refine ⟨fun j => List.nil_suffix, fun _ _ => rfl, fun j hloop => ?_⟩
  cases hloop

theorem Sound.run {w : TriggerWorld} (hw : w.Sound kind) (steps : List TriggerStep) :
    (steps.foldl (TriggerWorld.next kind) w).Sound kind := by
  induction steps generalizing w with
  | nil => exact hw
  | cons step steps ih => exact ih (hw.next kind step)

/-! ### A stopped trigger stays stopped -/

/-- The stop call `s`, which has not returned at the end of `before`, has returned at the end of
`before ++ after`; no start call begins in `after`, and every start call has by then returned or entered its
loop. Then each loop still entered is signalled. -/
def StaysStopped (before after : List TriggerStep) : Prop :=
  ∀ s, ((before.foldl (next kind) initial).calls s).kind = .stop →
    ((before.foldl (next kind) initial).calls s).ops ≠ [] → TriggerStep.start ∉ after →
    (((before ++ after).foldl (next kind) initial).calls s).ops = [] →
    (∀ i, (((before ++ after).foldl (next kind) initial).calls i).settled = true) →
    ∀ i, (((before ++ after).foldl (next kind) initial).calls i).inLoop = true →
      (((before ++ after).foldl (next kind) initial).calls i).signalled = true

def stopUnderWay (w : TriggerWorld) : Bool :=
  (List.range w.size).any fun s => decide ((w.calls s).kind = .stop) && decide ((w.calls s).ops ≠ [])

/-- The call that publishes its shutdown sender in this step. -/
def publishes (w : TriggerWorld) : TriggerStep → Option ℕ
  | .advance i _ => if (w.calls i).ops.head? = some .publishShutdown then some i else none
  | _ => none

/-- The calls that have been under way together with a stop call; those are forgotten when a start call
begins. `w` is the state after the step. -/
def watch (w : TriggerWorld) (met : ℕ → Bool) (step : TriggerStep) : ℕ → Bool :=
  fun i => (decide (step ≠ .start) && met i) || (decide (i < w.size) && w.stopUnderWay)

/-- No call that has met a stop call publishes its shutdown sender. -/
def raceFree (w : TriggerWorld) (met : ℕ → Bool) : List TriggerStep → Bool
  | [] => true
  | step :: steps =>
    !(w.publishes step).any met && raceFree (w.next kind step) ((w.next kind step).watch met step) steps

/-- While a stop call has not returned, each call has met it, and no sender is published. -/
def Orderly (w : TriggerWorld) (met : ℕ → Bool) : Prop :=
  ∀ s, (w.calls s).kind = .stop → (w.calls s).ops ≠ [] →
    (∀ i, i < w.size → met i = true) ∧ w.shutdownTx = none

/-- Who has its sender still to publish has met a stop call, and no sender is published. -/
structure Quiet (w : TriggerWorld) (met : ℕ → Bool) : Prop where
  late : ∀ i, .publishShutdown ∈ (w.calls i).ops → met i = true
  taken : w.shutdownTx = none

theorem Sound.lt_size {w : TriggerWorld} (hw : w.Sound kind) {i : ℕ} (h : (w.calls i).ops ≠ []) :
    i < w.size := by
  by_contra hge
  exact h (hw.beyond i (by omega))

theorem advance_kind (w : TriggerWorld) (i : ℕ) (answer : Bool) (j : ℕ) :
    ((w.advance i answer).calls j).kind = (w.calls j).kind := by
  unfold advance
  split
  · rfl
  · exact perform_kind ..

theorem advance_suffix (w : TriggerWorld) (i : ℕ) (answer : Bool) (j : ℕ) :
    ((w.advance i answer).calls j).ops <:+ (w.calls j).ops := by
  unfold advance
  split
  · exact List.suffix_rfl
  · next op rest h =>
    rw [perform_ops]
    by_cases hj : j = i
    · rw [if_pos hj, hj, h]
      exact w.leftOps_suffix i rest answer op h
    · rw [if_neg hj]

theorem advance_taken {w : TriggerWorld} {i : ℕ} (answer : Bool) (htx : w.shutdownTx = none)
    (hpublish : (w.calls i).ops.head? ≠ some .publishShutdown) : (w.advance i answer).shutdownTx = none := by
  unfold advance
  split
  · exact htx
  · next op rest h =>
    have hop : op ≠ .publishShutdown := by
      rintro rfl
      rw [h] at hpublish
      exact hpublish rfl
    rw [perform_shutdownTx, if_neg hop, htx, ite_self]

theorem not_publishes {w : TriggerWorld} {met : ℕ → Bool} {i : ℕ} {answer : Bool}
    (hrace : (w.publishes (.advance i answer)).any met = false) (hmet : met i = true) :
    (w.calls i).ops.head? ≠ some .publishShutdown := by
  intro hhead
  rw [publishes, if_pos hhead, Option.any_some, hmet] at hrace
  cases hrace

theorem next_stop_taken (w : TriggerWorld) : (w.next kind .stop).shutdownTx = none := by
  rw [show w.next kind .stop = w.begin kind .stop from rfl, begin_eq, perform_shutdownTx]
  rfl

theorem Orderly.next {w : TriggerWorld} {met : ℕ → Bool} (hw : w.Orderly met) (hsound : w.Sound kind)
    (step : TriggerStep) (hrace : (w.publishes step).any met = false) :
    (w.next kind step).Orderly ((w.next kind step).watch met step) := by
  intro s hstop hleft
  have hlt := (hsound.next kind step).lt_size kind hleft
  have hunder : (w.next kind step).stopUnderWay = true :=
    List.any_eq_true.mpr ⟨s, List.mem_range.mpr hlt, by simp [hstop, hleft]⟩
  refine ⟨fun i hi => by simp [watch, hi, hunder], ?_⟩
  cases step with
  | start =>
    rw [show w.next kind .start = w.begin kind .start from rfl, begin_eq] at hstop hleft ⊢
    rw [perform_kind] at hstop
    rw [perform_ops] at hleft
    rw [perform_shutdownTx]
    have hs : s ≠ w.size := by
      rintro rfl
      rw [enter_self] at hstop
      cases hstop
    rw [enter_other kind w .start hs] at hstop
    rw [if_neg hs, enter_other kind w .start hs] at hleft
    exact (hw s hstop hleft).2
  | stop => exact next_stop_taken kind w
  | advance i answer =>
    have hbefore : (w.calls s).ops ≠ [] := by
      intro hnil
      have hsuffix := w.advance_suffix i answer s
      rw [hnil, List.suffix_nil] at hsuffix
      exact hleft hsuffix
    obtain ⟨hmet, htx⟩ := hw s ((w.advance_kind i answer s).symm.trans hstop) hbefore
    refine advance_taken answer htx fun hhead => ?_
    have hi : i < w.size := hsound.lt_size kind fun hnil => by
      rw [hnil] at hhead
      cases hhead
    exact not_publishes hrace (hmet i hi) hhead

theorem Quiet.next {w : TriggerWorld} {met : ℕ → Bool} (hw : w.Quiet met) {step : TriggerStep}
    (hstep : step ≠ .start) (hrace : (w.publishes step).any met = false) :
    (w.next kind step).Quiet ((w.next kind step).watch met step) := by
  have hkeep {i : ℕ} (hi : .publishShutdown ∈ (w.calls i).ops) :
      (w.next kind step).watch met step i = true := by
    rw [watch, hw.late i hi, decide_eq_true hstep, Bool.true_and, Bool.true_or]
  cases step with
  | start => exact absurd rfl hstep
  | stop =>
    refine ⟨fun i hi => ?_, next_stop_taken kind w⟩
    rw [show w.next kind .stop = w.begin kind .stop from rfl, begin_eq, perform_ops] at hi
    by_cases hsize : i = w.size
    · rw [if_pos hsize] at hi
      exact absurd (List.mem_of_mem_tail hi) (stop_no_publish kind)
    · rw [if_neg hsize, enter_other kind w .stop hsize] at hi
      exact hkeep hi
  | advance i answer =>
    refine ⟨fun j hj => hkeep ((w.advance_suffix i answer j).subset hj), ?_⟩
    refine advance_taken answer hw.taken fun hhead => ?_
    have hmem : .publishShutdown ∈ (w.calls i).ops := List.mem_of_mem_head? hhead
    exact not_publishes hrace (hw.late i hmem) hhead

theorem Orderly.run {w : TriggerWorld} {met : ℕ → Bool} (hw : w.Orderly met) (hsound : w.Sound kind)
    (before after : List TriggerStep) (hrace : w.raceFree kind met (before ++ after) = true) :
    ∃ met', (before.foldl (TriggerWorld.next kind) w).Orderly met' ∧
      (before.foldl (TriggerWorld.next kind) w).raceFree kind met' after = true := by
  induction before generalizing w met with
  | nil => exact ⟨met, hw, hrace⟩
  | cons step before ih =>
    rw [List.cons_append, raceFree, Bool.and_eq_true, Bool.not_eq_true'] at hrace
    exact ih (hw.next kind hsound step hrace.1) (hsound.next kind step) hrace.2

theorem Quiet.run {w : TriggerWorld} {met : ℕ → Bool} (hw : w.Quiet met) {steps : List TriggerStep}
    (hsteps : TriggerStep.start ∉ steps) (hrace : w.raceFree kind met steps = true) :
    (steps.foldl (TriggerWorld.next kind) w).shutdownTx = none := by
  induction steps generalizing w met with
  | nil => exact hw.taken
  | cons step steps ih =>
    rw [raceFree, Bool.and_eq_true, Bool.not_eq_true'] at hrace
    have hstep : step ≠ .start := fun heq => hsteps (heq ▸ List.mem_cons_self)
    exact ih (hw.next kind hstep hrace.1) (fun hrest => hsteps (List.mem_cons_of_mem step hrest)) hrace.2

/-- In every run, of any start and stop calls in any order of their steps, in which no start call publishes its
shutdown sender after it has met a stop call, no start call having begun since, a stopped trigger stays
stopped. -/
theorem stopped_stays_stopped (before after : List TriggerStep)
    (hrace : initial.raceFree kind (fun _ => false) (before ++ after) = true) :
    StaysStopped kind before after := by
  intro s hstop hleft hafter _ hsettled i hloop
  have hinitial : initial.Orderly fun _ => false := fun s _ hs => absurd rfl hs
  obtain ⟨met, horderly, hrest⟩ := hinitial.run kind (sound_initial kind) before after hrace
  obtain ⟨hmet, htaken⟩ := horderly s hstop hleft
  have hquiet : (before.foldl (TriggerWorld.next kind) initial).Quiet met := by
    refine ⟨fun j hj => hmet j ?_, htaken⟩
    exact ((sound_initial kind).run kind before).lt_size kind (List.ne_nil_of_mem hj)
  have htx := hquiet.run kind hafter hrest
  rw [← List.foldl_append] at htx
  have hsound := (sound_initial kind).run kind (before ++ after)
  have hpublished := hsettled i
  generalize (before ++ after).foldl (TriggerWorld.next kind) initial = w at htx hsound hloop hpublished ⊢
  by_contra hsignalled
  -- the sender of a loop that is not signalled would still be published
  have hany : (w.calls i).ops.any (·.isLoop) = true := by
    unfold TriggerCall.inLoop at hloop
    cases hops : (w.calls i).ops with
    | nil =>
      rw [hops] at hloop
      cases hloop
    | cons op rest =>
      rw [hops] at hloop
      rw [List.any_cons, show op.isLoop = true from hloop, Bool.true_or]
  rw [TriggerCall.settled, Bool.and_eq_true, decide_eq_true_iff] at hpublished
  have hslot := hsound.slot i hany hpublished.1 (by simpa using hsignalled)
  rw [htx] at hslot
  cases hslot

end Runs

def startThenStop : List TriggerStep :=
  [.start, .advance 0 true, .advance 0 true, .advance 0 true, .advance 0 true, .advance 0 true, .stop]

theorem stopped_queue_stays_stopped :
    StaysStopped .queue startThenStop [.advance 1 true, .advance 1 true] :=
  stopped_stays_stopped .queue startThenStop [.advance 1 true, .advance 1 true] (by decide)

/-- A run at whose end the loop of call 0 is entered and not signalled, and call 1 a stop call that returned. -/
theorem not_staysStopped {kind : TriggerKind} {before after : List TriggerStep}
    (hstop : ((before.foldl (next kind) initial).calls 1).kind = .stop)
    (hleft : ((before.foldl (next kind) initial).calls 1).ops ≠ []) (hafter : TriggerStep.start ∉ after)
    (hreturned : (((before ++ after).foldl (next kind) initial).calls 1).ops = [])
    (hsize : ((before ++ after).foldl (next kind) initial).size = 2)
    (hloop : (((before ++ after).foldl (next kind) initial).calls 0).ops.head?.any (·.isLoop) = true ∧
      (((before ++ after).foldl (next kind) initial).calls 0).settled = true ∧
      (((before ++ after).foldl (next kind) initial).calls 0).signalled = false) :
    ¬ StaysStopped kind before after := by
  intro hall
  have hsettled (i : ℕ) : (((before ++ after).foldl (next kind) initial).calls i).settled = true := by
    by_cases hi : i = 0
    · rw [hi]
      exact hloop.2.1
    · have hops : (((before ++ after).foldl (next kind) initial).calls i).ops = [] := by
        by_cases hi1 : i = 1
        · rw [hi1]
          exact hreturned
        · exact ((sound_initial kind).run kind (before ++ after)).beyond i (by omega)
      rw [TriggerCall.settled, hops]
      rfl
  have hsignalled := hall 1 hstop hleft hafter hreturned hsettled 0 hloop.1
  rw [hloop.2.2] at hsignalled
  cases hsignalled

/-- The stop call runs while the start call has stored `running` and has yet to publish its sender. -/
def lateStart (checks : ℕ) : List TriggerStep := .start :: List.replicate checks (.advance 0 true) ++ [.stop]

def lateLoop : List TriggerStep :=
  [.advance 1 true, .advance 1 true, .advance 0 false, .advance 0 false, .advance 0 false]

theorem late_start_not_stopped :
    ¬ StaysStopped .queue (lateStart 1) lateLoop ∧ ¬ StaysStopped .memory (lateStart 1) lateLoop ∧
      ¬ StaysStopped .cron (lateStart 1) lateLoop ∧ ¬ StaysStopped .webhook (lateStart 2) lateLoop := by
  refine ⟨?_, ?_, ?_, ?_⟩
  · exact not_staysStopped rfl (by decide) (by decide) rfl rfl (by decide)
  · exact not_staysStopped rfl (by decide) (by decide) rfl rfl (by decide)
  · exact not_staysStopped rfl (by decide) (by decide) rfl rfl (by decide)
  · exact not_staysStopped rfl (by decide) (by decide) rfl rfl (by decide)

end TriggerWorld

end Xerv.Nodes
