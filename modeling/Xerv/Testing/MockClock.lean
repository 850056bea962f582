import Xerv.Lib.Machine
import Xerv.Lib.Positions
import Mathlib.Data.Nat.Notation
import Mathlib.Tactic.IntervalCases

/-!
# The mock clock (`xerv-core/src/testing/providers/clock.rs`)

Sleeping futures register a waker with the clock, and `advance` wakes those whose deadline has
passed. Every atomic access and every lock section is one step, and a call begins with its first
one; local computation belongs to the step before it. Sums wrap around.
-/

namespace Xerv.Testing
open Xerv.Lib Xerv.Lib.Machine

structure PendingSleep (W : Type) where
  wakeAtNanos : UInt64
  waker : Option W
  deriving DecidableEq, Repr

structure MockClock (W : Type) where
  currentNanos : UInt64
  systemTimeMillis : UInt64
  pendingSleeps : List (PendingSleep W)
  deriving DecidableEq, Repr

structure MockSleepFuture where
  wakeAt : UInt64
  registered : Bool
  deriving DecidableEq, Repr

variable {W : Type}

/-- `new`; `fixed` and `at_now` begin with other system times. -/
def MockClock.new (millis : UInt64) : MockClock W := ⟨0, millis, []⟩

/-- `wake_expired_sleeps`, with the wakers that it wakes. -/
def MockClock.wakeExpiredSleeps (clock : MockClock W) (current : UInt64) : MockClock W × List W :=
  ({ clock with pendingSleeps := clock.pendingSleeps.filter fun sleep => ¬ sleep.wakeAtNanos ≤ current },
    (clock.pendingSleeps.filter fun sleep => sleep.wakeAtNanos ≤ current).filterMap PendingSleep.waker)

/-- The first entry with the deadline. -/
def updateWaker (wakeAt : UInt64) (waker : W) : List (PendingSleep W) → List (PendingSleep W)
  | [] => []
  | sleep :: sleeps =>
    if sleep.wakeAtNanos = wakeAt then { sleep with waker := some waker } :: sleeps
    else sleep :: updateWaker wakeAt waker sleeps

/-- The lock section of `poll`. -/
def MockClock.register (clock : MockClock W) (future : MockSleepFuture) (waker : W) : MockClock W :=
  { clock with
    pendingSleeps :=
      if !future.registered then clock.pendingSleeps ++ [⟨future.wakeAt, some waker⟩]
      else updateWaker future.wakeAt waker clock.pendingSleeps }

/-! ### Calls in progress -/

/-- How far a future was polled. A poll remembers how many wake-ups there had been when it began. -/
inductive Poll (W : Type) where
  | created
  | polling (waker : W) (since : ℕ)
  | pending (waker : W) (since : ℕ)
  | ready
  deriving DecidableEq, Repr

/-- A call of `sleep` before its second look at the time, or the future it has returned. -/
inductive Sleeper (W : Type) where
  | starting (wakeAt : UInt64)
  | done
  | waiting (future : MockSleepFuture) (poll : Poll W)
  deriving DecidableEq, Repr

/-- A call of `advance` behind its first step. -/
inductive Advance where
  | adding (newTime millis : UInt64)
  | waking (newTime : UInt64)
  | returned
  deriving DecidableEq, Repr

structure ClockRun (W : Type) where
  clock : MockClock W
  sleepers : List (Sleeper W)
  advances : List Advance
  wakes : List W
  deriving DecidableEq, Repr

/-- Durations are in nanoseconds. -/
inductive ClockAction (W : Type) where
  | sleep (duration : ℕ)
  | sleepCheck (i : ℕ)
  | poll (i : ℕ) (waker : W)
  | register (i : ℕ)
  | advance (duration : ℕ)
  | advanceMillis (i : ℕ)
  | wake (i : ℕ)
  deriving DecidableEq, Repr

def Poll.inProgress : Poll W → Bool
  | .polling _ _ => true
  | _ => false

def Sleeper.inProgress : Sleeper W → Bool
  | .starting _ => true
  | .waiting _ poll => poll.inProgress
  | .done => false

namespace ClockRun

def start (millis : UInt64) : ClockRun W := ⟨.new millis, [], [], []⟩

def setSleeper (s : ClockRun W) (i : ℕ) (sleeper : Sleeper W) : ClockRun W :=
  { s with sleepers := s.sleepers.set i sleeper }

def step (s : ClockRun W) : ClockAction W → Option (ClockRun W)
  | .sleep duration =>
    some { s with sleepers := s.sleepers ++ [.starting (s.clock.currentNanos + .ofNat duration)] }
  | .sleepCheck i =>
    match s.sleepers[i]? with
    | some (.starting wakeAt) =>
      some (s.setSleeper i (if wakeAt ≤ s.clock.currentNanos then .done else .waiting ⟨wakeAt, false⟩ .created))
    | _ => none
  | .poll i waker =>
    match s.sleepers[i]? with
    | some .done => some s
    | some (.waiting future poll) =>
      if poll.inProgress then none
      else if future.wakeAt ≤ s.clock.currentNanos then some (s.setSleeper i (.waiting future .ready))
      else some (s.setSleeper i (.waiting future (.polling waker s.wakes.length)))
    | _ => none
  | .register i =>
    match s.sleepers[i]? with
    | some (.waiting future (.polling waker since)) =>
      some { s.setSleeper i (.waiting { future with registered := true } (.pending waker since)) with
        clock := s.clock.register future waker }
    | _ => none
  | .advance duration =>
    let newTime := s.clock.currentNanos + .ofNat duration
    some { s with
      clock := { s.clock with currentNanos := newTime }
      advances := s.advances ++ [.adding newTime (.ofNat (duration / 1000000))] }
  | .advanceMillis i =>
    match s.advances[i]? with
    | some (.adding newTime millis) =>
      some { s with
        clock := { s.clock with systemTimeMillis := s.clock.systemTimeMillis + millis }
        advances := s.advances.set i (.waking newTime) }
    | _ => none
  | .wake i =>
    match s.advances[i]? with
    | some (.waking newTime) =>
      some { s with
        clock := (s.clock.wakeExpiredSleeps newTime).1
        advances := s.advances.set i .returned
        wakes := s.wakes ++ (s.clock.wakeExpiredSleeps newTime).2 }
    | _ => none

/-- No call is in progress. -/
def Quiet (s : ClockRun W) : Prop :=
  (∀ sleeper ∈ s.sleepers, sleeper.inProgress = false) ∧ ∀ advance ∈ s.advances, advance = .returned

/-- The waker of the last poll has been woken where its deadline has come. -/
def AllWoken (s : ClockRun W) : Prop :=
  ∀ future waker since, Sleeper.waiting future (.pending waker since) ∈ s.sleepers →
    future.wakeAt ≤ s.clock.currentNanos → waker ∈ s.wakes.drop since

end ClockRun

/-! ### Registrations that hold -/

/-- The advance is still to wake what is due at `wakeAt`. -/
def Advance.WillWake (wakeAt : UInt64) : Advance → Prop
  | .adding newTime _ => wakeAt ≤ newTime
  | .waking newTime => wakeAt ≤ newTime
  | .returned => False

def behindFirst (wakeAt : UInt64) : List (PendingSleep W) → List (PendingSleep W)
  | [] => []
  | sleep :: sleeps => if sleep.wakeAtNanos = wakeAt then sleeps else behindFirst wakeAt sleeps

namespace ClockRun

/-- The deadline is still to come, or the advance that passed it is still to wake its sleepers. -/
def Awaited (s : ClockRun W) (wakeAt : UInt64) : Prop :=
  s.clock.currentNanos < wakeAt ∨ ∃ advance ∈ s.advances, advance.WillWake wakeAt

/-- A lock section of `poll` that puts its waker into an entry from which it will be woken, and takes no other
future's waker out of its last one. -/
def Registers (s : ClockRun W) : ClockAction W → Prop
  | .register i =>
    ∀ future waker since, s.sleepers[i]? = some (.waiting future (.polling waker since)) →
      (waker ∈ s.wakes.drop since ∨ s.Awaited future.wakeAt ∧
        (future.registered = true → ∃ sleep ∈ s.clock.pendingSleeps, sleep.wakeAtNanos = future.wakeAt)) ∧
      (future.registered = true → ∀ other waker' since',
        Sleeper.waiting other (.pending waker' since') ∈ s.sleepers → other.wakeAt = future.wakeAt →
        waker' ∈ s.wakes.drop since' ∨ waker' = waker ∨
          ⟨future.wakeAt, some waker'⟩ ∈ behindFirst future.wakeAt s.clock.pendingSleeps)
  | _ => True

/-- What a poll in progress or a pending future relies on. -/
def Covered (s : ClockRun W) : Sleeper W → Prop
  | .waiting _ (.polling _ since) => since ≤ s.wakes.length
  | .waiting future (.pending waker since) =>
    since ≤ s.wakes.length ∧ (waker ∈ s.wakes.drop since ∨
      s.Awaited future.wakeAt ∧ ⟨future.wakeAt, some waker⟩ ∈ s.clock.pendingSleeps)
  | _ => True

def Inv (s : ClockRun W) : Prop := ∀ sleeper ∈ s.sleepers, s.Covered sleeper

end ClockRun

section Steps
variable {s s' : ClockRun W} {wakeAt newTime : UInt64} {waker : W} {sleeps : List (PendingSleep W)}

/-! ### The list of entries -/

theorem updateWaker_of_ne {entry : PendingSleep W} (hentry : entry ∈ sleeps) (hne : entry.wakeAtNanos ≠ wakeAt) :
    entry ∈ updateWaker wakeAt waker sleeps := by
  induction sleeps with
  | nil => exact absurd hentry List.not_mem_nil
  | cons sleep sleeps ih =>
    rw [updateWaker]
    rcases List.mem_cons.mp hentry with rfl | htail
    · rw [if_neg hne]
      exact List.mem_cons_self
    · split
      · exact List.mem_cons_of_mem _ htail
      · exact List.mem_cons_of_mem _ (ih htail)

theorem updateWaker_of_behind {entry : PendingSleep W} (hentry : entry ∈ behindFirst wakeAt sleeps) :
    entry ∈ updateWaker wakeAt waker sleeps := by
  induction sleeps with
  | nil => exact absurd hentry List.not_mem_nil
  | cons sleep sleeps ih =>
    rw [behindFirst] at hentry
    rw [updateWaker]
    split at hentry <;> rename_i hdeadline
    · rw [if_pos hdeadline]
      exact List.mem_cons_of_mem _ hentry
    · rw [if_neg hdeadline]
      exact List.mem_cons_of_mem _ (ih hentry)

theorem updateWaker_self (h : ∃ sleep ∈ sleeps, sleep.wakeAtNanos = wakeAt) :
    ⟨wakeAt, some waker⟩ ∈ updateWaker wakeAt waker sleeps := by
  induction sleeps with
  | nil => simp at h
  | cons sleep sleeps ih =>
    rw [updateWaker]
    split <;> rename_i hdeadline
    · subst hdeadline
      exact List.mem_cons_self
    · refine List.mem_cons_of_mem _ (ih ?_)
      obtain ⟨entry, hentry, heq⟩ := h
      rcases List.mem_cons.mp hentry with rfl | htail
      · exact absurd heq hdeadline
      · exact ⟨entry, htail, heq⟩

theorem mem_register_self {clock : MockClock W} {future : MockSleepFuture}
    (h : future.registered = true → ∃ sleep ∈ clock.pendingSleeps, sleep.wakeAtNanos = future.wakeAt) :
    ⟨future.wakeAt, some waker⟩ ∈ (clock.register future waker).pendingSleeps := by
  unfold MockClock.register
  cases hregistered : future.registered with
  | false => simp
  | true => exact updateWaker_self (h hregistered)

/-! ### What the steps keep -/

theorem ClockRun.Covered.mono {sleeper : Sleeper W} (h : s.Covered sleeper) (hwakes : s.wakes <+: s'.wakes)
    (hawaited : ∀ wakeAt, s.Awaited wakeAt → s'.Awaited wakeAt)
    (hentries : s.clock.pendingSleeps ⊆ s'.clock.pendingSleeps) : s'.Covered sleeper := by
  obtain ⟨more, hmore⟩ := hwakes
  have hlength : s.wakes.length ≤ s'.wakes.length := by
    rw [← hmore, List.length_append]
    exact Nat.le_add_right _ _
  cases sleeper with
  | starting => trivial
  | done => trivial
  | waiting future poll =>
    cases poll with
    | created => trivial
    | ready => trivial
    | polling waker since => exact Nat.le_trans h hlength
    | pending waker since =>
      obtain ⟨hsince, hwoken | ⟨hawait, hentry⟩⟩ := h
      · refine ⟨Nat.le_trans hsince hlength, .inl ?_⟩
        rw [← hmore, List.drop_append]
        exact List.mem_append_left _ hwoken
      · exact ⟨Nat.le_trans hsince hlength, .inr ⟨hawaited _ hawait, hentries hentry⟩⟩

theorem ClockRun.Inv.mono (h : s.Inv) (hsleepers : s'.sleepers = s.sleepers) (hwakes : s.wakes <+: s'.wakes)
    (hawaited : ∀ wakeAt, s.Awaited wakeAt → s'.Awaited wakeAt)
    (hentries : s.clock.pendingSleeps ⊆ s'.clock.pendingSleeps) : s'.Inv := by
  intro sleeper hmem
  rw [hsleepers] at hmem
  exact (h sleeper hmem).mono hwakes hawaited hentries

theorem ClockRun.Inv.setSleeper (h : s.Inv) {sleeper : Sleeper W} (i : ℕ) (hcovered : s.Covered sleeper) :
    (s.setSleeper i sleeper).Inv := by
  intro other hmem
  rcases List.mem_or_eq_of_mem_set hmem with hold | rfl
  · exact h other hold
  · exact hcovered

/-- A call of `advance` passes the deadlines up to its time and takes over their sleepers. -/
theorem awaited_advance (duration : ℕ) (h : s.Awaited wakeAt)
    (hstep : ClockRun.step s (.advance duration) = some s') : s'.Awaited wakeAt := by
  cases hstep
  rcases h with hlater | ⟨advance, hadvance, hwill⟩
  · by_cases hpassed : wakeAt ≤ s.clock.currentNanos + .ofNat duration
    · exact .inr ⟨_, List.mem_append_right _ List.mem_cons_self, hpassed⟩
    · exact .inl (UInt64.not_le.mp hpassed)
  · exact .inr ⟨advance, List.mem_append_left _ hadvance, hwill⟩

theorem mem_set_of_ne {α : Type} {l : List α} {i : ℕ} {x y z : α} (hx : l[i]? = some x) (hy : y ∈ l) (hne : y ≠ x) :
    y ∈ l.set i z := by
  obtain ⟨j, hj⟩ := List.mem_iff_getElem?.mp hy
  have hij : i ≠ j := by
    rintro rfl
    exact hne (Option.some.inj (hj.symm.trans hx))
  exact List.mem_of_getElem? ((List.getElem?_set_ne hij).trans hj)

theorem awaited_advanceMillis {i : ℕ} {millis : UInt64} (h : s.Awaited wakeAt)
    (hadvance : s.advances[i]? = some (.adding newTime millis))
    (hstep : ClockRun.step s (.advanceMillis i) = some s') : s'.Awaited wakeAt := by
  rw [ClockRun.step, hadvance] at hstep
  cases hstep
  rcases h with hlater | ⟨advance, hin, hwill⟩
  · exact .inl hlater
  by_cases hsame : advance = .adding newTime millis
  · subst hsame
    obtain ⟨hlt, -⟩ := List.getElem?_eq_some_iff.mp hadvance
    exact .inr ⟨.waking newTime, List.mem_set hlt _, hwill⟩
  · exact .inr ⟨advance, mem_set_of_ne hadvance hin hsame, hwill⟩

theorem ClockRun.Inv.wake (h : s.Inv) {i : ℕ} (hadvance : s.advances[i]? = some (.waking newTime))
    (hstep : ClockRun.step s (.wake i) = some s') : s'.Inv := by
  rw [ClockRun.step, hadvance] at hstep
  cases hstep
  intro sleeper hmem
  have hold := h sleeper hmem
  cases sleeper with
  | starting => trivial
  | done => trivial
  | waiting future poll =>
    cases poll with
    | created => trivial
    | ready => trivial
    | polling waker since => exact Nat.le_trans hold (List.prefix_append _ _).length_le
    | pending waker since =>
      obtain ⟨hsince, hcases⟩ := hold
      refine ⟨Nat.le_trans hsince (List.prefix_append _ _).length_le, ?_⟩
      dsimp only
      rw [List.drop_append_of_le_length hsince, List.mem_append]
      rcases hcases with hwoken | ⟨hawait, hentry⟩
      · exact .inl (.inl hwoken)
      by_cases hdue : future.wakeAt ≤ newTime
      · refine .inl (.inr (List.mem_filterMap.mpr ⟨_, List.mem_filter.mpr ⟨hentry, ?_⟩, rfl⟩))
        exact decide_eq_true hdue
      · refine .inr ⟨?_, List.mem_filter.mpr ⟨hentry, decide_eq_true hdue⟩⟩
        rcases hawait with hlater | ⟨advance, hin, hwill⟩
        · exact .inl hlater
        · have hother : advance ≠ .waking newTime := by
            rintro rfl
            exact hdue hwill
          exact .inr ⟨advance, mem_set_of_ne hadvance hin hother, hwill⟩

theorem covered_register {i : ℕ} {future : MockSleepFuture} {since : ℕ} {sleeper : Sleeper W}
    (hpolling : s.sleepers[i]? = some (.waiting future (.polling waker since))) (hregisters : s.Registers (.register i))
    (hmem : sleeper ∈ s.sleepers) (hcovered : s.Covered sleeper)
    (hstep : ClockRun.step s (.register i) = some s') : s'.Covered sleeper := by
  obtain ⟨-, hothers⟩ := hregisters future waker since hpolling
  rw [ClockRun.step, hpolling] at hstep
  cases hstep
  cases hregistered : future.registered with
  | false =>
    refine hcovered.mono List.prefix_rfl (fun _ hawait => hawait) ?_
    intro entry hentry
    simp [MockClock.register, hregistered, hentry]
  | true =>
    cases sleeper with
    | starting => trivial
    | done => trivial
    | waiting other poll =>
      cases poll with
      | created => trivial
      | ready => trivial
      | polling waker' since' => exact hcovered
      | pending waker' since' =>
        obtain ⟨hsince, hwoken | ⟨hawait, hentry⟩⟩ := hcovered
        · exact ⟨hsince, .inl hwoken⟩
        refine ⟨hsince, ?_⟩
        have hupdated : (s.clock.register future waker).pendingSleeps =
            updateWaker future.wakeAt waker s.clock.pendingSleeps := by
          simp [MockClock.register, hregistered]
        dsimp only
        rw [hupdated]
        by_cases hdeadline : other.wakeAt = future.wakeAt
        · rw [hdeadline] at hentry hawait ⊢
          rcases hothers hregistered other waker' since' hmem hdeadline with hwoken | rfl | hbehind
          · exact .inl hwoken
          · exact .inr ⟨hawait, updateWaker_self ⟨_, hentry, rfl⟩⟩
          · exact .inr ⟨hawait, updateWaker_of_behind hbehind⟩
        · exact .inr ⟨hawait, updateWaker_of_ne hentry hdeadline⟩

theorem ClockRun.Inv.register (h : s.Inv) {i : ℕ} {future : MockSleepFuture} {since : ℕ}
    (hpolling : s.sleepers[i]? = some (.waiting future (.polling waker since))) (hregisters : s.Registers (.register i))
    (hstep : ClockRun.step s (.register i) = some s') : s'.Inv := by
  have hself : since ≤ s.wakes.length := h _ (List.mem_of_getElem? hpolling)
  have hold := fun sleeper hmem => covered_register hpolling hregisters hmem (h sleeper hmem) hstep
  obtain ⟨hown, -⟩ := hregisters future waker since hpolling
  rw [ClockRun.step, hpolling] at hstep
  cases hstep
  intro sleeper hmem
  rcases List.mem_or_eq_of_mem_set hmem with hbefore | rfl
  · exact hold sleeper hbefore
  · refine ⟨hself, ?_⟩
    rcases hown with hwoken | ⟨hawait, hentry⟩
    · exact .inl hwoken
    · exact .inr ⟨hawait, mem_register_self hentry⟩

theorem ClockRun.Inv.step (h : s.Inv) {a : ClockAction W} (hregisters : s.Registers a)
    (hstep : ClockRun.step s a = some s') : s'.Inv := by
  cases a with
  | sleep duration =>
    cases hstep
    intro sleeper hmem
    rcases List.mem_append.mp hmem with hold | hnew
    · exact h sleeper hold
    · rw [List.mem_singleton.mp hnew]
      trivial
  | sleepCheck i =>
    rw [ClockRun.step] at hstep
    split at hstep
    · cases hstep
      refine h.setSleeper i ?_
      split <;> trivial
    · cases hstep
  | poll i waker =>
    rw [ClockRun.step] at hstep
    split at hstep
    · cases hstep
      exact h
    · split at hstep
      · cases hstep
      · split at hstep
        · cases hstep
          exact h.setSleeper i trivial
        · cases hstep
          exact h.setSleeper i (Nat.le_refl _)
    · cases hstep
  | register i =>
    cases hsleeper : s.sleepers[i]? with
    | none => simp [ClockRun.step, hsleeper] at hstep
    | some sleeper =>
      cases sleeper with
      | starting => simp [ClockRun.step, hsleeper] at hstep
      | done => simp [ClockRun.step, hsleeper] at hstep
      | waiting future poll =>
        cases poll with
        | polling waker since => exact h.register hsleeper hregisters hstep
        | created => simp [ClockRun.step, hsleeper] at hstep
        | pending => simp [ClockRun.step, hsleeper] at hstep
        | ready => simp [ClockRun.step, hsleeper] at hstep
  | advance duration =>
    have hawaited := fun wakeAt (hawait : s.Awaited wakeAt) => awaited_advance duration hawait hstep
    cases hstep
    exact h.mono rfl List.prefix_rfl hawaited (List.Subset.refl _)
  | advanceMillis i =>
    cases hadvance : s.advances[i]? with
    | none => simp [ClockRun.step, hadvance] at hstep
    | some advance =>
      cases advance with
      | adding newTime millis =>
        have hawaited := fun wakeAt (hawait : s.Awaited wakeAt) => awaited_advanceMillis hawait hadvance hstep
        rw [ClockRun.step, hadvance] at hstep
        cases hstep
        exact h.mono rfl List.prefix_rfl hawaited (List.Subset.refl _)
      | waking => simp [ClockRun.step, hadvance] at hstep
      | returned => simp [ClockRun.step, hadvance] at hstep
  | wake i =>
    cases hadvance : s.advances[i]? with
    | none => simp [ClockRun.step, hadvance] at hstep
    | some advance =>
      cases advance with
      | waking newTime => exact h.wake hadvance hstep
      | adding => simp [ClockRun.step, hadvance] at hstep
      | returned => simp [ClockRun.step, hadvance] at hstep

end Steps

/-! ### Runs -/

theorem ClockRun.Inv.allWoken {s : ClockRun W} (h : s.Inv) (hquiet : s.Quiet) : s.AllWoken := by
  intro future waker since hmem hpassed
  obtain ⟨-, hwoken | ⟨hlater | ⟨advance, hadvance, hwill⟩, -⟩⟩ := h _ hmem
  · exact hwoken
  · exact absurd hpassed (UInt64.not_le.mpr hlater)
  · rw [hquiet.2 advance hadvance] at hwill
    exact hwill.elim

/-- In every run of calls whose registrations all hold, wherever no call is in progress every future whose last poll
returned `Pending` and whose deadline has come has had the waker of that poll woken. -/
theorem sleepers_woken (millis : UInt64) (actions : List (ClockAction W)) (s : ClockRun W)
    (hrun : run ClockRun.step (.start millis) actions = some s)
    (hregisters : ∀ before a s₁, before ++ [a] <+: actions →
      run ClockRun.step (.start millis) before = some s₁ → s₁.Registers a)
    (hquiet : s.Quiet) : s.AllWoken := by
  refine ClockRun.Inv.allWoken ?_ hquiet
  refine run_guarded ClockRun.Registers ClockRun.Inv ?_ actions ?_ hrun hregisters
  · exact fun s a s' hregister hs hstep => hs.step hregister hstep
  · exact fun sleeper hmem => absurd hmem List.not_mem_nil

/-- Two sleeps of ten nanoseconds, the first polled again with another waker, and the advance that ends them. -/
def sleepsAndAdvance : List (ClockAction ℕ) :=
  [.sleep 10, .sleepCheck 0, .poll 0 7, .register 0, .sleep 10, .sleepCheck 1, .poll 1 8, .register 1, .poll 0 9,
    .register 0, .advance 10, .advanceMillis 0, .wake 0]

theorem sleepsAndAdvance_polls {n i : ℕ} (h : sleepsAndAdvance[n]? = some (.register i)) :
    (n = 3 ∧ i = 0) ∨ (n = 7 ∧ i = 1) ∨ (n = 9 ∧ i = 0) := by
  have hlt : n < 13 := (List.getElem?_eq_some_iff.mp h).1
  interval_cases n <;> simp_all [sleepsAndAdvance]

theorem sleepsAndAdvance_registers (before : List (ClockAction ℕ)) (a : ClockAction ℕ) (s : ClockRun ℕ)
    (hpre : before ++ [a] <+: sleepsAndAdvance) (hbefore : run ClockRun.step (.start 0) before = some s) :
    s.Registers a := by
  cases a with
  | register i =>
    have hplace := getElem?_of_prefix hpre List.getElem?_concat_length
    rw [List.prefix_iff_eq_take.mp ((List.prefix_append before _).trans hpre)] at hbefore
    rcases sleepsAndAdvance_polls hplace with ⟨hlen, rfl⟩ | ⟨hlen, rfl⟩ | ⟨hlen, rfl⟩
    · have hstate : run ClockRun.step (.start 0) (sleepsAndAdvance.take 3) =
          some ⟨⟨0, 0, []⟩, [.waiting ⟨10, false⟩ (.polling 7 0)], [], []⟩ := by decide
      rw [hlen] at hbefore
      cases hstate.symm.trans hbefore
      intro future waker since hpolling
      cases hpolling
      exact ⟨.inr ⟨.inl (by decide), nofun⟩, nofun⟩
    · have hstate : run ClockRun.step (.start 0) (sleepsAndAdvance.take 7) =
          some ⟨⟨0, 0, [⟨10, some 7⟩]⟩,
            [.waiting ⟨10, true⟩ (.pending 7 0), .waiting ⟨10, false⟩ (.polling 8 0)], [], []⟩ := by decide
      rw [hlen] at hbefore
      cases hstate.symm.trans hbefore
      intro future waker since hpolling
      cases hpolling
      exact ⟨.inr ⟨.inl (by decide), nofun⟩, nofun⟩
    · have hstate : run ClockRun.step (.start 0) (sleepsAndAdvance.take 9) =
          some ⟨⟨0, 0, [⟨10, some 7⟩, ⟨10, some 8⟩]⟩,
            [.waiting ⟨10, true⟩ (.polling 9 0), .waiting ⟨10, true⟩ (.pending 8 0)], [], []⟩ := by decide
      rw [hlen] at hbefore
      cases hstate.symm.trans hbefore
      intro future waker since hpolling
      cases hpolling
      refine ⟨.inr ⟨.inl (by decide), fun _ => ⟨⟨10, some 7⟩, List.mem_cons_self, rfl⟩⟩,
        fun _ other waker' since' hother _ => ?_⟩
      -- the entry of the other sleep stands behind the one that is updated
      rcases List.mem_cons.mp hother with hself | hsecond
      · cases hself
      · cases List.mem_singleton.mp hsecond
        exact .inr (.inr (by decide))
  | _ => trivial

theorem sleepers_woken_two : ∃ s, run ClockRun.step (.start 0) sleepsAndAdvance = some s ∧ s.AllWoken := by
  refine ⟨⟨⟨10, 0, []⟩, [.waiting ⟨10, true⟩ (.pending 9 0), .waiting ⟨10, true⟩ (.pending 8 0)], [.returned],
    [9, 8]⟩, by decide, ?_⟩
  exact sleepers_woken 0 sleepsAndAdvance _ (by decide) sleepsAndAdvance_registers
    ⟨by decide, by decide⟩

/-- A wake-up is lost where an `advance` runs between the two steps of a poll; and, with no call during another,
where a future is polled again that sleeps until the same instant as another one. -/
theorem sleeper_lost :
    (∃ s : ClockRun ℕ, run ClockRun.step (.start 0) [.sleep 10, .sleepCheck 0, .poll 0 7, .advance 10,
      .advanceMillis 0, .wake 0, .register 0] = some s ∧ s.Quiet ∧ ¬ s.AllWoken) ∧
    ∃ s : ClockRun ℕ, run ClockRun.step (.start 0) [.sleep 10, .sleepCheck 0, .sleep 10, .sleepCheck 1,
      .poll 0 7, .register 0, .poll 1 8, .register 1, .poll 1 8, .register 1, .advance 10, .advanceMillis 0,
      .wake 0] = some s ∧ s.Quiet ∧ ¬ s.AllWoken := by
  constructor
  · refine ⟨⟨⟨10, 0, [⟨10, some 7⟩]⟩, [.waiting ⟨10, true⟩ (.pending 7 0)], [.returned], []⟩, by decide,
      ⟨by decide, by decide⟩, fun h => ?_⟩
    exact absurd (h ⟨10, true⟩ 7 0 (by decide) (by decide)) (by decide)
  · refine ⟨⟨⟨10, 0, []⟩, [.waiting ⟨10, true⟩ (.pending 7 0), .waiting ⟨10, true⟩ (.pending 8 0)], [.returned],
      [8, 8]⟩, by decide, ⟨by decide, by decide⟩, fun h => ?_⟩
    exact absurd (h ⟨10, true⟩ 7 0 (by decide) (by decide)) (by decide)

end Xerv.Testing
