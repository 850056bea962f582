import Mathlib.Data.Fintype.EquivFin
import Mathlib.Data.Fintype.Lattice
import Xerv.Lib.Machine

/-!
# Reader-writer locks and deadlock

Every call takes a fixed list of locks one after the other, then releases them in the reverse
order. A call first requests a lock and is granted it later; under the fair policy a reader
is not granted a lock that a writer has requested. Calls that all take the contended locks in the
order of one rank never deadlock; two calls whose first locks are wanted by the other do.
-/

namespace Xerv.Lib.RwLocks

inductive Mode where
  | read | write
  deriving DecidableEq, Repr

structure Access (L : Type*) where
  lock : L
  mode : Mode
  deriving DecidableEq

/-- A call in progress: the accesses it holds (the latest first), whether it has requested the
first of those it still needs, and the latter. -/
structure Call (L : Type*) where
  held : List (Access L)
  waiting : Bool
  todo : List (Access L)

variable {ι L : Type*}

def Call.Finished (c : Call L) : Prop := c.held = [] ∧ c.todo = []

def Call.Requests (c : Call L) (a : Access L) : Prop := c.waiting = true ∧ c.todo.head? = some a

def start (program : ι → List (Access L)) : ι → Call L := fun i => ⟨[], false, program i⟩

/-- Whether a requested access can be granted: a write needs the lock free, a read needs it free of
writers, and under the fair policy no writer may have requested it. -/
def Grants (fair : Bool) (s : ι → Call L) (a : Access L) : Prop :=
  (∀ i, ∀ b ∈ (s i).held, b.lock = a.lock → a.mode = .read ∧ b.mode = .read) ∧
    (fair = true → a.mode = .read → ∀ i, ¬ (s i).Requests ⟨a.lock, .write⟩)

inductive Action (ι : Type*) where
  | request (i : ι)
  | grant (i : ι)
  | release (i : ι)

/-! ### Ranked locks -/

/-- What a call holds and still needs, in the order of its program. -/
def Follows (program : ι → List (Access L)) (s : ι → Call L) : Prop :=
  ∀ i, (s i).held.reverse ++ (s i).todo <+: program i

theorem follows_update [DecidableEq ι] (program : ι → List (Access L)) (s : ι → Call L) (i : ι)
    (c : Call L) (h : Follows program s) (hi : c.held.reverse ++ c.todo <+: program i) :
    Follows program (Function.update s i c) := by
  intro j
  by_cases hj : j = i
  · subst hj
    rw [Function.update_self]
    exact hi
  · rw [Function.update_of_ne hj]
    exact h j

/-- A lock that some call writes. -/
def Contended (program : ι → List (Access L)) (l : L) : Prop :=
  ∃ i, ∃ a ∈ program i, a.lock = l ∧ a.mode = .write

/-- Every call takes the contended locks in increasing rank. -/
def Ranked (rank : L → ℕ) (program : ι → List (Access L)) : Prop :=
  ∀ i, (program i).Pairwise fun a b =>
    Contended program a.lock → Contended program b.lock → rank a.lock < rank b.lock

theorem mem_program_of_held {program : ι → List (Access L)} {s : ι → Call L} (h : Follows program s)
    {i : ι} {a : Access L} (ha : a ∈ (s i).held) : a ∈ program i :=
  (h i).subset (List.mem_append_left _ (List.mem_reverse.mpr ha))

theorem mem_program_of_request {program : ι → List (Access L)} {s : ι → Call L}
    (h : Follows program s) {i : ι} {a : Access L} (ha : (s i).Requests a) : a ∈ program i :=
  (h i).subset (List.mem_append_right _ (List.mem_of_mem_head? ha.2))

theorem contended_of_refused (fair : Bool) {program : ι → List (Access L)} {s : ι → Call L}
    (h : Follows program s) {i : ι} {a : Access L} (ha : (s i).Requests a)
    (hno : ¬ Grants fair s a) : Contended program a.lock := by
  cases hmode : a.mode with
  | write => exact ⟨i, a, mem_program_of_request h ha, rfl, hmode⟩
  | read =>
    unfold Grants at hno
    rw [not_and_or] at hno
    rcases hno with hheld | hwaiting
    · push Not at hheld
      obtain ⟨j, b, hb, hlock, hconflict⟩ := hheld
      refine ⟨j, b, mem_program_of_held h hb, hlock, ?_⟩
      cases hb' : b.mode with
      | read => exact absurd hb' (hconflict hmode)
      | write => rfl
    · push Not at hwaiting
      obtain ⟨-, -, j, hj⟩ := hwaiting
      exact ⟨j, _, mem_program_of_request h hj, rfl, rfl⟩

theorem rank_held_lt_request {rank : L → ℕ} {program : ι → List (Access L)} {s : ι → Call L}
    (hranked : Ranked rank program) (h : Follows program s) {i : ι} {a b : Access L}
    (ha : (s i).Requests a) (hb : b ∈ (s i).held) (hca : Contended program a.lock)
    (hcb : Contended program b.lock) : rank b.lock < rank a.lock := by
  have hpair := (hranked i).sublist (h i).sublist
  rw [List.pairwise_append] at hpair
  exact hpair.2.2 b (List.mem_reverse.mpr hb) a (List.mem_of_mem_head? ha.2) hcb hca

/-! ### Free and crossed locks -/

def Free (s : ι → Call L) (l : L) : Prop :=
  ∀ i, (∀ b ∈ (s i).held, b.lock ≠ l) ∧ ∀ m, ¬ (s i).Requests ⟨l, m⟩

/-- Each of two calls has taken a lock that the other needs next. -/
structure Crossed (p : List (Access L)) (a : Access L) (q : List (Access L)) (b : Access L) : Prop where
  first : ∃ x ∈ p, x.lock = b.lock ∧ (x.mode = .write ∨ b.mode = .write)
  second : ∃ y ∈ q, y.lock = a.lock ∧ (y.mode = .write ∨ a.mode = .write)
  apart : ∀ x ∈ p, ∀ y ∈ q, x.lock ≠ y.lock

theorem not_grants_of_held {fair : Bool} {s : ι → Call L} {i : ι} {a x : Access L} (hx : x ∈ (s i).held)
    (hlock : x.lock = a.lock) (hconflict : x.mode = .write ∨ a.mode = .write) :
    ¬ Grants fair s a := by
  intro h
  have hmodes := h.1 i x hx hlock
  rcases hconflict with hw | hw
  · rw [hmodes.2] at hw
    cases hw
  · rw [hmodes.1] at hw
    cases hw

def afterCalls [DecidableEq ι] (program : ι → List (Access L)) (done : List ι) : ι → Call L :=
  fun i => if i ∈ done then ⟨[], false, []⟩ else ⟨[], false, program i⟩

theorem afterCalls_free [DecidableEq ι] (program : ι → List (Access L)) (done : List ι) (l : L) :
    Free (afterCalls program done) l := by
  intro i
  unfold afterCalls
  constructor
  · intro b hb
    split at hb
    · cases hb
    · cases hb
  · intro m hreq
    have hwaiting := hreq.1
    split at hwaiting
    · cases hwaiting
    · cases hwaiting

/-! ### Steps -/

section Step
variable [DecidableEq ι] [Fintype ι] [DecidableEq L]

instance (c : Call L) (a : Access L) : Decidable (c.Requests a) :=
  inferInstanceAs (Decidable (_ ∧ _))

instance (fair : Bool) (s : ι → Call L) (a : Access L) : Decidable (Grants fair s a) :=
  inferInstanceAs (Decidable (_ ∧ _))

def step (fair : Bool) (s : ι → Call L) : Action ι → Option (ι → Call L)
  | .request i =>
    if (s i).todo ≠ [] ∧ (s i).waiting = false then
      some (Function.update s i { s i with waiting := true })
    else none
  | .grant i =>
    match (s i).todo with
    | [] => none
    | a :: todo =>
      if (s i).waiting = true ∧ Grants fair s a then
        some (Function.update s i ⟨a :: (s i).held, false, todo⟩)
      else none
  | .release i =>
    match (s i).held with
    | [] => none
    | _ :: held =>
      if (s i).todo = [] then some (Function.update s i ⟨held, false, []⟩) else none

def Reachable (fair : Bool) (program : ι → List (Access L)) (s : ι → Call L) : Prop :=
  ∃ actions, Machine.run (step fair) (start program) actions = some s

/-- A call waits for a lock that another call holds. -/
def Waits (fair : Bool) (s : ι → Call L) (i : ι) : Prop :=
  ∃ a, (s i).Requests a ∧ ¬ Grants fair s a ∧ ∃ j, j ≠ i ∧ ∃ b ∈ (s j).held, b.lock = a.lock

/-- Some call is unfinished, and every unfinished call waits for a lock that another holds. -/
def Deadlocked (fair : Bool) (s : ι → Call L) : Prop :=
  (∃ i, ¬ (s i).Finished) ∧ ∀ i, ¬ (s i).Finished → Waits fair s i

def NoDeadlock (fair : Bool) (program : ι → List (Access L)) : Prop :=
  ∀ s, Reachable fair program s → ¬ Deadlocked fair s

theorem follows_step (fair : Bool) (program : ι → List (Access L)) (s : ι → Call L) (act : Action ι)
    (s' : ι → Call L) (h : Follows program s) (hs : step fair s act = some s') :
    Follows program s' := by
  cases act with
  | request i =>
    simp only [step, Option.ite_none_right_eq_some, Option.some.injEq] at hs
    rw [← hs.2]
    exact follows_update program s i _ h (h i)
  | grant i =>
    have hi := h i
    cases htodo : (s i).todo with
    | nil =>
      simp only [step, htodo] at hs
      cases hs
    | cons a todo =>
      simp only [step, htodo, Option.ite_none_right_eq_some, Option.some.injEq] at hs
      rw [← hs.2]
      refine follows_update program s i _ h ?_
      rw [htodo] at hi
      simpa using hi
  | release i =>
    have hi := h i
    cases hheld : (s i).held with
    | nil =>
      simp only [step, hheld] at hs
      cases hs
    | cons a held =>
      simp only [step, hheld, Option.ite_none_right_eq_some, Option.some.injEq] at hs
      rw [← hs.2]
      refine follows_update program s i _ h ?_
      rw [hheld, hs.1, List.append_nil, List.reverse_cons] at hi
      rw [List.append_nil]
      exact (List.prefix_append _ _).trans hi

theorem reachable_follows (fair : Bool) (program : ι → List (Access L)) (s : ι → Call L)
    (h : Reachable fair program s) : Follows program s := by
  obtain ⟨actions, hrun⟩ := h
  refine Machine.run_invariant (Follows program) (follows_step fair program) actions ?_ hrun
  intro i
  exact List.prefix_refl _

/-- Calls that take the contended locks by rank never deadlock: of the calls that wait, take the one
that waits for the lock of the highest rank, and the call that holds it. -/
theorem noDeadlock_of_ranked (fair : Bool) (rank : L → ℕ) (program : ι → List (Access L))
    (hranked : Ranked rank program) : NoDeadlock fair program := by
  intro s hreach ⟨⟨i₀, hi₀⟩, hall⟩
  have hfollows := reachable_follows fair program s hreach
  choose want hrequest hrefused holder _ b hb hlock using hall
  have : Nonempty {i // ¬ (s i).Finished} := ⟨⟨i₀, hi₀⟩⟩
  obtain ⟨⟨i, hi⟩, hmax⟩ := Finite.exists_max
    (fun i : {i // ¬ (s i).Finished} => rank (want i.1 i.2).lock)
  have hj : ¬ (s (holder i hi)).Finished := by
    intro hfin
    have hmem := hb i hi
    rw [hfin.1] at hmem
    cases hmem
  have hci := contended_of_refused fair hfollows (hrequest i hi) (hrefused i hi)
  have hcj := contended_of_refused fair hfollows (hrequest _ hj) (hrefused _ hj)
  have hlt := rank_held_lt_request hranked hfollows (hrequest _ hj) (hb i hi) hcj
    (by rw [hlock i hi]; exact hci)
  rw [hlock i hi] at hlt
  exact absurd (hmax ⟨_, hj⟩) (not_le.mpr hlt)

/-! ### Calls that run to their end, and calls that cannot -/

section Complete
variable (fair : Bool) (s : ι → Call L) (i : ι)

theorem take_lock (held : List (Access L)) (a : Access L) (todo : List (Access L))
    (hi : s i = ⟨held, false, a :: todo⟩) (hfree : Free s a.lock) :
    Machine.run (step fair) s [.request i, .grant i] =
      some (Function.update s i ⟨a :: held, false, todo⟩) := by
  have hrequest : step fair s (.request i) =
      some (Function.update s i ⟨held, true, a :: todo⟩) := by
    simp [step, hi]
  have hgrants : Grants fair (Function.update s i ⟨held, true, a :: todo⟩) a := by
    constructor
    · intro j b hb hlock
      by_cases hj : j = i
      · subst hj
        rw [Function.update_self] at hb
        exact absurd hlock ((hfree j).1 b (by rw [hi]; exact hb))
      · rw [Function.update_of_ne hj] at hb
        exact absurd hlock ((hfree j).1 b hb)
    · intro _ hmode j hreq
      by_cases hj : j = i
      · subst hj
        rw [Function.update_self] at hreq
        have hhead := hreq.2
        rw [List.head?_cons, Option.some.injEq] at hhead
        rw [hhead] at hmode
        cases hmode
      · rw [Function.update_of_ne hj] at hreq
        exact (hfree j).2 _ hreq
  rw [Machine.run, hrequest]
  simp [Machine.run, step, hgrants]

theorem take_locks (p held todo : List (Access L)) (hi : s i = ⟨held, false, p ++ todo⟩)
    (hnodup : (p.map Access.lock).Nodup) (hfree : ∀ a ∈ p, Free s a.lock) :
    ∃ actions, Machine.run (step fair) s actions =
      some (Function.update s i ⟨p.reverse ++ held, false, todo⟩) := by
  induction p generalizing s held with
  | nil =>
    refine ⟨[], ?_⟩
    rw [Machine.run, List.reverse_nil, List.nil_append, ← List.nil_append todo, ← hi,
      Function.update_eq_self]
  | cons a p ih =>
    rw [List.map_cons, List.nodup_cons] at hnodup
    have hfirst := take_lock fair s i held a (p ++ todo) hi (hfree a List.mem_cons_self)
    have hlater : ∀ b ∈ p, Free (Function.update s i ⟨a :: held, false, p ++ todo⟩) b.lock := by
      intro b hb j
      have hbj := hfree b (List.mem_cons_of_mem a hb) j
      by_cases hj : j = i
      · subst hj
        rw [Function.update_self]
        refine ⟨fun c hc => ?_, fun m hreq => by cases hreq.1⟩
        rcases List.mem_cons.mp hc with rfl | hc
        · exact fun heq => hnodup.1 (by rw [heq]; exact List.mem_map_of_mem hb)
        · rw [hi] at hbj
          exact hbj.1 c hc
      · rw [Function.update_of_ne hj]
        exact hbj
    obtain ⟨actions, hrest⟩ := ih _ (a :: held) (Function.update_self ..) hnodup.2 hlater
    refine ⟨[.request i, .grant i] ++ actions, ?_⟩
    rw [Machine.run_append, hfirst, Option.bind_some, hrest, Function.update_idem]
    simp

theorem release_locks (held : List (Access L)) (hi : s i = ⟨held, false, []⟩) :
    ∃ actions, Machine.run (step fair) s actions =
      some (Function.update s i ⟨[], false, []⟩) := by
  induction held generalizing s with
  | nil => exact ⟨[], by rw [← hi, Function.update_eq_self, Machine.run]⟩
  | cons a held ih =>
    obtain ⟨actions, hrest⟩ := ih (Function.update s i ⟨held, false, []⟩) (Function.update_self ..)
    refine ⟨.release i :: actions, ?_⟩
    have hrelease : step fair s (.release i) = some (Function.update s i ⟨held, false, []⟩) := by
      simp [step, hi]
    rw [Machine.run, hrelease, Option.bind_some, hrest, Function.update_idem]

theorem complete (p : List (Access L)) (hi : s i = ⟨[], false, p⟩)
    (hnodup : (p.map Access.lock).Nodup) (hfree : ∀ a ∈ p, Free s a.lock) :
    ∃ actions, Machine.run (step fair) s actions = some (Function.update s i ⟨[], false, []⟩) := by
  obtain ⟨taking, htake⟩ := take_locks fair s i p [] [] (by rw [hi, List.append_nil]) hnodup hfree
  obtain ⟨releasing, hrelease⟩ := release_locks fair
    (Function.update s i ⟨p.reverse ++ [], false, []⟩) i (p.reverse ++ []) (Function.update_self ..)
  refine ⟨taking ++ releasing, ?_⟩
  rw [Machine.run_append, htake, Option.bind_some, hrelease, Function.update_idem]

end Complete

theorem reachable_afterCalls (fair : Bool) (program : ι → List (Access L))
    (hnodup : ∀ i, ((program i).map Access.lock).Nodup) (done : List ι) :
    Reachable fair program (afterCalls program done) := by
  induction done with
  | nil => exact ⟨[], by simp [Machine.run, start, afterCalls, funext_iff]⟩
  | cons i done ih =>
    obtain ⟨actions, hrun⟩ := ih
    have hnext : afterCalls program (i :: done) =
        Function.update (afterCalls program done) i ⟨[], false, []⟩ := by
      funext j
      by_cases hj : j = i
      · subst hj
        simp [afterCalls]
      · simp [afterCalls, hj]
    by_cases hi : i ∈ done
    · refine ⟨actions, ?_⟩
      rw [hrun, hnext, Function.update_eq_self_iff.mpr]
      simp [afterCalls, hi]
    · obtain ⟨more, hmore⟩ := complete fair (afterCalls program done) i (program i)
        (by simp [afterCalls, hi]) (hnodup i) fun a _ => afterCalls_free program done a.lock
      exact ⟨actions ++ more, by rw [Machine.run_append, hrun, Option.bind_some, hmore, hnext]⟩

theorem run_crossed (fair : Bool) (s : ι → Call L) {i j : ι} (hij : i ≠ j)
    {p q after after' : List (Access L)} {a b : Access L}
    (hi : s i = ⟨[], false, p ++ a :: after⟩) (hj : s j = ⟨[], false, q ++ b :: after'⟩)
    (hfree : ∀ l, Free s l) (hp : (p.map Access.lock).Nodup) (hq : (q.map Access.lock).Nodup)
    (happart : ∀ x ∈ p, ∀ y ∈ q, x.lock ≠ y.lock) :
    ∃ actions t, Machine.run (step fair) s actions = some t ∧ t i = ⟨p.reverse, true, a :: after⟩ ∧
      t j = ⟨q.reverse, true, b :: after'⟩ ∧ ∀ k, k ≠ i → k ≠ j → t k = s k := by
  obtain ⟨first, hfirst⟩ := take_locks fair s i p [] (a :: after) hi hp fun x _ => hfree x.lock
  rw [List.append_nil] at hfirst
  have hfree' : ∀ y ∈ q, Free (Function.update s i ⟨p.reverse, false, a :: after⟩) y.lock := by
    intro y hy k
    by_cases hk : k = i
    · subst hk
      rw [Function.update_self]
      refine ⟨fun x hx => happart x (List.mem_reverse.mp hx) y hy, fun m hreq => ?_⟩
      cases hreq.1
    · rw [Function.update_of_ne hk]
      exact hfree y.lock k
  obtain ⟨second, hsecond⟩ := take_locks fair _ j q [] (b :: after')
    (by rw [Function.update_of_ne hij.symm, hj]) hq hfree'
  rw [List.append_nil] at hsecond
  refine ⟨first ++ (second ++ [.request i, .request j]),
    Function.update (Function.update s i ⟨p.reverse, true, a :: after⟩) j
      ⟨q.reverse, true, b :: after'⟩, ?_, ?_, ?_, ?_⟩
  · rw [Machine.run_append, hfirst, Option.bind_some, Machine.run_append, hsecond, Option.bind_some]
    have hrequest : step fair (Function.update (Function.update s i ⟨p.reverse, false, a :: after⟩) j
        ⟨q.reverse, false, b :: after'⟩) (.request i) =
        some (Function.update (Function.update s i ⟨p.reverse, true, a :: after⟩) j
          ⟨q.reverse, false, b :: after'⟩) := by
      simp [step, Function.update_of_ne hij, Function.update_comm hij]
    rw [Machine.run, hrequest]
    simp [Machine.run, step]
  · rw [Function.update_of_ne hij, Function.update_self]
  · rw [Function.update_self]
  · intro k hki hkj
    rw [Function.update_of_ne hkj, Function.update_of_ne hki]

/-- Two calls with crossed locks deadlock, after all the others have finished. -/
theorem deadlock_of_crossed (fair : Bool) (program : ι → List (Access L))
    (hnodup : ∀ i, ((program i).map Access.lock).Nodup) {i j : ι} (hij : i ≠ j)
    {p q after after' : List (Access L)} {a b : Access L} (hi : program i = p ++ a :: after)
    (hj : program j = q ++ b :: after') (h : Crossed p a q b) : ¬ NoDeadlock fair program := by
  intro hno
  obtain ⟨done, hmem⟩ : ∃ done : List ι, ∀ k, k ∈ done ↔ k ≠ i ∧ k ≠ j :=
    ⟨(Finset.univ.filter fun k => k ≠ i ∧ k ≠ j).toList, fun k => by simp⟩
  obtain ⟨others, hothers⟩ := reachable_afterCalls fair program hnodup done
  have hsi : afterCalls program done i = ⟨[], false, p ++ a :: after⟩ := by
    simp [afterCalls, hmem, hi]
  have hsj : afterCalls program done j = ⟨[], false, q ++ b :: after'⟩ := by
    simp [afterCalls, hmem, hj]
  have hp : (p.map Access.lock).Nodup := by
    have hall := hnodup i
    rw [hi, List.map_append] at hall
    exact hall.of_append_left
  have hq : (q.map Access.lock).Nodup := by
    have hall := hnodup j
    rw [hj, List.map_append] at hall
    exact hall.of_append_left
  obtain ⟨actions, t, hrun, hti, htj, htk⟩ := run_crossed fair (afterCalls program done) hij hsi hsj
    (afterCalls_free program done) hp hq h.apart
  have hdone : ∀ k, k ≠ i → k ≠ j → (t k).Finished := by
    intro k hki hkj
    rw [htk k hki hkj]
    simp [afterCalls, hmem, hki, hkj, Call.Finished]
  obtain ⟨x, hx, hxlock, hxmode⟩ := h.first
  obtain ⟨y, hy, hylock, hymode⟩ := h.second
  have hxi : x ∈ (t i).held := by
    rw [hti]
    exact List.mem_reverse.mpr hx
  have hyj : y ∈ (t j).held := by
    rw [htj]
    exact List.mem_reverse.mpr hy
  refine hno t ⟨others ++ actions, ?_⟩ ⟨⟨i, ?_⟩, ?_⟩
  · rw [Machine.run_append, hothers, Option.bind_some, hrun]
  · intro hfin
    have htodo := hfin.2
    rw [hti] at htodo
    cases htodo
  · intro k hk
    by_cases hki : k = i
    · subst hki
      exact ⟨a, by rw [hti]; exact ⟨rfl, rfl⟩, not_grants_of_held hyj hylock hymode, j, hij.symm, y,
        hyj, hylock⟩
    by_cases hkj : k = j
    · subst hkj
      exact ⟨b, by rw [htj]; exact ⟨rfl, rfl⟩, not_grants_of_held hxi hxlock hxmode, i, hij, x, hxi,
        hxlock⟩
    · exact absurd (hdone k hki hkj) hk

end Step

end Xerv.Lib.RwLocks
