import Mathlib.Data.List.Basic

/-!
# Calls that can fail at a step

A call runs in `EStateM`: when it stops at an error the state keeps what was
done before. Each step of the call that can fail is named; a fault picks the step
at which the call fails and how much of the step's work was done by then.

`Meets` is the pair of postconditions of a call, for its return and for its
failure. `Keeps` is the case of a call that leaves a part of the state alone
either way.
-/

namespace Xerv.Lib

/-- How a call stops early: it returns the error of a failing step, or it panics. -/
inductive Stop (κ : Type) where
  | failed (step : κ)
  | panic
  deriving DecidableEq

structure Fault (κ : Type) where
  step : κ
  written : ℕ

section Calls
variable {ε σ α β κ V : Type}

/-- How much of `step` is done before it fails, if it does. -/
def hits [DecidableEq κ] (fault : Option (Fault κ)) (step : κ) : Option ℕ :=
  fault.bind fun f => if f.step = step then some f.written else none

/-- A step with an effect, and what it leaves when it fails. -/
def attempt [DecidableEq κ] (fault : Option (Fault κ)) (step : κ) (spoil : ℕ → σ → σ) (effect : σ → σ) :
    EStateM (Stop κ) σ Unit := fun s =>
  match hits fault step with
  | some n => .error (.failed step) (spoil n s)
  | none => .ok () (effect s)

/-- A loop over a list that numbers its rounds and stops at the first failing one. -/
def rounds (body : ℕ → α → EStateM ε σ Unit) : ℕ → List α → EStateM ε σ Unit
  | _, [] => pure ()
  | n, x :: xs => body n x >>= fun _ => rounds body (n + 1) xs

/-- What holds after a call from `s`: `done` if it returns, `stopped` if it stops early. -/
def Meets (x : EStateM ε σ α) (s : σ) (done : α → σ → Prop) (stopped : ε → σ → Prop) : Prop :=
  match x s with
  | .ok a s' => done a s'
  | .error e s' => stopped e s'

theorem meets_get_bind (f : σ → EStateM ε σ α) (s : σ) (done : α → σ → Prop) (stopped : ε → σ → Prop) :
    Meets (get >>= f) s done stopped ↔ Meets (f s) s done stopped := Iff.rfl

theorem bind_run (x : EStateM ε σ α) (f : α → EStateM ε σ β) (s : σ) : (x >>= f) s =
    match x s with
    | .ok a s' => f a s'
    | .error e s' => .error e s' := rfl

theorem bind_ok {x : EStateM ε σ α} {f : α → EStateM ε σ β} {s s' : σ} {a : α} (h : x s = .ok a s') :
    (x >>= f) s = f a s' := by
  rw [bind_run, h]

theorem bind_error {x : EStateM ε σ α} {f : α → EStateM ε σ β} {s s' : σ} {e : ε} (h : x s = .error e s') :
    (x >>= f) s = .error e s' := by
  rw [bind_run, h]

theorem bind_eq_ok {x : EStateM ε σ α} {f : α → EStateM ε σ β} {s s'' : σ} {b : β} :
    (x >>= f) s = .ok b s'' ↔ ∃ a s', x s = .ok a s' ∧ f a s' = .ok b s'' := by
  rw [bind_run]
  cases x s with
  | ok a s' =>
    refine ⟨fun h => ⟨a, s', rfl, h⟩, ?_⟩
    rintro ⟨a', t, h, hf⟩
    cases h
    exact hf
  | error e s' =>
    refine ⟨fun h => (by cases h), ?_⟩
    rintro ⟨a', t, h, -⟩
    cases h

theorem meets_bind_ok {x : EStateM ε σ α} {f : α → EStateM ε σ β} {s s' : σ} {a : α} {done : β → σ → Prop}
    {stopped : ε → σ → Prop} (h : x s = .ok a s') : Meets (x >>= f) s done stopped ↔ Meets (f a) s' done stopped := by
  unfold Meets
  rw [bind_ok h]

theorem meets_bind_error {x : EStateM ε σ α} {f : α → EStateM ε σ β} {s s' : σ} {e : ε} {done : β → σ → Prop}
    {stopped : ε → σ → Prop} (h : x s = .error e s') : Meets (x >>= f) s done stopped ↔ stopped e s' := by
  unfold Meets
  rw [bind_error h]

theorem Meets.bind {x : EStateM ε σ α} {f : α → EStateM ε σ β} {s : σ} {mid : α → σ → Prop}
    {done : β → σ → Prop} {stopped : ε → σ → Prop} (h : Meets x s mid stopped)
    (hf : ∀ a s', mid a s' → Meets (f a) s' done stopped) : Meets (x >>= f) s done stopped := by
  unfold Meets at h ⊢
  rw [bind_run]
  cases hs : x s with
  | ok a s' =>
    rw [hs] at h
    exact hf a s' h
  | error e s' =>
    rw [hs] at h
    exact h

theorem Meets.imp {x : EStateM ε σ α} {s : σ} {done done' : α → σ → Prop} {stopped stopped' : ε → σ → Prop}
    (h : Meets x s done stopped) (hd : ∀ a s', done a s' → done' a s')
    (hs : ∀ e s', stopped e s' → stopped' e s') : Meets x s done' stopped' := by
  unfold Meets at h ⊢
  cases hx : x s with
  | ok a s' =>
    rw [hx] at h
    exact hd a s' h
  | error e s' =>
    rw [hx] at h
    exact hs e s' h

theorem meets_attempt [DecidableEq κ] (fault : Option (Fault κ)) (step : κ) (spoil : ℕ → σ → σ)
    (effect : σ → σ) (s : σ) (done : Unit → σ → Prop) (stopped : Stop κ → σ → Prop)
    (hd : done () (effect s)) (hs : ∀ n, stopped (.failed step) (spoil n s)) :
    Meets (attempt fault step spoil effect) s done stopped := by
  unfold Meets attempt
  cases hits fault step with
  | none => exact hd
  | some n => exact hs n

/-- The loop rule: an invariant indexed by the number of rounds done. -/
theorem meets_rounds (body : ℕ → α → EStateM ε σ Unit) (inv : ℕ → σ → Prop) (stopped : ε → σ → Prop)
    (xs : List α) (n : ℕ) (s : σ)
    (hbody : ∀ i x, xs[i]? = some x → ∀ s, inv (n + i) s →
      Meets (body (n + i) x) s (fun _ => inv (n + i + 1)) stopped)
    (h : inv n s) : Meets (rounds body n xs) s (fun _ => inv (n + xs.length)) stopped := by
  induction xs generalizing n s with
  | nil => exact h
  | cons x xs ih =>
    refine (hbody 0 x rfl s h).bind fun _ s' hs' => ?_
    have hlen : n + (x :: xs).length = n + 1 + xs.length := by
      rw [List.length_cons]
      omega
    rw [hlen]
    refine ih (n + 1) s' (fun i y hy t ht => ?_) hs'
    have hshift : n + (i + 1) = n + 1 + i := by omega
    have hround := hbody (i + 1) y (by simpa using hy) t
    rw [hshift] at hround
    exact hround ht

theorem rounds_eq_foldl (body : ℕ → α → EStateM ε σ Unit) (f : σ → α → σ)
    (h : ∀ n x s, body n x s = .ok () (f s x)) (xs : List α) (n : ℕ) (s : σ) :
    rounds body n xs s = .ok () (xs.foldl f s) := by
  induction xs generalizing n s with
  | nil => rfl
  | cons x xs ih =>
    rw [rounds, bind_run, h, List.foldl_cons]
    exact ih (n + 1) (f s x)

/-- From a state with the invariant the call ends in one, with a result as `post` says or an error of `errors`. -/
def Preserves (inv : σ → Prop) (errors : ε → Prop) (x : EStateM ε σ α) (post : α → Prop) : Prop :=
  ∀ s, inv s → Meets x s (fun a s' => inv s' ∧ post a) fun e s' => inv s' ∧ errors e

theorem Preserves.pure {inv : σ → Prop} {errors : ε → Prop} {post : α → Prop} {a : α} (h : post a) :
    Preserves inv errors (pure a : EStateM ε σ α) post := fun _ hs => ⟨hs, h⟩

theorem Preserves.bind {inv : σ → Prop} {errors : ε → Prop} {x : EStateM ε σ α} {f : α → EStateM ε σ β}
    {mid : α → Prop} {post : β → Prop} (h : Preserves inv errors x mid)
    (hf : ∀ a, mid a → Preserves inv errors (f a) post) : Preserves inv errors (x >>= f) post :=
  fun s hs => (h s hs).bind fun a s' hmid => hf a hmid.2 s' hmid.1

/-- The call leaves `view` alone and stops early only with the errors of `errors`. -/
def Keeps (view : σ → V) (errors : ε → Prop) (x : EStateM ε σ α) : Prop :=
  ∀ s, Meets x s (fun _ s' => view s' = view s) fun e s' => view s' = view s ∧ errors e

section Views
variable {view : σ → V} {errors : ε → Prop}

theorem Keeps.pure (a : α) : Keeps view errors (pure a : EStateM ε σ α) := fun _ => rfl

theorem Keeps.throw (e : ε) (h : errors e) : Keeps view errors (throw e : EStateM ε σ α) :=
  fun _ => ⟨rfl, h⟩

theorem Keeps.modify (f : σ → σ) (h : ∀ s, view (f s) = view s) :
    Keeps view errors (modify f : EStateM ε σ Unit) := h

theorem Keeps.get_bind {f : σ → EStateM ε σ α} (h : ∀ s, Keeps view errors (f s)) :
    Keeps view errors (get >>= f) := fun s => h s s

theorem Keeps.bind {x : EStateM ε σ α} {f : α → EStateM ε σ β} (h : Keeps view errors x)
    (hf : ∀ a, Keeps view errors (f a)) : Keeps view errors (x >>= f) := by
  intro s
  refine (h s).bind fun a s' hs' => ?_
  have hnext := hf a s'
  rw [hs'] at hnext
  exact hnext

theorem Keeps.bind_meets {x : EStateM ε σ α} {f : α → EStateM ε σ β} {v : V} {done : β → σ → Prop}
    (h : Keeps view errors x) (s : σ) (hs : view s = v)
    (hf : ∀ a s', view s' = v → Meets (f a) s' done fun e t => view t = v ∧ errors e) :
    Meets (x >>= f) s done fun e t => view t = v ∧ errors e := by
  subst hs
  exact (h s).bind hf

theorem Keeps.attempt [DecidableEq κ] {errors : Stop κ → Prop} (fault : Option (Fault κ)) (step : κ)
    (spoil : ℕ → σ → σ) (effect : σ → σ) (he : errors (.failed step))
    (hs : ∀ n s, view (spoil n s) = view s) (hd : ∀ s, view (effect s) = view s) :
    Keeps view errors (attempt fault step spoil effect) :=
  fun s => meets_attempt fault step spoil effect s _ _ (hd s) fun n => ⟨hs n s, he⟩

theorem Keeps.rounds {body : ℕ → α → EStateM ε σ Unit} (h : ∀ n x, Keeps view errors (body n x))
    (n : ℕ) (xs : List α) : Keeps view errors (rounds body n xs) := by
  induction xs generalizing n with
  | nil => exact Keeps.pure ()
  | cons x xs ih => exact (h n x).bind fun _ => ih (n + 1)

end Views

end Calls

end Xerv.Lib
