import Mathlib.Data.List.Infix

/-!
# Runs of a partial step function

A machine is a step function that may refuse an action. A run takes a list of actions;
`happens` asks whether some step of it satisfies a predicate on the state before the step
and the action. The rules carry an invariant, and what has happened so far, along a run.
-/

namespace Xerv.Lib.Machine

variable {σ α : Type*} (step : σ → α → Option σ)

def run (s : σ) : List α → Option σ
  | [] => some s
  | a :: as => (step s a).bind fun s' => run s' as

def happens (p : σ → α → Bool) (s : σ) : List α → Bool
  | [] => false
  | a :: as => p s a || (step s a).any fun s' => happens p s' as

variable {step} {s s' : σ}

theorem run_cons {a : α} (h : step s a = some s') (actions : List α) :
    run step s (a :: actions) = run step s' actions := by
  rw [run, h, Option.bind_some]

theorem run_append (before after : List α) :
    run step s (before ++ after) = (run step s before).bind fun s' => run step s' after := by
  induction before generalizing s with
  | nil => rfl
  | cons a before ih =>
    rw [List.cons_append, run, run]
    cases step s a with
    | none => rfl
    | some s₁ => exact ih

theorem run_next {actions before : List α} {a : α} {s₁ : σ} (hrun : run step s actions = some s')
    (hpre : before ++ [a] <+: actions) (hbefore : run step s before = some s₁) :
    ∃ s₂, step s₁ a = some s₂ ∧ run step s (before ++ [a]) = some s₂ := by
  obtain ⟨rest, rfl⟩ := hpre
  rw [List.append_assoc, run_append, hbefore, Option.bind_some] at hrun
  obtain ⟨s₂, hs, -⟩ := Option.bind_eq_some_iff.mp hrun
  refine ⟨s₂, hs, ?_⟩
  rw [run_append, hbefore, Option.bind_some, run, hs]
  rfl

theorem run_prefix {actions before : List α} (hrun : run step s actions = some s') (hpre : before <+: actions) :
    ∃ s₁, run step s before = some s₁ := by
  obtain ⟨rest, rfl⟩ := hpre
  rw [run_append] at hrun
  obtain ⟨s₁, hbefore, -⟩ := Option.bind_eq_some_iff.mp hrun
  exact ⟨s₁, hbefore⟩

theorem happens_cons (p : σ → α → Bool) (a : α) (as : List α) (h : step s a = some s') :
    happens step p s (a :: as) = (p s a || happens step p s' as) := by
  rw [happens, h]
  rfl

theorem happens_prefix (p : σ → α → Bool) {before actions : List α} (hpre : before <+: actions)
    (hnone : happens step p s actions = false) : happens step p s before = false := by
  obtain ⟨rest, rfl⟩ := hpre
  induction before generalizing s with
  | nil => rfl
  | cons a before ih =>
    have hall : happens step p s (a :: (before ++ rest)) = false := hnone
    rw [happens, Bool.or_eq_false_iff] at hall ⊢
    refine ⟨hall.1, ?_⟩
    cases hs : step s a with
    | none => rfl
    | some s₁ =>
      rw [hs] at hall
      exact ih hall.2

theorem not_happens_at (p : σ → α → Bool) (actions before : List α) (a : α) {s₁ : σ}
    (hnone : happens step p s actions = false) (hpre : before ++ [a] <+: actions)
    (hrun : run step s before = some s₁) : p s₁ a = false := by
  induction before generalizing s actions with
  | nil =>
    cases hrun
    obtain ⟨rest, rfl⟩ := hpre
    exact (Bool.or_eq_false_iff.mp hnone).1
  | cons b before ih =>
    obtain ⟨rest, rfl⟩ := hpre
    obtain ⟨s₂, hs₂, hrun₂⟩ := Option.bind_eq_some_iff.mp hrun
    have hnone' : happens step p s (b :: (before ++ [a] ++ rest)) = false := hnone
    rw [happens_cons p b _ hs₂, Bool.or_eq_false_iff] at hnone'
    exact ih _ hnone'.2 (List.prefix_append _ _) hrun₂

/-- Whether a step of kind `p` happens, by the states that the run goes through. -/
theorem not_happens_iff (p : σ → α → Bool) (actions : List α) (hrun : run step s actions = some s') :
    happens step p s actions = false ↔
      ∀ before a s₁, before ++ [a] <+: actions → run step s before = some s₁ → p s₁ a = false := by
  constructor
  · exact fun hnone before a s₁ hpre hbefore => not_happens_at p actions before a hnone hpre hbefore
  · intro hall
    induction actions generalizing s with
    | nil => rfl
    | cons a actions ih =>
      obtain ⟨s₁, hs₁, hrest⟩ := Option.bind_eq_some_iff.mp hrun
      rw [happens_cons p a actions hs₁, Bool.or_eq_false_iff]
      refine ⟨hall [] a s (by simp) rfl, ih hrest fun before b s₂ hpre hbefore => ?_⟩
      refine hall (a :: before) b s₂ (List.cons_prefix_cons.mpr ⟨rfl, hpre⟩) ?_
      rw [run, hs₁]
      exact hbefore

theorem happens_split (p : σ → α → Bool) (actions : List α) (h : happens step p s actions = true)
    (hrun : run step s actions = some s') : ∃ before a after s₁ s₂, actions = before ++ a :: after ∧
      step s₁ a = some s₂ ∧ p s₁ a = true := by
  induction actions generalizing s with
  | nil => cases h
  | cons a actions ih =>
    obtain ⟨s₁, hs₁, hrest⟩ := Option.bind_eq_some_iff.mp hrun
    rw [happens_cons p a actions hs₁] at h
    rcases Bool.or_eq_true_iff.mp h with hp | hlater
    · exact ⟨[], a, actions, s, s₁, rfl, hs₁, hp⟩
    · obtain ⟨before, b, after, s₂, s₃, hsplit, hstep, hp⟩ := ih hlater hrest
      exact ⟨a :: before, b, after, s₂, s₃, by rw [hsplit]; rfl, hstep, hp⟩

theorem happens_never (actions : List α) : happens step (fun _ _ => false) s actions = false := by
  induction actions generalizing s with
  | nil => rfl
  | cons a actions ih =>
    rw [happens, Bool.false_or]
    cases step s a with
    | none => rfl
    | some s₁ => exact ih

/-- An invariant that knows the actions so far, along a run without a step of kind `p`. -/
theorem run_history (p : σ → α → Bool) (inv : List α → σ → Prop)
    (hstep : ∀ past s a s', p s a = false → inv past s → step s a = some s' → inv (past ++ [a]) s')
    (actions past : List α) (hnone : happens step p s actions = false) (hs : inv past s)
    (hrun : run step s actions = some s') : inv (past ++ actions) s' := by
  induction actions generalizing s past with
  | nil =>
    cases hrun
    rw [List.append_nil]
    exact hs
  | cons a actions ih =>
    obtain ⟨s₁, hs₁, hrest⟩ := Option.bind_eq_some_iff.mp hrun
    rw [happens_cons p a actions hs₁, Bool.or_eq_false_iff] at hnone
    have hnext := ih (past ++ [a]) hnone.2 (hstep past s a s₁ hnone.1 hs hs₁) hrest
    rwa [List.append_assoc, List.singleton_append] at hnext

theorem run_flags (p q : σ → α → Bool) (inv : Bool → Bool → σ → Prop)
    (hstep : ∀ b c s a s', inv b c s → step s a = some s' → inv (b || p s a) (c || q s a) s')
    (actions : List α) (b c : Bool) (hs : inv b c s) (hrun : run step s actions = some s') :
    inv (b || happens step p s actions) (c || happens step q s actions) s' := by
  induction actions generalizing s b c with
  | nil =>
    cases hrun
    simpa [happens] using hs
  | cons a actions ih =>
    obtain ⟨s₁, hs₁, hrest⟩ := Option.bind_eq_some_iff.mp hrun
    rw [happens_cons p a actions hs₁, happens_cons q a actions hs₁, ← Bool.or_assoc, ← Bool.or_assoc]
    exact ih _ _ (hstep b c s a s₁ hs hs₁) hrest

theorem run_guarded (p : σ → α → Prop) (inv : σ → Prop)
    (hstep : ∀ s a s', p s a → inv s → step s a = some s' → inv s') (actions : List α) (hs : inv s)
    (hrun : run step s actions = some s')
    (hall : ∀ before a s₁, before ++ [a] <+: actions → run step s before = some s₁ → p s₁ a) : inv s' := by
  induction actions generalizing s with
  | nil =>
    cases hrun
    exact hs
  | cons a actions ih =>
    obtain ⟨s₁, hs₁, hrest⟩ := Option.bind_eq_some_iff.mp hrun
    refine ih (hstep s a s₁ (hall [] a s (by simp) rfl) hs hs₁) hrest fun before b s₂ hpre hbefore => ?_
    refine hall (a :: before) b s₂ (List.cons_prefix_cons.mpr ⟨rfl, hpre⟩) ?_
    rw [run, hs₁]
    exact hbefore

theorem run_invariant (inv : σ → Prop) (hstep : ∀ s a s', inv s → step s a = some s' → inv s')
    (actions : List α) (hs : inv s) (hrun : run step s actions = some s') : inv s' :=
  run_flags (fun _ _ => false) (fun _ _ => false) (fun _ _ => inv) (fun _ _ => hstep) actions false
    false hs hrun

theorem run_total (inv : σ → Prop) (actions : List α)
    (hstep : ∀ s, inv s → ∀ a ∈ actions, ∃ s', step s a = some s' ∧ inv s') (hs : inv s) :
    ∃ s', run step s actions = some s' ∧ inv s' := by
  induction actions generalizing s with
  | nil => exact ⟨s, rfl, hs⟩
  | cons a actions ih =>
    obtain ⟨s₁, hs₁, hinv₁⟩ := hstep s hs a List.mem_cons_self
    obtain ⟨s₂, hs₂, hinv₂⟩ :=
      ih (fun s hs b hb => hstep s hs b (List.mem_cons_of_mem _ hb)) hinv₁
    refine ⟨s₂, ?_, hinv₂⟩
    rw [run, hs₁]
    exact hs₂

/-- Where exactly the steps of kind `p` are impossible, the runs that reach their end are those that meet none. -/
theorem run_total_iff (p : σ → α → Bool) (inv : σ → Prop)
    (hkeep : ∀ s a s', inv s → step s a = some s' → inv s')
    (hpossible : ∀ s a, inv s → ((∃ s', step s a = some s') ↔ p s a = false)) (actions : List α) (hs : inv s) :
    (∃ s', run step s actions = some s') ↔
      ∀ before a s₁, before ++ [a] <+: actions → run step s before = some s₁ → p s₁ a = false := by
  constructor
  · rintro ⟨s', hrun⟩ before a s₁ hpre hbefore
    obtain ⟨s₂, hs₂, -⟩ := run_next hrun hpre hbefore
    exact (hpossible s₁ a (run_invariant inv hkeep before hs hbefore)).mp ⟨s₂, hs₂⟩
  · intro hnone
    induction actions generalizing s with
    | nil => exact ⟨s, rfl⟩
    | cons a actions ih =>
      obtain ⟨s₁, hs₁⟩ := (hpossible s a hs).mpr (hnone [] a s (by simp) rfl)
      have hrun₁ (before : List α) : run step s (a :: before) = run step s₁ before := by
        rw [run, hs₁]
        rfl
      rw [hrun₁]
      refine ih (hkeep s a s₁ hs hs₁) fun before b s₂ hpre hbefore => ?_
      exact hnone (a :: before) b s₂ (List.cons_prefix_cons.mpr ⟨rfl, hpre⟩) ((hrun₁ before).trans hbefore)

/-- Along a run that keeps `inv`, a property that exactly the steps of kind `p` break holds in every
state reached if and only if no step of that kind happens. -/
theorem throughout_iff (p : σ → α → Bool) (inv good : σ → Prop)
    (hinv : ∀ s a s', inv s → step s a = some s' → inv s')
    (hkeep : ∀ s a s', inv s → good s → step s a = some s' → (good s' ↔ p s a = false))
    (actions : List α) (hs : inv s) (hgood : good s) (hrun : run step s actions = some s') :
    (∀ before s₁, before <+: actions → run step s before = some s₁ → good s₁) ↔
      happens step p s actions = false := by
  induction actions generalizing s with
  | nil =>
    constructor
    · exact fun _ => rfl
    · intro _ before s₁ hbefore hrun₁
      rw [List.prefix_nil.mp hbefore] at hrun₁
      cases hrun₁
      exact hgood
  | cons a actions ih =>
    obtain ⟨s₁, hs₁, hrest⟩ := Option.bind_eq_some_iff.mp hrun
    have hinv₁ := hinv s a s₁ hs hs₁
    have hrun₁ (before : List α) : run step s (a :: before) = run step s₁ before := by
      rw [run, hs₁]
      rfl
    rw [happens_cons p a actions hs₁, Bool.or_eq_false_iff]
    constructor
    · intro hall
      have hgood₁ : good s₁ := hall [a] s₁ (by simp) (hrun₁ [])
      refine ⟨(hkeep s a s₁ hs hgood hs₁).mp hgood₁, (ih hinv₁ hgood₁ hrest).mp ?_⟩
      intro before s₂ hbefore hrun₂
      exact hall (a :: before) s₂ (List.cons_prefix_cons.mpr ⟨rfl, hbefore⟩)
        ((hrun₁ before).trans hrun₂)
    · intro hnone before s₂ hbefore hrun₂
      have hgood₁ := (hkeep s a s₁ hs hgood hs₁).mpr hnone.1
      cases before with
      | nil =>
        cases hrun₂
        exact hgood
      | cons b before =>
        obtain ⟨rfl, htail⟩ := List.cons_prefix_cons.mp hbefore
        rw [hrun₁] at hrun₂
        exact (ih hinv₁ hgood₁ hrest).mpr hnone.2 before s₂ htail hrun₂

/-! ### Total step functions -/

section Total
variable (next : σ → α → σ)

theorem foldl_concat (s : σ) (before : List α) (a : α) :
    (before ++ [a]).foldl next s = next (before.foldl next s) a := by
  rw [List.foldl_append, List.foldl_cons, List.foldl_nil]

theorem foldl_throughout (p : σ → α → Prop) (good : σ → Prop)
    (hkeep : ∀ s a, good s → (good (next s a) ↔ p s a)) (actions : List α) (hgood : good s) :
    (∀ before, before <+: actions → good (before.foldl next s)) ↔
      ∀ before a, before ++ [a] <+: actions → p (before.foldl next s) a := by
  constructor
  · intro hall before a hpre
    have hbefore := hall before ((List.prefix_append before [a]).trans hpre)
    have hafter := hall (before ++ [a]) hpre
    rw [foldl_concat] at hafter
    exact (hkeep _ a hbefore).mp hafter
  · intro hnone before
    induction before using List.reverseRecOn with
    | nil => exact fun _ => hgood
    | append_singleton before a ih =>
      intro hpre
      have hbefore := ih ((List.prefix_append before [a]).trans hpre)
      rw [foldl_concat]
      exact (hkeep _ a hbefore).mpr (hnone before a hpre)

theorem foldl_throughout_iff (p : σ → α → Bool) (good : σ → Prop)
    (hkeep : ∀ s a, good s → (good (next s a) ↔ p s a = false)) (actions : List α) (hgood : good s) :
    (∀ before, before <+: actions → good (before.foldl next s)) ↔
      ∀ before a, before ++ [a] <+: actions → p (before.foldl next s) a = false :=
  foldl_throughout next (fun s a => p s a = false) good hkeep actions hgood

/-- A property of states and one of steps, under an invariant that only the steps of kind `p` break, and with
it one of the two. -/
theorem foldl_guarded_steps_iff (p : σ → α → Bool) (inv good : σ → Prop) (sound : σ → α → Prop)
    (hgood : ∀ s, inv s → good s)
    (hkeep : ∀ s a, inv s → p s a = false → inv (next s a) ∧ sound s a)
    (hbreak : ∀ s a, inv s → p s a = true → ¬ (good (next s a) ∧ sound s a)) (actions : List α)
    (hs : inv s) :
    ((∀ before, before <+: actions → good (before.foldl next s)) ∧
        ∀ before a, before ++ [a] <+: actions → sound (before.foldl next s) a) ↔
      ∀ before a, before ++ [a] <+: actions → p (before.foldl next s) a = false := by
  have hinv (hnone : ∀ before a, before ++ [a] <+: actions → inv (before.foldl next s) →
      p (before.foldl next s) a = false) (before : List α) (hpre : before <+: actions) :
      inv (before.foldl next s) := by
    induction before using List.reverseRecOn with
    | nil => exact hs
    | append_singleton before a ih =>
      have hbefore := ih ((List.prefix_append before [a]).trans hpre)
      rw [foldl_concat]
      exact (hkeep _ a hbefore (hnone before a hpre hbefore)).1
  constructor
  · rintro ⟨hall, hsound⟩
    have hnone : ∀ before a, before ++ [a] <+: actions → inv (before.foldl next s) →
        p (before.foldl next s) a = false := by
      intro before a hpre hbefore
      have hafter := hall (before ++ [a]) hpre
      rw [foldl_concat] at hafter
      rw [Bool.eq_false_iff]
      exact fun hp => hbreak _ a hbefore hp ⟨hafter, hsound before a hpre⟩
    exact fun before a hpre =>
      hnone before a hpre (hinv hnone before ((List.prefix_append before [a]).trans hpre))
  · intro hnone
    have hall := hinv fun before a hpre _ => hnone before a hpre
    refine ⟨fun before hpre => hgood _ (hall before hpre), fun before a hpre => ?_⟩
    exact (hkeep _ a (hall before ((List.prefix_append before [a]).trans hpre)) (hnone before a hpre)).2

theorem foldl_guarded_iff (p : σ → α → Bool) (inv good : σ → Prop) (hgood : ∀ s, inv s → good s)
    (hkeep : ∀ s a, inv s → p s a = false → inv (next s a))
    (hbreak : ∀ s a, inv s → p s a = true → ¬ good (next s a)) (actions : List α) (hs : inv s) :
    (∀ before, before <+: actions → good (before.foldl next s)) ↔
      ∀ before a, before ++ [a] <+: actions → p (before.foldl next s) a = false := by
  rw [← foldl_guarded_steps_iff next p inv good (fun _ _ => True) hgood
    (fun s a hinv hp => ⟨hkeep s a hinv hp, trivial⟩)
    (fun s a hinv hp hboth => hbreak s a hinv hp hboth.1) actions hs]
  exact ⟨fun hall => ⟨hall, fun _ _ _ => trivial⟩, fun hboth => hboth.1⟩

/-- A property that, once a step of kind `p` has broken it, stays broken. -/
theorem foldl_lasting_iff (p : σ → α → Bool) (inv good : σ → Prop) (hinv : ∀ s a, inv s → inv (next s a))
    (hkeep : ∀ s a, inv s → (good (next s a) ↔ good s ∧ p s a = false)) (actions : List α) (hs : inv s)
    (hgood : good s) :
    good (actions.foldl next s) ↔
      ∀ before a, before ++ [a] <+: actions → p (before.foldl next s) a = false := by
  suffices h : inv (actions.foldl next s) ∧ (good (actions.foldl next s) ↔
      ∀ before a, before ++ [a] <+: actions → p (before.foldl next s) a = false) from h.2
  induction actions using List.reverseRecOn with
  | nil =>
    refine ⟨hs, iff_of_true hgood fun before a hpre => ?_⟩
    have hlen := hpre.length_le
    simp at hlen
  | append_singleton actions b ih =>
    obtain ⟨hbefore, hiff⟩ := ih
    rw [foldl_concat]
    refine ⟨hinv _ b hbefore, ?_⟩
    rw [hkeep _ b hbefore, hiff]
    constructor
    · rintro ⟨hall, hlast⟩ before a hpre
      rcases List.prefix_concat_iff.mp hpre with heq | hshort
      · obtain ⟨rfl, hab⟩ := List.append_inj' heq rfl
        cases hab
        exact hlast
      · exact hall before a hshort
    · intro hall
      refine ⟨fun before a hpre => hall before a (hpre.trans (List.prefix_append _ _)), ?_⟩
      exact hall actions b List.prefix_rfl

/-- A relation between a state and every later one that exactly the steps of kind `p` break. -/
theorem foldl_between_iff (p : σ → α → Bool) (R : σ → σ → Prop) (hrefl : ∀ s, R s s)
    (htrans : ∀ s₁ s₂ s₃, R s₁ s₂ → R s₂ s₃ → R s₁ s₃)
    (hkeep : ∀ s a, R s (next s a) ↔ p s a = false) (actions : List α) (s : σ) :
    (∀ before later, before ++ later <+: actions →
        R (before.foldl next s) ((before ++ later).foldl next s)) ↔
      ∀ before a, before ++ [a] <+: actions → p (before.foldl next s) a = false := by
  constructor
  · intro hall before a hpre
    have hstep := hall before [a] hpre
    rw [foldl_concat] at hstep
    exact (hkeep _ a).mp hstep
  · intro hnone before later
    induction later using List.reverseRecOn with
    | nil =>
      intro _
      rw [List.append_nil]
      exact hrefl _
    | append_singleton later a ih =>
      intro hpre
      rw [← List.append_assoc] at hpre ⊢
      have hlater := ih ((List.prefix_append _ [a]).trans hpre)
      rw [foldl_concat]
      exact htrans _ _ _ hlater ((hkeep _ a).mpr (hnone _ a hpre))

end Total

end Xerv.Lib.Machine
