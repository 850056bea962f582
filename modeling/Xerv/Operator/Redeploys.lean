import Xerv.Operator.Pipeline

/-!
# How often an active pipeline is deployed again

`handle_active` writes the generation it has deployed, and then, where the metrics can be fetched,
the status it has read at its start once more: an old observed generation comes back, and the
next reconcile deploys again.
-/

namespace Xerv.Operator

/-- Every call but the fetch of the metrics succeeds. -/
structure PipelineEnv.Succeeds (env : PipelineEnv) : Prop where
  clusterReady : env.clusterReady = true
  load : env.load = true
  endpoint : env.endpoint = true
  deploy : env.deploy = .done
  triggers : env.triggers = true
  pause : env.pause = .done
  resume : env.resume = .done
  remove : env.remove = .done
  write : env.write = .done
  metricsEndpoint : env.metricsEndpoint = true
  metricsWrite : env.metricsWrite = .done

section Redeploys
variable (stored : PipelineSource → String) (validYaml : String → Bool)

theorem loadDefinition_eq {env : PipelineEnv} (h : env.load = true) (source : PipelineSource) :
    loadDefinition stored env source = some (definitionOf stored source) := by
  cases source with
  | configMap name key => exact if_pos h
  | git repo refName path => exact if_pos h
  | inline content => rfl

/-- The next reconcile deploys. -/
def PipelineWorld.Redeploys (w : PipelineWorld) : Prop :=
  w.observedGeneration ≠ some w.generation ∧ validYaml (definitionOf stored w.spec.source) = true

instance (w : PipelineWorld) : Decidable (w.Redeploys stored validYaml) :=
  inferInstanceAs (Decidable (_ ∧ _))

/-- An active pipeline with the same specs. -/
structure PipelineWorld.Steady (w w' : PipelineWorld) : Prop where
  older : w'.older = w.older
  spec : w'.spec = w.spec
  phase : w'.phase = .active

theorem PipelineWorld.Steady.unpaused {w w' : PipelineWorld} (h : w.Steady w')
    (hpaused : w.spec.paused = false) : w'.spec.paused = false := by
  rw [h.spec]
  exact hpaused

/-- The status that the metrics leave: its observed generation is the one read at the start, or
what is there if there was none. -/
theorem updateMetrics_some (w : PipelineWorld) (read : XervPipelineStatus) (env : PipelineEnv)
    (henv : env.Succeeds) (metrics : ℤ × ℤ) (hmetrics : env.metrics = some metrics) :
    updateMetrics w read env = { w with status := some (.merge w.status
      { read with tracesCompleted := metrics.1, tracesFailed := metrics.2 }) } := by
  unfold updateMetrics
  rw [if_pos henv.metricsEndpoint, hmetrics]
  simp [PipelineWorld.updateStatus, henv.metricsWrite, CallOutcome.applied]

theorem updateMetrics_none (w : PipelineWorld) (read : XervPipelineStatus) (env : PipelineEnv)
    (hmetrics : env.metrics = none) : updateMetrics w read env = w := by
  unfold updateMetrics
  rw [hmetrics]
  exact ite_self w

theorem steady_metrics (w : PipelineWorld) (env : PipelineEnv) (status : XervPipelineStatus)
    (hstatus : w.status = some status) (hphase : status.phase = .active) (henv : env.Succeeds) :
    w.Steady (updateMetrics w status env) ∧ (updateMetrics w status env).deployCalls = w.deployCalls ∧
      (updateMetrics w status env).observedGeneration = w.observedGeneration := by
  cases hmetrics : env.metrics with
  | none =>
    rw [updateMetrics_none w status env hmetrics]
    exact ⟨⟨rfl, rfl, by rw [PipelineWorld.phase, hstatus]; exact hphase⟩, rfl, rfl⟩
  | some metrics =>
    rw [updateMetrics_some w status env henv metrics hmetrics]
    refine ⟨⟨rfl, rfl, hphase⟩, rfl, ?_⟩
    rw [PipelineWorld.observedGeneration, PipelineWorld.observedGeneration, hstatus]
    exact Option.or_self

theorem redeployed_metrics (w : PipelineWorld) (env : PipelineEnv) (status : XervPipelineStatus)
    (hstatus : w.status = some status) (hphase : status.phase = .active) (henv : env.Succeeds)
    (yaml : String) :
    let w' := updateMetrics ((w.deployToCluster .done yaml).updateStatus .done
      { status with phase := .active, observedGeneration := some w.generation }) status env
    w.Steady w' ∧ w'.deployCalls = w.deployCalls + 1 ∧
      w'.observedGeneration = if env.metrics = none then some w.generation
        else w.observedGeneration.or (some w.generation) := by
  have hobserved : w.observedGeneration = status.observedGeneration := by
    rw [PipelineWorld.observedGeneration, hstatus]
    rfl
  cases hmetrics : env.metrics with
  | none =>
    rw [updateMetrics_none _ status env hmetrics]
    exact ⟨⟨rfl, rfl, rfl⟩, rfl, rfl⟩
  | some metrics =>
    rw [updateMetrics_some _ status env henv metrics hmetrics]
    refine ⟨⟨rfl, rfl, hphase⟩, rfl, ?_⟩
    rw [hobserved]
    rfl

theorem steady_step (w : PipelineWorld) (env : PipelineEnv) (hphase : w.phase = .active)
    (hpaused : w.spec.paused = false) (henv : env.Succeeds) :
    w.Steady (reconcilePipeline stored validYaml w env) ∧
      (reconcilePipeline stored validYaml w env).deployCalls =
        w.deployCalls + (if w.Redeploys stored validYaml then 1 else 0) ∧
      (reconcilePipeline stored validYaml w env).observedGeneration =
        (if w.Redeploys stored validYaml then
          (if env.metrics = none then some w.generation
            else w.observedGeneration.or (some w.generation))
        else w.observedGeneration) := by
  have hactive : reconcilePipeline stored validYaml w env = handleActive stored validYaml w env := by
    unfold reconcilePipeline
    rw [hphase]
  rw [hactive]
  obtain ⟨status, hstatus, hread, hsphase⟩ := PipelineWorld.exists_status hphase (by decide)
  unfold handleActive
  rw [hread, hpaused, loadDefinition_eq stored henv.load]
  by_cases hgen : w.observedGeneration = some w.generation
  · have hno : ¬ w.Redeploys stored validYaml := fun h => h.1 hgen
    simp only [hgen, hno, if_false, ne_eq, not_true_eq_false]
    have hmetrics := steady_metrics w env status hstatus hsphase henv
    rw [hgen] at hmetrics
    exact hmetrics
  by_cases hvalid : validYaml (definitionOf stored w.spec.source) = true
  · have hyes : w.Redeploys stored validYaml := ⟨hgen, hvalid⟩
    simp only [hvalid, hyes, if_true, henv.endpoint, henv.deploy, henv.write,
      CallOutcome.returned, Bool.and_self, Bool.false_eq_true, if_false, ne_eq, hgen, not_false_eq_true]
    exact redeployed_metrics w env status hstatus hsphase henv _
  · have hno : ¬ w.Redeploys stored validYaml := fun h => hvalid h.2
    simp only [hvalid, hno, if_false, ne_eq, hgen, not_false_eq_true, if_true, Bool.false_and,
      Bool.false_eq_true]
    exact ⟨⟨rfl, rfl, hphase⟩, rfl, trivial⟩

theorem redeploys_congr {w w' : PipelineWorld} (h : w.Steady w') :
    w'.Redeploys stored validYaml ↔
      w'.observedGeneration ≠ some w.generation ∧
        validYaml (definitionOf stored w.spec.source) = true := by
  unfold PipelineWorld.Redeploys PipelineWorld.generation
  rw [h.older, h.spec]

theorem settled_run (w : PipelineWorld) (envs : List PipelineEnv) (hphase : w.phase = .active)
    (hpaused : w.spec.paused = false) (henvs : ∀ env ∈ envs, env.Succeeds)
    (hno : ¬ w.Redeploys stored validYaml) :
    (envs.foldl (reconcilePipeline stored validYaml) w).deployCalls = w.deployCalls := by
  induction envs generalizing w with
  | nil => rfl
  | cons env envs ih =>
    obtain ⟨hsteady, hcalls, hobserved⟩ := steady_step stored validYaml w env hphase hpaused
      (henvs env List.mem_cons_self)
    rw [if_neg hno] at hcalls hobserved
    have hno' : ¬ (reconcilePipeline stored validYaml w env).Redeploys stored validYaml := by
      rw [redeploys_congr stored validYaml hsteady, hobserved]
      exact hno
    rw [List.foldl_cons, ih _ hsteady.phase (hsteady.unpaused hpaused)
      (fun e he => henvs e (List.mem_cons_of_mem env he)) hno']
    exact hcalls

theorem deployCalls_mono (w : PipelineWorld) (envs : List PipelineEnv) (hphase : w.phase = .active)
    (hpaused : w.spec.paused = false) (henvs : ∀ env ∈ envs, env.Succeeds) :
    w.deployCalls ≤ (envs.foldl (reconcilePipeline stored validYaml) w).deployCalls := by
  induction envs generalizing w with
  | nil => exact le_refl _
  | cons env envs ih =>
    obtain ⟨hsteady, hcalls, -⟩ := steady_step stored validYaml w env hphase hpaused
      (henvs env List.mem_cons_self)
    rw [List.foldl_cons]
    refine le_trans ?_ (ih _ hsteady.phase (hsteady.unpaused hpaused)
      fun e he => henvs e (List.mem_cons_of_mem env he))
    rw [hcalls]
    exact Nat.le_add_right _ _

theorem redeployed_once (w : PipelineWorld) (env : PipelineEnv) (envs : List PipelineEnv)
    (hphase : w.phase = .active) (hpaused : w.spec.paused = false) (henv : env.Succeeds)
    (henvs : ∀ e ∈ envs, e.Succeeds) (hyes : w.Redeploys stored validYaml)
    (hsticks : w.observedGeneration = none ∨ env.metrics = none) :
    ((env :: envs).foldl (reconcilePipeline stored validYaml) w).deployCalls = w.deployCalls + 1 := by
  obtain ⟨hsteady, hcalls, hobserved⟩ := steady_step stored validYaml w env hphase hpaused henv
  rw [if_pos hyes] at hcalls hobserved
  have hnew : (reconcilePipeline stored validYaml w env).observedGeneration = some w.generation := by
    rw [hobserved]
    split
    · rfl
    next hmetrics => rw [hsticks.resolve_right hmetrics, Option.none_or]
  rw [List.foldl_cons, settled_run stored validYaml _ envs hsteady.phase (hsteady.unpaused hpaused) henvs
    fun h => ((redeploys_congr stored validYaml hsteady).mp h).1 hnew]
  exact hcalls

/-- The old generation comes back with the metrics, and the next reconcile deploys again. -/
theorem redeployed_twice (w : PipelineWorld) (env next : PipelineEnv) (envs : List PipelineEnv)
    (hphase : w.phase = .active) (hpaused : w.spec.paused = false) (henv : env.Succeeds)
    (henvs : ∀ e ∈ next :: envs, e.Succeeds) (hyes : w.Redeploys stored validYaml)
    (hgeneration : w.observedGeneration ≠ none) (hmetrics : env.metrics ≠ none) :
    w.deployCalls + 1 + 1 ≤
      ((env :: next :: envs).foldl (reconcilePipeline stored validYaml) w).deployCalls := by
  obtain ⟨hsteady, hcalls, hobserved⟩ := steady_step stored validYaml w env hphase hpaused henv
  rw [if_pos hyes] at hcalls hobserved
  have hold : (reconcilePipeline stored validYaml w env).observedGeneration = w.observedGeneration := by
    rw [hobserved, if_neg hmetrics]
    exact Option.or_of_isSome (Option.isSome_iff_ne_none.mpr hgeneration)
  have hagain : (reconcilePipeline stored validYaml w env).Redeploys stored validYaml := by
    rw [redeploys_congr stored validYaml hsteady, hold]
    exact hyes
  obtain ⟨hsteady', hcalls', -⟩ := steady_step stored validYaml _ next hsteady.phase
    (hsteady.unpaused hpaused) (henvs next List.mem_cons_self)
  rw [if_pos hagain, hcalls] at hcalls'
  rw [List.foldl_cons, List.foldl_cons, ← hcalls']
  exact deployCalls_mono stored validYaml _ envs hsteady'.phase
    (hsteady'.unpaused (hsteady.unpaused hpaused)) fun e he => henvs e (List.mem_cons_of_mem next he)

/-- An active pipeline is deployed at most once, while its spec stays as it is and every call but the
metrics succeeds, if and only if it need not be deployed, or its status has no observed generation, or
its first reconcile gets no metrics, or is the only one. -/
theorem deployed_at_most_once_iff (w : PipelineWorld) (envs : List PipelineEnv)
    (hphase : w.phase = .active) (hpaused : w.spec.paused = false)
    (henvs : ∀ env ∈ envs, env.Succeeds) :
    (envs.foldl (reconcilePipeline stored validYaml) w).deployCalls ≤ w.deployCalls + 1 ↔
      w.observedGeneration = some w.generation ∨
        validYaml (definitionOf stored w.spec.source) = false ∨ w.observedGeneration = none ∨
          envs.length ≤ 1 ∨ ∀ env ∈ envs.head?, env.metrics = none := by
  by_cases hyes : w.Redeploys stored validYaml
  · cases envs with
    | nil => exact iff_of_true (Nat.le_succ _) (by simp)
    | cons env envs =>
      have henv := henvs env List.mem_cons_self
      have hrest : ∀ e ∈ envs, e.Succeeds := fun e he => henvs e (List.mem_cons_of_mem env he)
      by_cases hsticks : w.observedGeneration = none ∨ env.metrics = none
      · rw [redeployed_once stored validYaml w env envs hphase hpaused henv hrest hyes hsticks]
        refine iff_of_true (le_refl _) ?_
        rcases hsticks with hnone | hmetrics
        · exact Or.inr (Or.inr (Or.inl hnone))
        · refine Or.inr (Or.inr (Or.inr (Or.inr fun e he => ?_)))
          cases he
          exact hmetrics
      · rw [not_or] at hsticks
        cases envs with
        | nil =>
          have hcalls := (steady_step stored validYaml w env hphase hpaused henv).2.1
          rw [if_pos hyes] at hcalls
          exact iff_of_true (by rw [List.foldl_cons, List.foldl_nil, hcalls]) (by simp)
        | cons next envs =>
          have htwice := redeployed_twice stored validYaml w env next envs hphase hpaused henv hrest hyes
            hsticks.1 hsticks.2
          refine iff_of_false (fun hle => by omega) ?_
          rintro (hgen | hvalid | hnone | hlen | hmetrics)
          · exact hyes.1 hgen
          · rw [hyes.2] at hvalid
            cases hvalid
          · exact hsticks.1 hnone
          · simp at hlen
          · exact hsticks.2 (hmetrics env rfl)
  · rw [settled_run stored validYaml w envs hphase hpaused henvs hyes]
    refine iff_of_true (Nat.le_succ _) ?_
    rw [PipelineWorld.Redeploys, not_and_or, not_not, Bool.not_eq_true] at hyes
    rcases hyes with hgen | hvalid
    · exact Or.inl hgen
    · exact Or.inr (Or.inl hvalid)

end Redeploys

/-! ### A pipeline that is deployed at every reconcile -/

theorem workingEnv_succeeds (metrics : Option (ℤ × ℤ)) : (workingEnv metrics).Succeeds := by
  constructor <;> rfl

def editedWorld : PipelineWorld where
  older := [inlineSpec "a" false]
  spec := inlineSpec "b" false
  status := some ⟨.active, 0, 0, 0, none, some 1⟩
  cluster := some ⟨"a", false⟩
  deployCalls := 1

theorem deployed_at_most_once_without_metrics :
    ([workingEnv none, workingEnv (some (3, 0))].foldl
      (reconcilePipeline (fun _ => "") fun _ => true) editedWorld).deployCalls ≤ 2 := by
  refine (deployed_at_most_once_iff (fun _ => "") (fun _ => true) editedWorld _ rfl rfl ?_).mpr ?_
  · intro env henv
    rcases List.mem_pair.mp henv with rfl | rfl
    · exact workingEnv_succeeds _
    · exact workingEnv_succeeds _
  · refine Or.inr (Or.inr (Or.inr (Or.inr fun env henv => ?_)))
    cases henv
    rfl

theorem deployed_at_every_reconcile :
    editedWorld.phase = .active ∧ editedWorld.spec.paused = false ∧
      (workingEnv (some (3, 0))).Succeeds ∧
      ([workingEnv (some (3, 0)), workingEnv (some (3, 0)), workingEnv (some (3, 0))].foldl
        (reconcilePipeline (fun _ => "") fun _ => true) editedWorld).deployCalls =
          editedWorld.deployCalls + 3 :=
  ⟨rfl, rfl, workingEnv_succeeds _, by decide⟩

end Xerv.Operator
