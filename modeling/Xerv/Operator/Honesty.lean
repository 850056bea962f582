import Xerv.Lib.Machine
import Xerv.Operator.Pipeline

/-!
# Whether the status of a pipeline says what the cluster holds

The status says `Active` with an observed generation, or `Paused`. It goes wrong where a pipeline is
deployed that should be paused, where a definition that has changed meets one that is deployed already,
and where pausing or resuming takes effect but the status is not written.
-/

namespace Xerv.Operator
open Xerv.Lib

/-- The metrics part of the active handler writes the old status back. -/
def PipelineEnv.writesBack (env : PipelineEnv) : Bool :=
  env.write.returned && env.metricsEndpoint && env.metrics.isSome && env.metricsWrite.applied

section Honesty
variable (stored : PipelineSource → String) (validYaml : String → Bool)

namespace PipelineWorld

def definitionAt (w : PipelineWorld) (generation : ℕ) : Option String :=
  (w.specOf generation).map fun spec => definitionOf stored spec.source

/-- `Active` with an observed generation: the cluster holds the definition of that generation, not
paused. `Paused`: the pipeline is paused in the cluster. -/
structure StatusHonest (w : PipelineWorld) : Prop where
  active : w.phase = .active → ∀ g, w.observedGeneration = some g →
    ∃ d, w.definitionAt stored g = some d ∧ w.cluster = some ⟨d, false⟩
  paused : w.phase = .paused → ∃ d, w.cluster = some ⟨d, true⟩

/-- The cluster holds the definition of the observed generation. -/
def Holds (w : PipelineWorld) (paused : Bool) : Prop :=
  ∃ g d, w.observedGeneration = some g ∧ w.definitionAt stored g = some d ∧
    w.cluster = some ⟨d, paused⟩

/-- What the phases promise along an honest run. -/
structure Tracked (w : PipelineWorld) : Prop where
  pending : w.phase = .pending → w.cluster = none
  validating : w.phase = .validating → ∀ c ∈ w.cluster, c.paused = false
  active : w.phase = .active → w.Holds stored false
  paused : w.phase = .paused → w.Holds stored true
  noError : w.phase ≠ .error
  noTerminating : w.phase ≠ .terminating

def holdsOther (w : PipelineWorld) (yaml : String) : Bool :=
  w.cluster.any fun c => c.definition ≠ yaml

/-- The validating handler gets to the status: the pipeline is to be paused, or another definition is
deployed already. -/
def validatingMisleads (w : PipelineWorld) (env : PipelineEnv) : Bool :=
  match loadDefinition stored env w.spec.source with
  | none => false
  | some yaml =>
    validYaml yaml && env.endpoint && env.deploy.returned && env.triggers && env.write.applied &&
      (w.spec.paused || w.holdsOther yaml)

/-- The pause takes effect and the status is not written, or a new generation is observed while another
definition is deployed. -/
def activeMisleads (w : PipelineWorld) (env : PipelineEnv) : Bool :=
  if w.spec.paused then
    env.endpoint && env.pause.applied && !(env.pause.returned && env.write.applied)
  else
    match loadDefinition stored env w.spec.source with
    | none => false
    | some yaml =>
      w.observedGeneration ≠ some w.generation && validYaml yaml && env.endpoint &&
        env.deploy.returned && env.write.applied && !env.writesBack &&
          w.holdsOther yaml

/-- The pipeline is resumed and the status is not written. -/
def pausedMisleads (w : PipelineWorld) (env : PipelineEnv) : Bool :=
  !w.spec.paused && env.endpoint && env.resume.applied && !(env.resume.returned && env.write.applied)

def misleads (w : PipelineWorld) : PipelineEvent → Bool
  | .edit _ => false
  | .reconcile env =>
    match w.phase with
    | .validating => w.validatingMisleads stored validYaml env
    | .active => w.activeMisleads stored validYaml env
    | .paused => w.pausedMisleads env
    | .pending => false
    | .error => false
    | .terminating => false

/-! ### Facts about single calls -/

theorem updateStatus_applied (w : PipelineWorld) {outcome : CallOutcome} (h : outcome.applied = true)
    (status : XervPipelineStatus) :
    w.updateStatus outcome status = { w with status := some (.merge w.status status) } := if_pos h

theorem updateStatus_not_applied (w : PipelineWorld) {outcome : CallOutcome}
    (h : outcome.applied = false) (status : XervPipelineStatus) :
    w.updateStatus outcome status = w := if_neg (by rw [h]; exact Bool.false_ne_true)

theorem applied_of_returned {outcome : CallOutcome} (h : outcome.returned = true) :
    outcome.applied = true := by
  cases outcome with
  | done => rfl
  | lost => cases h
  | failed => cases h

theorem returned_of_not_applied {outcome : CallOutcome} (h : outcome.applied = false) :
    outcome.returned = false := by
  cases outcome with
  | done => cases h
  | lost => rfl
  | failed => rfl

theorem definitionAt_generation (w : PipelineWorld) :
    w.definitionAt stored w.generation = some (definitionOf stored w.spec.source) := by
  simp [definitionAt, specOf, generation]

theorem definitionAt_congr {w w' : PipelineWorld} (h : w'.older = w.older ∧ w'.spec = w.spec) (g : ℕ) :
    w'.definitionAt stored g = w.definitionAt stored g := by
  unfold definitionAt specOf
  rw [h.1, h.2]

theorem definitionAt_edit (w : PipelineWorld) (spec : XervPipelineSpec) {g : ℕ} {d : String}
    (h : w.definitionAt stored g = some d) : (w.edit spec).definitionAt stored g = some d := by
  unfold edit
  split
  · exact h
  · unfold definitionAt specOf at h ⊢
    obtain ⟨spec', hspec, hd⟩ := Option.map_eq_some_iff.mp h
    have hlt := (List.getElem?_eq_some_iff.mp hspec).1
    rw [List.getElem?_append_left hlt, hspec]
    exact congrArg some hd

theorem tracked_honest (w : PipelineWorld) (h : w.Tracked stored) : w.StatusHonest stored := by
  constructor
  · intro hphase g hg
    obtain ⟨g', d, hobserved, hd, hcluster⟩ := h.active hphase
    rw [hg] at hobserved
    cases hobserved
    exact ⟨d, hd, hcluster⟩
  · intro hphase
    obtain ⟨g, d, -, -, hcluster⟩ := h.paused hphase
    exact ⟨d, hcluster⟩

theorem tracked_edit (w : PipelineWorld) (spec : XervPipelineSpec) (h : w.Tracked stored) :
    (w.edit spec).Tracked stored := by
  have hstatus : (w.edit spec).status = w.status ∧ (w.edit spec).cluster = w.cluster := by
    unfold edit
    split
    · exact ⟨rfl, rfl⟩
    · exact ⟨rfl, rfl⟩
  have hphase : (w.edit spec).phase = w.phase := by
    rw [phase, hstatus.1, phase]
  have hholds (paused : Bool) (hw : w.Holds stored paused) : (w.edit spec).Holds stored paused := by
    obtain ⟨g, d, hg, hd, hcluster⟩ := hw
    refine ⟨g, d, ?_, definitionAt_edit stored w spec hd, hstatus.2.trans hcluster⟩
    rw [observedGeneration, hstatus.1]
    exact hg
  constructor
  · rw [hphase, hstatus.2]
    exact h.pending
  · rw [hphase, hstatus.2]
    exact h.validating
  · rw [hphase]
    exact fun hp => hholds false (h.active hp)
  · rw [hphase]
    exact fun hp => hholds true (h.paused hp)
  · rw [hphase]
    exact h.noError
  · rw [hphase]
    exact h.noTerminating

theorem loadDefinition_some {env : PipelineEnv} {source : PipelineSource} {yaml : String}
    (h : loadDefinition stored env source = some yaml) : yaml = definitionOf stored source := by
  cases source with
  | configMap name key =>
    rw [loadDefinition, Option.ite_none_right_eq_some] at h
    exact (Option.some.inj h.2).symm
  | git repo refName path =>
    rw [loadDefinition, Option.ite_none_right_eq_some] at h
    exact (Option.some.inj h.2).symm
  | inline content => exact (Option.some.inj h).symm

variable {stored}

theorem Tracked.ofPending {w : PipelineWorld} (hphase : w.phase = .pending) (h : w.cluster = none) :
    w.Tracked stored := by
  constructor <;> simp [hphase, h]

theorem Tracked.ofValidating {w : PipelineWorld} (hphase : w.phase = .validating)
    (h : ∀ c ∈ w.cluster, c.paused = false) : w.Tracked stored := by
  constructor <;> simp [hphase]
  simpa using h

theorem Tracked.ofActive {w : PipelineWorld} (hphase : w.phase = .active)
    (h : w.Holds stored false) : w.Tracked stored := by
  constructor <;> simp [hphase, h]

theorem Tracked.ofPaused {w : PipelineWorld} (hphase : w.phase = .paused)
    (h : w.Holds stored true) : w.Tracked stored := by
  constructor <;> simp [hphase, h]

/-! ### Handler by handler -/

theorem tracked_pending (w : PipelineWorld) (env : PipelineEnv) (h : w.Tracked stored)
    (hphase : w.phase = .pending) : (handlePipelinePending w env).Tracked stored := by
  have hcluster := h.pending hphase
  unfold handlePipelinePending
  split
  · cases happlied : env.write.applied with
    | true =>
      rw [updateStatus_applied w happlied]
      refine Tracked.ofValidating rfl fun c hc => ?_
      change c ∈ w.cluster at hc
      rw [hcluster] at hc
      cases hc
    | false =>
      rw [updateStatus_not_applied w happlied]
      exact h
  · exact h

theorem deployed_cluster (w : PipelineWorld) {outcome : CallOutcome} (h : outcome.applied = true)
    (yaml : String) : (w.deployToCluster outcome yaml).cluster = w.cluster.or (some ⟨yaml, false⟩) :=
  if_pos h

theorem deployed_validating (w : PipelineWorld) (h : w.Tracked stored) (hphase : w.phase = .validating)
    (outcome : CallOutcome) (yaml : String) : (w.deployToCluster outcome yaml).Tracked stored := by
  have hunpaused := h.validating hphase
  refine Tracked.ofValidating hphase ?_
  cases happlied : outcome.applied with
  | true =>
    rw [deployed_cluster w happlied]
    cases hcluster : w.cluster with
    | none =>
      intro c hc
      cases hc
      rfl
    | some old =>
      intro c hc
      cases hc
      exact hunpaused old hcluster
  | false =>
    have hsame : (w.deployToCluster outcome yaml).cluster = w.cluster :=
      if_neg (by rw [happlied]; exact Bool.false_ne_true)
    rw [hsame]
    exact hunpaused

theorem deployed_same (w : PipelineWorld) {outcome : CallOutcome} (h : outcome.applied = true)
    (yaml : String) (hsame : w.holdsOther yaml = false) (hunpaused : ∀ c ∈ w.cluster, c.paused = false) :
    (w.deployToCluster outcome yaml).cluster = some ⟨yaml, false⟩ := by
  rw [deployed_cluster w h]
  cases hcluster : w.cluster with
  | none => rfl
  | some old =>
    rw [holdsOther, hcluster] at hsame
    have hdefinition : old.definition = yaml := by simpa using hsame
    rw [← hdefinition, ← hunpaused old hcluster]
    rfl

theorem deployed_other (w : PipelineWorld) {outcome : CallOutcome} (yaml : String)
    (hother : w.holdsOther yaml = true) (paused : Bool) :
    (w.deployToCluster outcome yaml).cluster ≠ some ⟨yaml, paused⟩ := by
  cases hcluster : w.cluster with
  | none =>
    rw [holdsOther, hcluster] at hother
    cases hother
  | some old =>
    rw [holdsOther, hcluster] at hother
    have hdefinition : old.definition ≠ yaml := by simpa using hother
    have hkept : (w.deployToCluster outcome yaml).cluster = some old := by
      unfold deployToCluster
      rw [hcluster]
      exact ite_self _
    rw [hkept]
    intro heq
    cases heq
    exact hdefinition rfl

theorem deployed_active {w w' : PipelineWorld} {outcome : CallOutcome} (hdeploy : outcome.applied = true)
    (hspecs : w'.older = w.older ∧ w'.spec = w.spec)
    (hcluster : w'.cluster = (w.deployToCluster outcome (definitionOf stored w.spec.source)).cluster)
    (hactive : w'.phase = .active) (hobserved : w'.observedGeneration = some w.generation)
    (hunpaused : ∀ c ∈ w.cluster, c.paused = false) :
    (w.holdsOther (definitionOf stored w.spec.source) = false → w'.Tracked stored) ∧
      (w.holdsOther (definitionOf stored w.spec.source) = true → ¬ w'.StatusHonest stored) := by
  have hgen : w'.definitionAt stored w.generation = some (definitionOf stored w.spec.source) := by
    rw [definitionAt_congr stored hspecs]
    exact definitionAt_generation stored w
  constructor
  · intro hsame
    refine Tracked.ofActive hactive ⟨w.generation, definitionOf stored w.spec.source, hobserved, hgen, ?_⟩
    rw [hcluster]
    exact deployed_same w hdeploy _ hsame hunpaused
  · intro hother hhonest
    obtain ⟨d, hd, hholds⟩ := hhonest.active hactive w.generation hobserved
    rw [hgen] at hd
    cases hd
    rw [hcluster] at hholds
    exact deployed_other w _ hother false hholds

theorem validating_step (w : PipelineWorld) (env : PipelineEnv) (h : w.Tracked stored)
    (hphase : w.phase = .validating) :
    (w.validatingMisleads stored validYaml env = false →
        (handleValidating stored validYaml w env).Tracked stored) ∧
      (w.validatingMisleads stored validYaml env = true →
        ¬ (handleValidating stored validYaml w env).StatusHonest stored) := by
  unfold validatingMisleads handleValidating
  cases hload : loadDefinition stored env w.spec.source with
  | none => exact ⟨fun _ => h, fun hmisleads => by cases hmisleads⟩
  | some yaml =>
    have hyaml := loadDefinition_some stored hload
    subst hyaml
    dsimp only
    cases hready : validYaml (definitionOf stored w.spec.source) && env.endpoint with
    | false =>
      simp only [Bool.false_and, Bool.false_eq_true, if_false, false_implies, and_true]
      exact fun _ => h
    | true =>
      have hdeployed := deployed_validating w h hphase env.deploy (definitionOf stored w.spec.source)
      rw [Bool.true_and]
      cases hreturned : env.deploy.returned && env.triggers with
      | false =>
        simp only [Bool.false_and, Bool.false_eq_true, if_false, if_true, false_implies, and_true]
        exact fun _ => hdeployed
      | true =>
        have hdeploy := applied_of_returned (Bool.and_eq_true_iff.mp hreturned).1
        cases hwrite : env.write.applied with
        | false =>
          rw [if_pos rfl, if_pos rfl, updateStatus_not_applied _ hwrite]
          exact ⟨fun _ => hdeployed, fun hmisleads => by cases hmisleads⟩
        | true =>
          rw [if_pos rfl, if_pos rfl, updateStatus_applied _ hwrite, Bool.true_and, Bool.true_and]
          cases hpaused : w.spec.paused with
          | false => exact deployed_active hdeploy ⟨rfl, rfl⟩ rfl rfl rfl (h.validating hphase)
          | true =>
            -- `Paused` is written, and nothing has been paused
            refine ⟨fun hmisleads => (by cases hmisleads), fun _ hhonest => ?_⟩
            obtain ⟨d, hd⟩ := hhonest.paused rfl
            have hunpaused := hdeployed.validating hphase _ hd
            cases hunpaused

theorem Holds.congr {w w' : PipelineWorld} {paused : Bool} (h : w.Holds stored paused)
    (hspecs : w'.older = w.older ∧ w'.spec = w.spec)
    (hobserved : w'.observedGeneration = w.observedGeneration) (hcluster : w'.cluster = w.cluster) :
    w'.Holds stored paused := by
  obtain ⟨g, d, hg, hd, hholds⟩ := h
  refine ⟨g, d, hobserved.trans hg, ?_, hcluster.trans hholds⟩
  rw [definitionAt_congr stored hspecs]
  exact hd

theorem updateMetrics_idle (w : PipelineWorld) (read : XervPipelineStatus) (env : PipelineEnv)
    (h : (env.metricsEndpoint && env.metrics.isSome && env.metricsWrite.applied) = false) :
    updateMetrics w read env = w := by
  unfold updateMetrics
  cases hendpoint : env.metricsEndpoint with
  | false => rfl
  | true =>
    cases hmetrics : env.metrics with
    | none => rfl
    | some metrics =>
      rw [hendpoint, hmetrics] at h
      exact updateStatus_not_applied w h _

theorem updateMetrics_back (w : PipelineWorld) (read : XervPipelineStatus) (env : PipelineEnv)
    (h : (env.metricsEndpoint && env.metrics.isSome && env.metricsWrite.applied) = true) :
    ∃ metrics : ℤ × ℤ, updateMetrics w read env = { w with status := some (.merge w.status
      { read with tracesCompleted := metrics.1, tracesFailed := metrics.2 }) } := by
  unfold updateMetrics
  cases hmetrics : env.metrics with
  | none =>
    rw [hmetrics] at h
    simp at h
  | some metrics =>
    rw [hmetrics] at h
    simp only [Bool.and_eq_true, Option.isSome_some, and_true] at h
    refine ⟨metrics, ?_⟩
    rw [if_pos h.1]
    exact updateStatus_applied w h.2 _

/-- The metrics are written with the status that was read, over a status that may be newer. -/
theorem metrics_back_tracked {w w' : PipelineWorld} (h : w.Holds stored false) {status : XervPipelineStatus}
    (hstatus : w.status = some status) (hphase : status.phase = .active)
    (hspecs : w'.older = w.older ∧ w'.spec = w.spec) (hcluster : w'.cluster = w.cluster)
    {env : PipelineEnv}
    (hback : (env.metricsEndpoint && env.metrics.isSome && env.metricsWrite.applied) = true) :
    (updateMetrics w' status env).Tracked stored := by
  obtain ⟨metrics, hmetrics⟩ := updateMetrics_back w' status env hback
  rw [hmetrics]
  refine Tracked.ofActive hphase (h.congr hspecs ?_ hcluster)
  obtain ⟨g, -, hg, -⟩ := h
  rw [hg]
  rw [observedGeneration, hstatus] at hg
  change status.observedGeneration = some g at hg
  change (status.observedGeneration.or _) = _
  rw [hg]
  rfl

def phaseFor (paused : Bool) : PipelinePhase := if paused then .paused else .active

theorem Tracked.ofSwitch {w : PipelineWorld} {paused : Bool} (hphase : w.phase = phaseFor paused)
    (h : w.Holds stored paused) : w.Tracked stored := by
  cases paused with
  | true => exact Tracked.ofPaused hphase h
  | false => exact Tracked.ofActive hphase h

theorem not_honest_of_switched {w : PipelineWorld} {paused : Bool} (hphase : w.phase = phaseFor (!paused))
    {g : ℕ} (hobserved : w.observedGeneration = some g) {d : String}
    (hcluster : w.cluster = some ⟨d, paused⟩) : ¬ w.StatusHonest stored := by
  intro h
  cases paused with
  | true =>
    obtain ⟨d', -, hholds⟩ := h.active hphase g hobserved
    rw [hcluster] at hholds
    cases hholds
  | false =>
    obtain ⟨d', hholds⟩ := h.paused hphase
    rw [hcluster] at hholds
    cases hholds

def switchPaused (w : PipelineWorld) (outcome write : CallOutcome) (paused : Bool)
    (new : XervPipelineStatus) : PipelineWorld :=
  if (w.setPausedInCluster outcome paused).2 then
    (w.setPausedInCluster outcome paused).1.updateStatus write new
  else (w.setPausedInCluster outcome paused).1

theorem switch_step (w : PipelineWorld) (paused : Bool) {status : XervPipelineStatus}
    (hstatus : w.status = some status) (hphase : status.phase = phaseFor (!paused))
    (h : w.Holds stored (!paused)) (outcome write : CallOutcome) :
    ((outcome.applied && !(outcome.returned && write.applied)) = false →
        (w.switchPaused outcome write paused { status with phase := phaseFor paused }).Tracked stored) ∧
      ((outcome.applied && !(outcome.returned && write.applied)) = true →
        ¬ (w.switchPaused outcome write paused
          { status with phase := phaseFor paused }).StatusHonest stored) := by
  obtain ⟨g, d, hg, hd, hcluster⟩ := h
  have hwphase : w.phase = phaseFor (!paused) := by
    rw [phase, hstatus]
    exact hphase
  have hset : w.setPausedInCluster outcome paused =
      (if outcome.applied then { w with cluster := some ⟨d, paused⟩ } else w, outcome.returned) := by
    unfold setPausedInCluster
    rw [hcluster]
  unfold switchPaused
  rw [hset]
  dsimp only
  cases happlied : outcome.applied with
  | false =>
    rw [returned_of_not_applied happlied]
    exact ⟨fun _ => Tracked.ofSwitch hwphase ⟨g, d, hg, hd, hcluster⟩, fun hmis => by cases hmis⟩
  | true =>
    have hswitched : ¬ ({ w with cluster := some ⟨d, paused⟩ } : PipelineWorld).StatusHonest stored :=
      not_honest_of_switched hwphase hg rfl
    rw [if_pos rfl, Bool.true_and]
    cases hreturned : outcome.returned with
    | false => exact ⟨fun hmis => (by cases hmis), fun _ => hswitched⟩
    | true =>
      rw [if_pos rfl, Bool.true_and]
      cases hwrite : write.applied with
      | false =>
        rw [updateStatus_not_applied _ hwrite]
        exact ⟨fun hmis => (by cases hmis), fun _ => hswitched⟩
      | true =>
        rw [updateStatus_applied _ hwrite]
        refine ⟨fun _ => ?_, fun hmis => by cases hmis⟩
        refine Tracked.ofSwitch rfl ⟨g, d, ?_, hd, rfl⟩
        rw [observedGeneration, hstatus] at hg
        change status.observedGeneration = some g at hg
        change (status.observedGeneration.or _) = some g
        rw [hg]
        rfl

theorem paused_step (w : PipelineWorld) (env : PipelineEnv) (h : w.Tracked stored)
    (hphase : w.phase = .paused) :
    (w.pausedMisleads env = false → (handlePaused w env).Tracked stored) ∧
      (w.pausedMisleads env = true → ¬ (handlePaused w env).StatusHonest stored) := by
  unfold pausedMisleads handlePaused
  cases hpaused : w.spec.paused with
  | true => exact ⟨fun _ => h, fun hmis => by cases hmis⟩
  | false =>
    cases hendpoint : env.endpoint with
    | false => exact ⟨fun _ => h, fun hmis => by cases hmis⟩
    | true =>
      obtain ⟨status, hstatus, hread, hsphase⟩ := exists_status hphase (by decide)
      rw [hread]
      exact switch_step w false hstatus hsphase (h.paused hphase) env.resume env.write

theorem metrics_tracked (w : PipelineWorld) (env : PipelineEnv) (h : w.Holds stored false)
    {status : XervPipelineStatus} (hstatus : w.status = some status) (hphase : status.phase = .active) :
    (updateMetrics w status env).Tracked stored := by
  cases hback : env.metricsEndpoint && env.metrics.isSome && env.metricsWrite.applied with
  | false =>
    rw [updateMetrics_idle w status env hback]
    exact Tracked.ofActive (by rw [phase, hstatus]; exact hphase) h
  | true =>
    exact metrics_back_tracked h hstatus hphase ⟨rfl, rfl⟩ rfl hback

theorem redeployed_holds {w : PipelineWorld} {paused : Bool} (h : w.Holds stored paused)
    (outcome : CallOutcome) (yaml : String) : (w.deployToCluster outcome yaml).cluster = w.cluster := by
  obtain ⟨g, d, -, -, hcluster⟩ := h
  unfold deployToCluster
  rw [hcluster]
  exact ite_self _

theorem redeploy_step (w : PipelineWorld) (env : PipelineEnv) (h : w.Holds stored false)
    {status : XervPipelineStatus} (hstatus : w.status = some status) (hphase : status.phase = .active)
    (hdeploy : env.deploy.returned = true) :
    let deployed := w.deployToCluster env.deploy (definitionOf stored w.spec.source)
    let updated := deployed.updateStatus env.write
      { status with phase := .active, observedGeneration := some w.generation }
    let w' := if env.write.returned then updateMetrics updated status env else updated
    let misleads := env.write.applied && !env.writesBack &&
      w.holdsOther (definitionOf stored w.spec.source)
    (misleads = false → w'.Tracked stored) ∧ (misleads = true → ¬ w'.StatusHonest stored) := by
  dsimp only
  have hkept := redeployed_holds h env.deploy (definitionOf stored w.spec.source)
  have hunpaused : ∀ c ∈ w.cluster, c.paused = false := by
    obtain ⟨g, d, -, -, hcluster⟩ := h
    rw [hcluster]
    intro c hc
    cases hc
    rfl
  cases hwrite : env.write.applied with
  | false =>
    rw [returned_of_not_applied hwrite, updateStatus_not_applied _ hwrite]
    refine ⟨fun _ => ?_, fun hmis => by cases hmis⟩
    exact Tracked.ofActive (by change w.phase = _; rw [phase, hstatus]; exact hphase)
      (h.congr ⟨rfl, rfl⟩ rfl hkept)
  | true =>
    have hspecs : (w.deployToCluster env.deploy (definitionOf stored w.spec.source)).older = w.older ∧
        (w.deployToCluster env.deploy (definitionOf stored w.spec.source)).spec = w.spec := ⟨rfl, rfl⟩
    rw [updateStatus_applied _ hwrite, Bool.true_and]
    have hnew (w' : PipelineWorld) (hw' : w' =
        { w.deployToCluster env.deploy (definitionOf stored w.spec.source) with
          status := some (.merge w.status
            { status with phase := .active, observedGeneration := some w.generation }) }) :
        (w.holdsOther (definitionOf stored w.spec.source) = false → w'.Tracked stored) ∧
          (w.holdsOther (definitionOf stored w.spec.source) = true → ¬ w'.StatusHonest stored) := by
      subst hw'
      exact deployed_active (applied_of_returned hdeploy) hspecs rfl rfl rfl hunpaused
    cases hreturned : env.write.returned with
    | false =>
      have hback : env.writesBack = false := by
        unfold PipelineEnv.writesBack
        rw [hreturned]
        rfl
      rw [hback, Bool.not_false, Bool.true_and]
      exact hnew _ rfl
    | true =>
      have hwb : env.writesBack =
          (env.metricsEndpoint && env.metrics.isSome && env.metricsWrite.applied) := by
        unfold PipelineEnv.writesBack
        rw [hreturned, Bool.true_and]
      rw [hwb, if_pos rfl]
      cases hback : env.metricsEndpoint && env.metrics.isSome && env.metricsWrite.applied with
      | false =>
        rw [updateMetrics_idle _ status env hback, Bool.not_false, Bool.true_and]
        exact hnew _ rfl
      | true =>
        refine ⟨fun _ => ?_, fun hmis => by cases hmis⟩
        refine metrics_back_tracked h hstatus hphase ?_ ?_ hback
        · exact hspecs
        · exact hkept

theorem active_step (w : PipelineWorld) (env : PipelineEnv) (h : w.Tracked stored)
    (hphase : w.phase = .active) :
    (w.activeMisleads stored validYaml env = false →
        (handleActive stored validYaml w env).Tracked stored) ∧
      (w.activeMisleads stored validYaml env = true →
        ¬ (handleActive stored validYaml w env).StatusHonest stored) := by
  have hholds := h.active hphase
  obtain ⟨status, hstatus, hread, hsphase⟩ := exists_status hphase (by decide)
  unfold activeMisleads handleActive
  rw [hread]
  cases hpaused : w.spec.paused with
  | true =>
    cases hendpoint : env.endpoint with
    | false => exact ⟨fun _ => h, fun hmis => by cases hmis⟩
    | true => exact switch_step w true hstatus hsphase hholds env.pause env.write
  | false =>
    have hmetrics := metrics_tracked w env hholds hstatus hsphase
    cases hload : loadDefinition stored env w.spec.source with
    | none =>
      refine ⟨fun _ => ?_, fun hmis => by cases hmis⟩
      by_cases hgen : w.observedGeneration = some w.generation
      · rw [if_neg (by simp), if_neg (not_not_intro hgen)]
        exact hmetrics
      · rw [if_neg (by simp), if_pos hgen]
        exact h
    | some yaml =>
      have hyaml := loadDefinition_some stored hload
      subst hyaml
      dsimp only
      by_cases hgen : w.observedGeneration = some w.generation
      · simp only [hgen, ne_eq, not_true_eq_false, decide_false, Bool.false_and, Bool.false_eq_true,
          if_false, false_implies, and_true]
        exact fun _ => hmetrics
      · simp only [hgen, ne_eq, not_false_eq_true, decide_true, Bool.true_and, Bool.false_eq_true,
          if_false, if_true]
        cases hready : validYaml (definitionOf stored w.spec.source) && env.endpoint with
        | false =>
          simp only [Bool.false_and, Bool.false_eq_true, if_false, false_implies, and_true]
          exact fun _ => h
        | true =>
          cases hreturned : env.deploy.returned with
          | false =>
            simp only [Bool.and_false, Bool.false_and, Bool.false_eq_true, if_false, if_true,
              false_implies, and_true]
            refine fun _ => Tracked.ofActive hphase (hholds.congr ⟨rfl, rfl⟩ rfl ?_)
            exact redeployed_holds hholds env.deploy _
          | true =>
            simp only [Bool.true_and, if_true]
            exact redeploy_step w env hholds hstatus hsphase hreturned

/-! ### Steps and runs -/

theorem next_step (w : PipelineWorld) (event : PipelineEvent) (h : w.Tracked stored) :
    (w.misleads stored validYaml event = false → (w.next stored validYaml event).Tracked stored) ∧
      (w.misleads stored validYaml event = true →
        ¬ (w.next stored validYaml event).StatusHonest stored) := by
  cases event with
  | edit spec => exact ⟨fun _ => tracked_edit stored w spec h, fun hmis => by cases hmis⟩
  | reconcile env =>
    unfold misleads next reconcilePipeline
    cases hphase : w.phase with
    | pending => exact ⟨fun _ => tracked_pending w env h hphase, fun hmis => by cases hmis⟩
    | validating => exact validating_step validYaml w env h hphase
    | active => exact active_step validYaml w env h hphase
    | paused => exact paused_step w env h hphase
    | error => exact absurd hphase h.noError
    | terminating => exact absurd hphase h.noTerminating

variable (stored)

/-- From a pipeline that the cluster does not have, whatever is edited and however the calls of the
reconciles end: the status is honest in every state reached if and only if no reconcile misleads. -/
theorem status_honest_iff (spec : XervPipelineSpec) (events : List PipelineEvent) :
    (∀ before, before <+: events →
        (before.foldl (next stored validYaml) (created spec)).StatusHonest stored) ↔
      ∀ before event, before ++ [event] <+: events →
        (before.foldl (next stored validYaml) (created spec)).misleads stored validYaml event = false :=
  Machine.foldl_guarded_iff (next stored validYaml) (misleads stored validYaml) (Tracked stored)
    (StatusHonest stored) (tracked_honest stored)
    (fun w event h => (next_step validYaml w event h).1)
    (fun w event h => (next_step validYaml w event h).2) events (Tracked.ofPending rfl rfl)

end PipelineWorld

end Honesty

/-! ### Every call succeeds, and the status is wrong -/

def reconciles (n : ℕ) : List PipelineEvent := List.replicate n (.reconcile (workingEnv none))

/-- Created paused: `Paused` is written without pausing. Edited while active: generation 2 is observed, and
the cluster holds generation 1. -/
theorem status_misleads :
    ¬ ((reconciles 2).foldl (PipelineWorld.next (fun _ => "") fun _ => true)
        (.created (inlineSpec "a" true))).StatusHonest (fun _ => "") ∧
      ¬ ((reconciles 2 ++ .edit (inlineSpec "b" false) :: reconciles 1).foldl
        (PipelineWorld.next (fun _ => "") fun _ => true)
        (.created (inlineSpec "a" false))).StatusHonest (fun _ => "") := by
  constructor
  · intro h
    obtain ⟨d, hd⟩ := h.paused (by decide)
    have hcluster : ((reconciles 2).foldl (PipelineWorld.next (fun _ => "") fun _ => true)
        (.created (inlineSpec "a" true))).cluster = some ⟨"a", false⟩ := by decide
    rw [hcluster] at hd
    cases hd
  · intro h
    obtain ⟨d, hd, hcluster⟩ := h.active (by decide) 2 (by decide)
    have hdefinition : ((reconciles 2 ++ .edit (inlineSpec "b" false) :: reconciles 1).foldl
        (PipelineWorld.next (fun _ => "") fun _ => true)
        (.created (inlineSpec "a" false))).definitionAt (fun _ => "") 2 = some "b" := by decide
    have hholds : ((reconciles 2 ++ .edit (inlineSpec "b" false) :: reconciles 1).foldl
        (PipelineWorld.next (fun _ => "") fun _ => true)
        (.created (inlineSpec "a" false))).cluster = some ⟨"a", false⟩ := by decide
    rw [hdefinition] at hd
    rw [hholds, ← Option.some.inj hd] at hcluster
    exact absurd hcluster (by decide)

end Xerv.Operator
