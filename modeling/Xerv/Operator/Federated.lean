import Xerv.Lib.Machine
import Xerv.Operator.Rollout
import Mathlib.Tactic.NormNum

/-!
# The sync status of a federated pipeline (`controller/federated_pipeline.rs`)

The five handlers of the reconciler, each as the list of the status writes it makes, and its runs:
edits of the spec and of federations, and reconciles with whatever the clusters answer. A write
carries the clusters that the spec selects and what was reported about each of them. Timestamps,
conditions and messages of the status are left out.
-/

namespace Xerv.Operator
open Xerv.Lib

inductive SyncStatus where
  | pending | syncing | synced | outOfSync | failed
  deriving DecidableEq, Repr

structure FederatedPipelineStatus where
  syncStatus : SyncStatus
  deployedClusters : ℤ
  targetClusters : ℤ
  clusterStatuses : List ClusterPipelineStatus
  observedGeneration : ℤ
  deriving DecidableEq

namespace FederatedPipelineStatus

def initial : FederatedPipelineStatus := ⟨.pending, 0, 0, [], 0⟩

/-- The merge patch of `update_status`; an empty list of cluster statuses is not serialized. -/
def merge (old : Option FederatedPipelineStatus) (new : FederatedPipelineStatus) :
    FederatedPipelineStatus :=
  if new.clusterStatuses = [] then
    { new with clusterStatuses := (old.getD initial).clusterStatuses }
  else new

end FederatedPipelineStatus

structure FederatedPipeline where
  spec : FederatedPipelineSpec
  generation : Option ℤ
  status : Option FederatedPipelineStatus
  deriving DecidableEq

def FederatedPipeline.currentGen (p : FederatedPipeline) : ℤ := p.generation.getD 1

inductive SyncHandler where
  | notFound | pending | syncing | synced | outOfSync | failed
  deriving DecidableEq, Repr

/-- A status write: who makes it, the resolved targets, what was reported about them, in their order,
and the status. -/
structure StatusWrite where
  handler : SyncHandler
  targets : List String
  reports : List ClusterPipelineStatus
  status : FederatedPipelineStatus
  deriving DecidableEq

/-- The cast `as i32` of a count. -/
def asI32 (n : ℕ) : ℤ := (n : ℤ).bmod (2 ^ 32)

/-! ### Handlers -/

section Handlers
variable (p : FederatedPipeline) (federation : XervFederation)

def handlePending : List StatusWrite :=
  match validateSpec p.spec federation with
  | .error _ => []
  | .ok _ =>
    let targets := resolveTargetClusters p.spec federation
    if targets = [] then
      [⟨.pending, targets, [], { FederatedPipelineStatus.initial with syncStatus := .failed }⟩]
    else
      [⟨.pending, targets, [], { FederatedPipelineStatus.initial with
        syncStatus := .syncing
        targetClusters := asI32 targets.length
        observedGeneration := p.currentGen }⟩]

def syncVerdict (metrics : AggregateMetrics) : SyncStatus :=
  if metrics.syncedClusters = metrics.totalClusters then .synced
  else if metrics.deployedClusters > 0 then .syncing
  else .failed

def handleSyncing (deploys : ℕ → DeployAnswer) : List StatusWrite :=
  let targets := resolveTargetClusters p.spec federation
  let clusterStatuses := deployClusters p.currentGen federation deploys p.spec.rollout targets
  let metrics := computeMetrics clusterStatuses
  [⟨.syncing, targets, clusterStatuses,
    { syncStatus := syncVerdict metrics
      deployedClusters := asI32 metrics.deployedClusters
      targetClusters := asI32 metrics.totalClusters
      clusterStatuses := clusterStatuses
      observedGeneration := p.currentGen }⟩]

def handleSynced (verifies : ℕ → VerifyAnswer) : List StatusWrite :=
  let old := p.status.getD .initial
  let targets := resolveTargetClusters p.spec federation
  if p.currentGen ≠ old.observedGeneration then
    [⟨.synced, targets, [], { old with syncStatus := .outOfSync }⟩]
  else
    let clusterStatuses := verifyPipelineOnClusters federation verifies targets
    let metrics := computeMetrics clusterStatuses
    if metrics.totalClusters - metrics.syncedClusters > 0 then
      [⟨.synced, targets, clusterStatuses,
        { old with syncStatus := .outOfSync, clusterStatuses := clusterStatuses }⟩]
    else
      [⟨.synced, targets, clusterStatuses, { old with
        syncStatus := .synced
        deployedClusters := asI32 metrics.syncedClusters
        targetClusters := asI32 metrics.totalClusters
        clusterStatuses := clusterStatuses }⟩]

/-- Back to syncing with the rest of the old status, then the syncing handler. -/
def resync (handler : SyncHandler) (deploys : ℕ → DeployAnswer) : List StatusWrite :=
  ⟨handler, resolveTargetClusters p.spec federation, [],
    { p.status.getD .initial with syncStatus := .syncing }⟩ :: handleSyncing p federation deploys

def handleOutOfSync (deploys : ℕ → DeployAnswer) : List StatusWrite :=
  resync p federation .outOfSync deploys

def handleFailed (deploys : ℕ → DeployAnswer) : List StatusWrite :=
  resync p federation .failed deploys

end Handlers

/-- The environment of a reconcile: the answers of the clusters, and how many status patches are accepted
before one fails, which ends the reconcile. -/
structure ReconcileAnswers where
  deploys : ℕ → DeployAnswer
  verifies : ℕ → VerifyAnswer
  accepted : ℕ

def FederatedPipeline.syncStatus (p : FederatedPipeline) : SyncStatus :=
  (p.status.map FederatedPipelineStatus.syncStatus).getD .pending

def reconcileFederated (p : FederatedPipeline) (federation : Option XervFederation)
    (answers : ReconcileAnswers) : List StatusWrite :=
  match federation with
  | none => [⟨.notFound, [], [], { FederatedPipelineStatus.initial with syncStatus := .failed }⟩]
  | some federation =>
    match p.syncStatus with
    | .pending => handlePending p federation
    | .syncing => handleSyncing p federation answers.deploys
    | .synced => handleSynced p federation answers.verifies
    | .outOfSync => handleOutOfSync p federation answers.deploys
    | .failed => handleFailed p federation answers.deploys

/-! ### Runs -/

structure FederatedWorld where
  pipeline : FederatedPipeline
  federations : String → Option XervFederation
  writes : List StatusWrite

inductive FederatedEvent where
  | editSpec (spec : FederatedPipelineSpec)
  | setFederation (name : String) (federation : Option XervFederation)
  | reconcile (answers : ReconcileAnswers)

namespace FederatedWorld

def created (spec : FederatedPipelineSpec) (federations : String → Option XervFederation) :
    FederatedWorld := ⟨⟨spec, some 1, none⟩, federations, []⟩

def write (w : FederatedWorld) (change : StatusWrite) : FederatedWorld :=
  { w with
    pipeline := { w.pipeline with status := some (.merge w.pipeline.status change.status) }
    writes := w.writes ++ [change] }

def federation (w : FederatedWorld) : Option XervFederation :=
  w.federations w.pipeline.spec.federation

/-- The API server counts the changes of the spec. -/
def next (w : FederatedWorld) : FederatedEvent → FederatedWorld
  | .editSpec spec =>
    if spec = w.pipeline.spec then w
    else { w with pipeline := { w.pipeline with
      spec := spec, generation := w.pipeline.generation.map (· + 1) } }
  | .setFederation name federation =>
    { w with federations := Function.update w.federations name federation }
  | .reconcile answers =>
    ((reconcileFederated w.pipeline w.federation answers).take answers.accepted).foldl write w

end FederatedWorld

/-- A write of `Synced` has a target, and every target is reported deployed and synced; the syncing and
the synced handler write the number of targets. -/
structure StatusWrite.Honest (w : StatusWrite) : Prop where
  synced : w.status.syncStatus = .synced → w.targets ≠ [] ∧ w.reports.length = w.targets.length ∧
    ∀ r ∈ w.reports, r.deployed = true ∧ r.synced = true
  counted : w.handler = .syncing ∨ w.handler = .synced → w.status.targetClusters = w.targets.length

/-! ### The steps that write a wrong status -/

section Faulty
variable (p : FederatedPipeline) (federation : XervFederation)

/-- No targets, or more than an `i32` counts, or a canary that stops short of the other targets. -/
def SyncFaulty (deploys : ℕ → DeployAnswer) : Prop :=
  let targets := resolveTargetClusters p.spec federation
  targets = [] ∨ 2 ^ 31 ≤ targets.length ∨
    (2 ≤ targets.length ∧ CanaryStops p.currentGen federation deploys p.spec.rollout targets)

/-- The check finds a new generation or a cluster that is not synced. -/
def CheckAlarmed (verifies : ℕ → VerifyAnswer) : Prop :=
  p.currentGen ≠ (p.status.getD .initial).observedGeneration ∨
    ∃ r ∈ verifyPipelineOnClusters federation verifies (resolveTargetClusters p.spec federation),
      r.synced = false

/-- An alarmed check while the old status counts other targets; a quiet one without targets, with too
many, or with one that is not deployed. -/
def CheckFaulty (verifies : ℕ → VerifyAnswer) : Prop :=
  let targets := resolveTargetClusters p.spec federation
  (CheckAlarmed p federation verifies ∧ (p.status.getD .initial).targetClusters ≠ targets.length) ∨
    (¬ CheckAlarmed p federation verifies ∧ (targets = [] ∨ 2 ^ 31 ≤ targets.length ∨
      ∃ r ∈ verifyPipelineOnClusters federation verifies targets, r.deployed = false))

instance (deploys : ℕ → DeployAnswer) : Decidable (SyncFaulty p federation deploys) :=
  inferInstanceAs (Decidable (_ ∨ _))

instance (verifies : ℕ → VerifyAnswer) : Decidable (CheckAlarmed p federation verifies) :=
  inferInstanceAs (Decidable (_ ∨ _))

instance (verifies : ℕ → VerifyAnswer) : Decidable (CheckFaulty p federation verifies) :=
  inferInstanceAs (Decidable (_ ∨ _))

end Faulty

def FederatedWorld.faulty (w : FederatedWorld) : FederatedEvent → Bool
  | .editSpec _ => false
  | .setFederation _ _ => false
  | .reconcile answers =>
    match w.federation with
    | none => false
    | some federation =>
      match w.pipeline.syncStatus with
      | .pending => false
      | .syncing => 1 ≤ answers.accepted ∧ SyncFaulty w.pipeline federation answers.deploys
      | .synced => 1 ≤ answers.accepted ∧ CheckFaulty w.pipeline federation answers.verifies
      | .outOfSync => 2 ≤ answers.accepted ∧ SyncFaulty w.pipeline federation answers.deploys
      | .failed => 2 ≤ answers.accepted ∧ SyncFaulty w.pipeline federation answers.deploys

theorem asI32_eq_iff (n : ℕ) : asI32 n = n ↔ n < 2 ^ 31 := by
  unfold asI32
  rw [Int.bmod_def]
  split
  next h => omega
  next h => omega

theorem handlePending_honest (p : FederatedPipeline) (federation : XervFederation) :
    ∀ w ∈ handlePending p federation, w.Honest := by
  unfold handlePending
  intro w hw
  split at hw
  · cases hw
  · simp only at hw
    split at hw
    · rw [List.mem_singleton.mp hw]
      exact ⟨fun h => (by cases h), fun h => (by simp at h)⟩
    · rw [List.mem_singleton.mp hw]
      exact ⟨fun h => (by cases h), fun h => (by simp at h)⟩

theorem syncVerdict_synced_iff (statuses : List ClusterPipelineStatus) :
    syncVerdict (computeMetrics statuses) = .synced ↔ ∀ r ∈ statuses, r.synced = true := by
  rw [← computeMetrics_synced_iff]
  unfold syncVerdict
  split
  next h => exact iff_of_true rfl h
  next h =>
    refine iff_of_false ?_ h
    split
    · simp
    · simp

theorem CanaryStops.targets_ne {generation : ℤ} {federation : XervFederation}
    {answers : ℕ → DeployAnswer} {rollout : RolloutConfig} {targets : List String}
    (h : CanaryStops generation federation answers rollout targets) : targets ≠ [] := by
  obtain ⟨-, first, hfirst, -⟩ := h
  rintro rfl
  cases hfirst

theorem handleSyncing_honest_iff (p : FederatedPipeline) (federation : XervFederation)
    (deploys : ℕ → DeployAnswer) :
    (∀ w ∈ handleSyncing p federation deploys, w.Honest) ↔ ¬ SyncFaulty p federation deploys := by
  unfold handleSyncing SyncFaulty
  simp only [List.mem_singleton, forall_eq]
  generalize resolveTargetClusters p.spec federation = targets
  by_cases hstops : CanaryStops p.currentGen federation deploys p.spec.rollout targets
  · -- the write reports on the canary alone
    obtain ⟨r, hr, hsynced⟩ := deployClusters_stopped _ _ _ _ _ hstops
    have hpos := List.length_pos_iff.mpr hstops.targets_ne
    have hone : asI32 1 = ((1 : ℕ) : ℤ) := (asI32_eq_iff 1).mpr (by norm_num)
    rw [hr]
    constructor
    · intro h hfaulty
      have hcount := h.counted (Or.inl rfl)
      dsimp only at hcount
      rw [computeMetrics_total, List.length_singleton, hone, Nat.cast_inj] at hcount
      rcases hfaulty with hnil | hmany | ⟨htwo, -⟩
      · exact hstops.targets_ne hnil
      · omega
      · omega
    · intro hsound
      have hlen : targets.length = 1 := by
        by_contra hne
        exact hsound (Or.inr (Or.inr ⟨by omega, hstops⟩))
      constructor
      · intro hverdict
        have hall := (syncVerdict_synced_iff [r]).mp hverdict r (List.mem_singleton_self r)
        rw [hsynced] at hall
        cases hall
      · intro _
        rw [computeMetrics_total, List.length_singleton, hone, hlen]
  · rw [deployClusters_eq _ _ _ _ _ hstops]
    have hlen := deployAllAtOnce_length p.currentGen federation deploys targets
    have hdeployed := deployAllAtOnce_deployed p.currentGen federation deploys targets
    constructor
    · intro h hfaulty
      have hcount := h.counted (Or.inl rfl)
      dsimp only at hcount
      rw [computeMetrics_total, hlen, asI32_eq_iff] at hcount
      rcases hfaulty with hnil | hmany | ⟨-, hcanary⟩
      · subst hnil
        have hnone : deployAllAtOnce p.currentGen federation deploys [] = [] := rfl
        have hverdict : syncVerdict (computeMetrics
            (deployAllAtOnce p.currentGen federation deploys [])) = .synced := by
          rw [syncVerdict_synced_iff, hnone]
          exact fun r hr => absurd hr List.not_mem_nil
        exact absurd rfl (h.synced hverdict).1
      · omega
      · exact hstops hcanary
    · intro hsound
      have hne : targets ≠ [] := fun hnil => hsound (Or.inl hnil)
      have hfew : targets.length < 2 ^ 31 := by
        by_contra hmany
        exact hsound (Or.inr (Or.inl (not_lt.mp hmany)))
      constructor
      · intro hverdict
        have hall := (syncVerdict_synced_iff _).mp hverdict
        exact ⟨hne, hlen, fun r hr => ⟨(hdeployed r hr).trans (hall r hr), hall r hr⟩⟩
      · intro _
        dsimp only
        rw [computeMetrics_total, hlen, asI32_eq_iff]
        exact hfew

theorem verifyPipelineOnClusters_length (federation : XervFederation) (verifies : ℕ → VerifyAnswer)
    (targets : List String) :
    (verifyPipelineOnClusters federation verifies targets).length = targets.length := by
  rw [verifyPipelineOnClusters, pushStatuses_length, List.length_nil, Nat.zero_add]

theorem outOfSync_pos_iff (statuses : List ClusterPipelineStatus) :
    (computeMetrics statuses).totalClusters - (computeMetrics statuses).syncedClusters > 0 ↔
      ∃ r ∈ statuses, r.synced = false := by
  have hle : (computeMetrics statuses).syncedClusters ≤ (computeMetrics statuses).totalClusters := by
    unfold computeMetrics
    split
    · exact le_refl _
    · exact List.length_filter_le _ _
  have hiff := computeMetrics_synced_iff statuses
  have hall : (∃ r ∈ statuses, r.synced = false) ↔ ¬ ∀ r ∈ statuses, r.synced = true := by
    simp
  rw [hall, ← hiff]
  omega

/-- A write of the check that does not say `Synced` only has to count the targets. -/
theorem alarm_honest_iff (targets : List String) (reports : List ClusterPipelineStatus)
    (status : FederatedPipelineStatus) (h : status.syncStatus ≠ .synced) :
    (StatusWrite.mk .synced targets reports status).Honest ↔ status.targetClusters = targets.length := by
  constructor
  · exact fun hw => hw.counted (Or.inr rfl)
  · exact fun hcount => ⟨fun hsynced => absurd hsynced h, fun _ => hcount⟩

theorem handleSynced_honest_iff (p : FederatedPipeline) (federation : XervFederation)
    (verifies : ℕ → VerifyAnswer) :
    (∀ w ∈ handleSynced p federation verifies, w.Honest) ↔ ¬ CheckFaulty p federation verifies := by
  have hlen := verifyPipelineOnClusters_length federation verifies
    (resolveTargetClusters p.spec federation)
  have halarm (hit : CheckAlarmed p federation verifies) : ¬ CheckFaulty p federation verifies ↔
      (p.status.getD .initial).targetClusters =
        (resolveTargetClusters p.spec federation).length := by
    unfold CheckFaulty
    constructor
    · intro hsound
      by_contra hne
      exact hsound (Or.inl ⟨hit, hne⟩)
    · rintro hcount (⟨-, hne⟩ | ⟨hquiet, -⟩)
      · exact hne hcount
      · exact hquiet hit
  unfold handleSynced
  dsimp only
  by_cases hgen : p.currentGen ≠ (p.status.getD .initial).observedGeneration
  · rw [if_pos hgen, halarm (Or.inl hgen), List.forall_mem_singleton]
    exact alarm_honest_iff _ _ _ (by simp)
  rw [if_neg hgen]
  by_cases hout : ∃ r ∈ verifyPipelineOnClusters federation verifies
      (resolveTargetClusters p.spec federation), r.synced = false
  · rw [if_pos ((outOfSync_pos_iff _).mpr hout), halarm (Or.inr hout), List.forall_mem_singleton]
    exact alarm_honest_iff _ _ _ (by simp)
  rw [if_neg (fun h => hout ((outOfSync_pos_iff _).mp h)), List.forall_mem_singleton]
  have hquiet : ¬ CheckAlarmed p federation verifies := by
    rintro (h | h)
    · exact hgen h
    · exact hout h
  constructor
  · rintro h (⟨hit, -⟩ | ⟨-, hnil | hmany | ⟨r, hr, hmissing⟩⟩)
    · exact hquiet hit
    · exact (h.synced rfl).1 hnil
    · have hcount := h.counted (Or.inr rfl)
      dsimp only at hcount
      rw [computeMetrics_total, hlen, asI32_eq_iff] at hcount
      exact absurd hcount (not_lt.mpr hmany)
    · have hdeployed := ((h.synced rfl).2.2 r hr).1
      rw [hmissing] at hdeployed
      cases hdeployed
  · intro hsound
    constructor
    · intro _
      refine ⟨fun hnil => hsound (Or.inr ⟨hquiet, Or.inl hnil⟩), hlen, fun r hr => ⟨?_, ?_⟩⟩
      · by_contra hmissing
        exact hsound (Or.inr ⟨hquiet, Or.inr (Or.inr ⟨r, hr, Bool.eq_false_iff.mpr hmissing⟩)⟩)
      · by_contra hmissing
        exact hout ⟨r, hr, Bool.eq_false_iff.mpr hmissing⟩
    · intro _
      dsimp only
      rw [computeMetrics_total, hlen, asI32_eq_iff]
      by_contra hmany
      exact hsound (Or.inr ⟨hquiet, Or.inr (Or.inl (not_lt.mp hmany))⟩)

theorem handleSynced_length (p : FederatedPipeline) (federation : XervFederation)
    (verifies : ℕ → VerifyAnswer) : (handleSynced p federation verifies).length = 1 := by
  unfold handleSynced
  dsimp only
  split
  · rfl
  · split
    · rfl
    · rfl

/-! ### Steps and runs -/

theorem resync_honest (p : FederatedPipeline) (federation : XervFederation) (handler : SyncHandler)
    (hhandler : handler ≠ .syncing ∧ handler ≠ .synced) :
    (StatusWrite.mk handler (resolveTargetClusters p.spec federation) []
      { p.status.getD .initial with syncStatus := .syncing }).Honest := by
  constructor
  · intro h
    cases h
  · rintro (h | h)
    · exact absurd h hhandler.1
    · exact absurd h hhandler.2

theorem resync_honest_iff (p : FederatedPipeline) (federation : XervFederation) (handler : SyncHandler)
    (hhandler : handler ≠ .syncing ∧ handler ≠ .synced) (deploys : ℕ → DeployAnswer) (n : ℕ) :
    (∀ w ∈ (resync p federation handler deploys).take n, w.Honest) ↔
      ¬ (2 ≤ n ∧ SyncFaulty p federation deploys) := by
  rw [not_and, ← handleSyncing_honest_iff]
  have hfirst := resync_honest p federation handler hhandler
  rcases n with _ | _ | n
  · simp
  · simp [resync, hfirst]
  · simp [resync, hfirst, handleSyncing]

theorem take_honest_iff (writes : List StatusWrite) (hlen : writes.length = 1) (n : ℕ) (faulty : Prop)
    (h : (∀ w ∈ writes, w.Honest) ↔ ¬ faulty) :
    (∀ w ∈ writes.take n, w.Honest) ↔ ¬ (1 ≤ n ∧ faulty) := by
  rw [not_and, ← h]
  cases n with
  | zero => simp
  | succ n =>
    rw [List.take_of_length_le (by omega)]
    simp

namespace FederatedWorld

theorem foldl_write_writes (w : FederatedWorld) (changes : List StatusWrite) :
    (changes.foldl write w).writes = w.writes ++ changes := by
  induction changes generalizing w with
  | nil => exact (List.append_nil _).symm
  | cons change changes ih =>
    rw [List.foldl_cons, ih, write, List.append_assoc, List.singleton_append]

theorem reconcile_honest_iff (w : FederatedWorld) (answers : ReconcileAnswers) :
    (∀ change ∈ (reconcileFederated w.pipeline w.federation answers).take answers.accepted,
        change.Honest) ↔ w.faulty (.reconcile answers) = false := by
  unfold reconcileFederated faulty
  cases w.federation with
  | none =>
    refine iff_of_true (fun change hchange => ?_) rfl
    rw [List.mem_singleton.mp (List.mem_of_mem_take hchange)]
    exact ⟨fun h => (by cases h), fun h => (by simp at h)⟩
  | some federation =>
    cases w.pipeline.syncStatus with
    | pending =>
      refine iff_of_true (fun change hchange => ?_) rfl
      exact handlePending_honest _ _ change (List.mem_of_mem_take hchange)
    | syncing =>
      rw [decide_eq_false_iff_not]
      exact take_honest_iff _ rfl _ _ (handleSyncing_honest_iff _ _ _)
    | synced =>
      rw [decide_eq_false_iff_not]
      exact take_honest_iff _ (handleSynced_length _ _ _) _ _ (handleSynced_honest_iff _ _ _)
    | outOfSync =>
      rw [decide_eq_false_iff_not]
      exact resync_honest_iff _ _ _ (by decide) _ _
    | failed =>
      rw [decide_eq_false_iff_not]
      exact resync_honest_iff _ _ _ (by decide) _ _

/-- From the creation of a pipeline on, whatever is edited and whatever the clusters answer: every status
write of the run is honest if and only if no step of it is faulty. -/
theorem writes_honest_iff (spec : FederatedPipelineSpec)
    (federations : String → Option XervFederation) (events : List FederatedEvent) :
    (∀ change ∈ (events.foldl next (created spec federations)).writes, change.Honest) ↔
      ∀ before event, before ++ [event] <+: events →
        (before.foldl next (created spec federations)).faulty event = false := by
  refine Machine.foldl_lasting_iff next faulty (fun _ => True)
    (fun w => ∀ change ∈ w.writes, change.Honest) (fun _ _ _ => trivial) (fun w event _ => ?_) events
    trivial (fun change hchange => by cases hchange)
  have hedit (w' : FederatedWorld) (hwrites : w'.writes = w.writes) :
      (∀ change ∈ w'.writes, change.Honest) ↔ (∀ change ∈ w.writes, change.Honest) ∧ false = false := by
    rw [hwrites]
    simp
  cases event with
  | editSpec spec =>
    refine hedit _ ?_
    by_cases hsame : spec = w.pipeline.spec
    · simp [next, hsame]
    · simp [next, hsame]
  | setFederation name federation => exact hedit _ rfl
  | reconcile answers =>
    rw [next, foldl_write_writes, List.forall_mem_append, reconcile_honest_iff]

end FederatedWorld

/-! ### A pipeline without clusters that is synced -/

def oneCluster (enabled : Bool) : XervFederation := ⟨"global", [⟨"us-east", none, enabled, []⟩]⟩

def oneClusterSpec : FederatedPipelineSpec :=
  ⟨"global", ⟨false, ["us-east"], []⟩, "pipeline", [], ⟨.allAtOnce, 1⟩⟩

def allAnswer : ReconcileAnswers where
  deploys _ := ⟨none, none, none, "now"⟩
  verifies _ := .ok ⟨"us-east", true, true, 1, "Running", 0, none, none⟩
  accepted := 2

/-- The only cluster is disabled between the first reconcile and the second. -/
theorem synced_without_targets :
    ¬ ∀ change ∈ ([.reconcile allAnswer, .setFederation "global" (some (oneCluster false)),
        .reconcile allAnswer].foldl FederatedWorld.next
          (.created oneClusterSpec fun _ => some (oneCluster true))).writes, change.Honest := by
  intro h
  have hlast := h ⟨.syncing, [], [], ⟨.synced, 0, 0, [], 1⟩⟩ (by decide)
  exact (hlast.synced rfl).1 rfl

end Xerv.Operator
