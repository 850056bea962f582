import Mathlib.Data.List.Infix
import Mathlib.Algebra.Order.Group.Nat

/-!
# Placement and rollout of a federated pipeline (`controller/federated_pipeline.rs`)

The clusters that a spec selects in a federation, the deployments of a rollout and the check of
deployed clusters. What the requests to the clusters answer is the environment of a rollout: one
answer for each request, in the order in which they are made.
-/

namespace Xerv.Operator

/-- A `BTreeMap` of labels, as the list of its entries. -/
abbrev Labels := List (String × String)

structure FederationMember where
  name : String
  credentialsSecret : Option String
  enabled : Bool
  labels : Labels
  deriving DecidableEq

structure XervFederation where
  name : String
  clusters : List FederationMember
  deriving DecidableEq

structure PlacementConfig where
  all : Bool
  clusters : List String
  clusterSelector : Labels
  deriving DecidableEq

structure ClusterOverride where
  cluster : String
  disabled : Bool
  deriving DecidableEq

inductive RolloutStrategy where
  | allAtOnce | rolling | canary
  deriving DecidableEq, Repr

structure RolloutConfig where
  strategy : RolloutStrategy
  maxSurge : ℤ
  deriving DecidableEq

/-- The parts of the spec that the controller reads; `pipeline` is the definition it sends. -/
structure FederatedPipelineSpec where
  federation : String
  placement : PlacementConfig
  pipeline : String
  overrides : List ClusterOverride
  rollout : RolloutConfig
  deriving DecidableEq

structure ClusterPipelineStatus where
  cluster : String
  deployed : Bool
  synced : Bool
  generation : ℤ
  status : String
  activeTraces : ℤ
  lastDeployed : Option String
  error : Option String
  deriving DecidableEq

/-! ### Placement -/

def FederatedPipelineSpec.disabledByOverride (spec : FederatedPipelineSpec) (name : String) : Bool :=
  spec.overrides.any fun o => o.cluster == name && o.disabled

def resolveTargetClusters (spec : FederatedPipelineSpec) (federation : XervFederation) : List String :=
  if spec.placement.all then
    ((federation.clusters.filter fun c => c.enabled).filter fun c =>
      !spec.disabledByOverride c.name).map FederationMember.name
  else if spec.placement.clusters ≠ [] then
    (spec.placement.clusters.filter fun name =>
      federation.clusters.any fun c => c.name == name && c.enabled).filter fun name =>
        !spec.disabledByOverride name
  else if spec.placement.clusterSelector ≠ [] then
    (((federation.clusters.filter fun c => c.enabled).filter fun c =>
      spec.placement.clusterSelector.all fun label => c.labels.lookup label.1 == some label.2).filter
        fun c => !spec.disabledByOverride c.name).map FederationMember.name
  else (federation.clusters.filter fun c => c.enabled).map FederationMember.name

def validateSpec (spec : FederatedPipelineSpec) (federation : XervFederation) : Except String Unit :=
  let names := federation.clusters.map FederationMember.name
  match if spec.placement.all then none else spec.placement.clusters.find? fun c => c ∉ names with
  | some cluster => .error ("Placement cluster '" ++ cluster ++ "' not found in federation")
  | none =>
    match spec.overrides.find? fun o => o.cluster ∉ names with
    | some o => .error ("Override cluster '" ++ o.cluster ++ "' not found in federation")
    | none => .ok ()

def findClusterOrError (clusterName : String) (federation : XervFederation) :
    Except ClusterPipelineStatus FederationMember :=
  match federation.clusters.find? fun c => c.name == clusterName with
  | some member => .ok member
  | none =>
    .error ⟨clusterName, false, false, 0, "NotFound", 0, none,
      some ("Cluster '" ++ clusterName ++ "' not found in federation '" ++ federation.name ++ "'")⟩

/-! ### Requests to the clusters -/

/-- What a deployment meets: the errors of resolving the credentials, of serializing the definition and
of the request itself, and the time it ends. -/
structure DeployAnswer where
  credentials : Option String
  payload : Option String
  http : Option String
  now : String

def deployFailed (clusterName error : String) : ClusterPipelineStatus :=
  ⟨clusterName, false, false, 0, "Failed", 0, none, some error⟩

def deployToCluster (generation : ℤ) (federation : XervFederation) (answer : DeployAnswer)
    (clusterName : String) : ClusterPipelineStatus :=
  match findClusterOrError clusterName federation with
  | .error status => { status with status := "Failed" }
  | .ok member =>
    match if member.credentialsSecret.isSome then answer.credentials else none with
    | some e => deployFailed clusterName ("Failed to resolve credentials: " ++ e)
    | none =>
      match answer.payload with
      | some e => deployFailed clusterName ("Failed to serialize pipeline: " ++ e)
      | none =>
        match answer.http with
        | some e => deployFailed clusterName e
        | none => ⟨clusterName, true, true, generation, "Running", 0, some answer.now, none⟩

/-- The remote status endpoint answers with a status of its own, or the request fails. -/
abbrev VerifyAnswer := Except String ClusterPipelineStatus

def verifyPipelineOnCluster (federation : XervFederation) (answer : VerifyAnswer)
    (clusterName : String) : ClusterPipelineStatus :=
  match findClusterOrError clusterName federation with
  | .error status => status
  | .ok _ =>
    match answer with
    | .ok status => status
    | .error e => ⟨clusterName, false, false, 0, "Unknown", 0, none, some e⟩

/-- The loop body `statuses.push(...)`; the answers are counted by the statuses so far. -/
def pushStatuses (ask : ℕ → String → ClusterPipelineStatus) (statuses : List ClusterPipelineStatus)
    (clusters : List String) : List ClusterPipelineStatus :=
  clusters.foldl (fun statuses name => statuses ++ [ask statuses.length name]) statuses

section Rollout
variable (generation : ℤ) (federation : XervFederation) (answers : ℕ → DeployAnswer)

def deployAllAtOnce (targets : List String) : List ClusterPipelineStatus :=
  pushStatuses (fun k => deployToCluster generation federation (answers k)) [] targets

def deployRolling (rollout : RolloutConfig) (targets : List String) : List ClusterPipelineStatus :=
  (targets.toChunks (max rollout.maxSurge 1).toNat).foldl
    (pushStatuses fun k => deployToCluster generation federation (answers k)) []

def deployCanary (targets : List String) : List ClusterPipelineStatus :=
  match targets with
  | [] => []
  | first :: rest =>
    let status := deployToCluster generation federation (answers 0) first
    if status.synced then
      pushStatuses (fun k => deployToCluster generation federation (answers k)) [status] rest
    else [status]

def deployClusters (rollout : RolloutConfig) (targets : List String) : List ClusterPipelineStatus :=
  match rollout.strategy with
  | .allAtOnce => deployAllAtOnce generation federation answers targets
  | .rolling => deployRolling generation federation answers rollout targets
  | .canary => deployCanary generation federation answers targets

end Rollout

def verifyPipelineOnClusters (federation : XervFederation) (answers : ℕ → VerifyAnswer)
    (targets : List String) : List ClusterPipelineStatus :=
  pushStatuses (fun k => verifyPipelineOnCluster federation (answers k)) [] targets

/-- The counts of `AggregateMetrics`. -/
structure AggregateMetrics where
  totalClusters : ℕ
  deployedClusters : ℕ
  syncedClusters : ℕ
  failedClusters : ℕ

def computeMetrics (statuses : List ClusterPipelineStatus) : AggregateMetrics :=
  if statuses.length = 0 then ⟨0, 0, 0, 0⟩
  else
    ⟨statuses.length, (statuses.filter ClusterPipelineStatus.deployed).length,
      (statuses.filter ClusterPipelineStatus.synced).length,
      (statuses.filter fun s => s.error.isSome).length⟩

/-! ### What a rollout reports -/

theorem toChunks_go_flatten {α : Type} (n : ℕ) (xs : List α) (acc : Array α) (done : Array (List α)) :
    (List.toChunks.go n xs acc done).flatten = done.toList.flatten ++ (acc.toList ++ xs) := by
  induction xs generalizing acc done with
  | nil => simp [List.toChunks.go]
  | cons x xs ih =>
    rw [List.toChunks.go]
    split
    · rw [ih]
      simp
    · rw [ih]
      simp

theorem toChunks_flatten {α : Type} (n : ℕ) (xs : List α) : (xs.toChunks n).flatten = xs := by
  cases xs with
  | nil => simp [List.toChunks]
  | cons x xs =>
    cases n with
    | zero => simp [List.toChunks]
    | succ n =>
      rw [List.toChunks, toChunks_go_flatten]
      · simp
      · simp

section Push
variable (ask : ℕ → String → ClusterPipelineStatus)

@[simp] theorem pushStatuses_nil (statuses : List ClusterPipelineStatus) :
    pushStatuses ask statuses [] = statuses := rfl

theorem pushStatuses_cons (statuses : List ClusterPipelineStatus) (name : String) (rest : List String) :
    pushStatuses ask statuses (name :: rest) =
      pushStatuses ask (statuses ++ [ask statuses.length name]) rest := rfl

theorem pushStatuses_length (statuses : List ClusterPipelineStatus) (clusters : List String) :
    (pushStatuses ask statuses clusters).length = statuses.length + clusters.length := by
  induction clusters generalizing statuses with
  | nil => rfl
  | cons name rest ih =>
    rw [pushStatuses_cons, ih]
    simp only [List.length_append, List.length_cons, List.length_nil]
    omega

theorem pushStatuses_chunks (statuses : List ClusterPipelineStatus) (chunks : List (List String)) :
    chunks.foldl (pushStatuses ask) statuses = pushStatuses ask statuses chunks.flatten := by
  unfold pushStatuses
  rw [List.foldl_flatten]

theorem pushStatuses_all (P : ClusterPipelineStatus → Prop) (statuses : List ClusterPipelineStatus)
    (clusters : List String) (hold : ∀ r ∈ statuses, P r) (hask : ∀ k name, P (ask k name)) :
    ∀ r ∈ pushStatuses ask statuses clusters, P r := by
  induction clusters generalizing statuses with
  | nil => exact hold
  | cons name rest ih =>
    rw [pushStatuses_cons]
    refine ih _ fun r hr => ?_
    rcases List.mem_append.mp hr with hr | hr
    · exact hold r hr
    · rw [List.mem_singleton.mp hr]
      exact hask _ _

end Push

theorem deployToCluster_deployed (generation : ℤ) (federation : XervFederation) (answer : DeployAnswer)
    (name : String) :
    (deployToCluster generation federation answer name).deployed =
      (deployToCluster generation federation answer name).synced := by
  unfold deployToCluster
  cases hfind : findClusterOrError name federation with
  | error status =>
    unfold findClusterOrError at hfind
    split at hfind
    · cases hfind
    · cases hfind
      rfl
  | ok member =>
    simp only
    split
    · rfl
    · split
      · rfl
      · split
        · rfl
        · rfl

section Rollout
variable (generation : ℤ) (federation : XervFederation) (answers : ℕ → DeployAnswer)

theorem deployRolling_eq (rollout : RolloutConfig) (targets : List String) :
    deployRolling generation federation answers rollout targets =
      deployAllAtOnce generation federation answers targets := by
  rw [deployRolling, pushStatuses_chunks, toChunks_flatten]
  rfl

/-- The canary of a rollout to these targets is not deployed, so that the others are left alone. -/
def CanaryStops (rollout : RolloutConfig) (targets : List String) : Prop :=
  rollout.strategy = .canary ∧ ∃ first ∈ targets.head?,
    (deployToCluster generation federation (answers 0) first).synced = false

instance (rollout : RolloutConfig) (targets : List String) :
    Decidable (CanaryStops generation federation answers rollout targets) :=
  inferInstanceAs (Decidable (_ ∧ _))

theorem deployCanary_cons (first : String) (rest : List String) :
    deployCanary generation federation answers (first :: rest) =
      if (deployToCluster generation federation (answers 0) first).synced then
        deployAllAtOnce generation federation answers (first :: rest)
      else [deployToCluster generation federation (answers 0) first] := rfl

theorem deployClusters_stopped (rollout : RolloutConfig) (targets : List String)
    (h : CanaryStops generation federation answers rollout targets) :
    ∃ r, deployClusters generation federation answers rollout targets = [r] ∧ r.synced = false := by
  obtain ⟨hstrategy, first, hfirst, hsynced⟩ := h
  cases targets with
  | nil => cases hfirst
  | cons name rest =>
    cases hfirst
    refine ⟨deployToCluster generation federation (answers 0) first, ?_, hsynced⟩
    unfold deployClusters
    rw [hstrategy]
    change deployCanary _ _ _ _ = _
    rw [deployCanary_cons, hsynced]
    rfl

theorem deployClusters_eq (rollout : RolloutConfig) (targets : List String)
    (h : ¬ CanaryStops generation federation answers rollout targets) :
    deployClusters generation federation answers rollout targets =
      deployAllAtOnce generation federation answers targets := by
  unfold deployClusters
  cases hstrategy : rollout.strategy with
  | allAtOnce => rfl
  | rolling => exact deployRolling_eq generation federation answers rollout targets
  | canary =>
    cases targets with
    | nil => rfl
    | cons first rest =>
      have hsynced : (deployToCluster generation federation (answers 0) first).synced = true := by
        rw [← Bool.not_eq_false]
        exact fun hfalse => h ⟨hstrategy, first, rfl, hfalse⟩
      change deployCanary _ _ _ _ = _
      rw [deployCanary_cons, hsynced]
      rfl

theorem deployAllAtOnce_length (targets : List String) :
    (deployAllAtOnce generation federation answers targets).length = targets.length := by
  rw [deployAllAtOnce, pushStatuses_length, List.length_nil, Nat.zero_add]

theorem deployAllAtOnce_deployed (targets : List String) :
    ∀ r ∈ deployAllAtOnce generation federation answers targets, r.deployed = r.synced := by
  refine pushStatuses_all _ _ [] targets (fun r hr => ?_) fun k name => ?_
  · cases hr
  · exact deployToCluster_deployed generation federation (answers k) name

end Rollout

theorem computeMetrics_total (statuses : List ClusterPipelineStatus) :
    (computeMetrics statuses).totalClusters = statuses.length := by
  unfold computeMetrics
  split
  next h => rw [h]
  next => rfl

theorem computeMetrics_synced_iff (statuses : List ClusterPipelineStatus) :
    (computeMetrics statuses).syncedClusters = (computeMetrics statuses).totalClusters ↔
      ∀ r ∈ statuses, r.synced = true := by
  unfold computeMetrics
  split
  next h =>
    rw [List.length_eq_zero_iff.mp h]
    exact iff_of_true rfl (by simp)
  next => exact List.length_filter_eq_length_iff

end Xerv.Operator
