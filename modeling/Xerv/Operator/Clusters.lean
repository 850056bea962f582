import Xerv.Lib.Fallible
import Xerv.Operator.Pipeline

/-!
# The cluster controller (`xerv-operator/src/controller/cluster.rs`)

One `XervCluster`, its status, and the objects that the controller makes for it. The module `resources` that
builds these is not part of the repository and is a parameter, and so is the part of the spec that only it reads.
A reconcile reads the cluster once, at its start, and stops at the first call that fails; a call may also take
effect although its answer is lost. Timestamps and conditions are left out.
-/

namespace Xerv.Operator
open Xerv.Lib

inductive ClusterPhase where
  | pending | initializing | running | updating | degraded | failed | terminating
  deriving DecidableEq, Repr

structure DispatchSpec where
  backend : String
  redis : Option String
  nats : Option String
  deriving DecidableEq

structure XervClusterSpec (T : Type) where
  replicas : ℤ
  dispatch : DispatchSpec
  apiPort : ℤ
  others : T
  deriving DecidableEq

structure XervClusterStatus where
  phase : ClusterPhase
  readyReplicas : ℤ
  availableReplicas : ℤ
  endpoint : Option String
  message : Option String
  observedGeneration : Option ℕ
  retryCount : Option ℤ
  deriving DecidableEq

namespace XervClusterStatus

/-- `XervClusterStatus::default()` -/
def initial : XervClusterStatus := ⟨.pending, 0, 0, none, none, none, none⟩

/-- The merge patch of `update_status`: an absent field is not serialized, and the old one stays. -/
def merge (old : Option XervClusterStatus) (new : XervClusterStatus) : XervClusterStatus :=
  { new with
    endpoint := new.endpoint.or (old.bind endpoint)
    message := new.message.or (old.bind message)
    observedGeneration := new.observedGeneration.or (old.bind observedGeneration)
    retryCount := new.retryCount.or (old.bind retryCount) }

end XervClusterStatus

inductive ReconcileAction where
  | requeueShort | requeueMedium | requeueLong | done
  deriving DecidableEq, Repr

inductive ClusterError where
  | validation (message : String)
  | kube
  deriving DecidableEq

/-- `resources::build_*`, what they make of a spec. -/
structure ResourceBuilders (T R : Type) where
  configMap : XervClusterSpec T → R
  headlessService : XervClusterSpec T → R
  apiService : XervClusterSpec T → R
  statefulSet : XervClusterSpec T → R
  deployment : XervClusterSpec T → R

structure Pod where
  name : String
  -- the condition `Ready` is `True`
  ready : Bool
  deriving DecidableEq

/-- What a reconcile meets, call by call. -/
structure ClusterEnv where
  configMap : CallOutcome
  headlessService : CallOutcome
  apiService : CallOutcome
  workload : CallOutcome
  -- ready and available replicas of the workload if it is there, no value for an error
  replicas : Option (ℤ × ℤ)
  pods : Option (List Pod)
  podsAgain : Option (List Pod)
  deletePod : String → Bool
  deleteWorkload : CallOutcome
  deleteService : String → CallOutcome
  deleteConfigMap : CallOutcome
  write : CallOutcome

/-- The specs before the current one, the status, and the objects in the namespace of the cluster. -/
structure ClusterWorld (T R : Type) where
  name : String
  nameSpace : String
  older : List (XervClusterSpec T)
  spec : XervClusterSpec T
  status : Option XervClusterStatus
  configMap : Option R
  headlessService : Option R
  apiService : Option R
  statefulSet : Option R
  deployment : Option R
  deletedPods : List String

namespace ClusterWorld
variable {T R : Type} (w : ClusterWorld T R)

def created (name nameSpace : String) (spec : XervClusterSpec T) : ClusterWorld T R :=
  ⟨name, nameSpace, [], spec, none, none, none, none, none, none, []⟩

/-- `metadata.generation`, from 1 on. -/
def generation : ℕ := w.older.length + 1

def phase : ClusterPhase := (w.status.map (·.phase)).getD .pending

def observedGeneration : Option ℕ := w.status.bind (·.observedGeneration)

/-- `retry_count` of the status, `unwrap_or(0)`. -/
def retryCount : ℤ := (w.status.bind (·.retryCount)).getD 0

def isRaft : Bool := w.spec.dispatch.backend = "raft"

/-- The stateful set or the deployment, by the backend. -/
def workload : Option R := if w.isRaft then w.statefulSet else w.deployment

/-- `cluster.status.clone().unwrap_or_default()` -/
def statusCopy : XervClusterStatus := w.status.getD .initial

end ClusterWorld

abbrev ClusterM (T R : Type) := EStateM ClusterError (ClusterWorld T R)

section Calls
variable {T R : Type} (build : ResourceBuilders T R) (cluster : ClusterWorld T R) (env : ClusterEnv)

/-- A call of the Kubernetes API with `?` behind it. -/
def apiCall (outcome : CallOutcome) (effect : ClusterWorld T R → ClusterWorld T R) : ClusterM T R Unit := fun w =>
  let w' := if outcome.applied then effect w else w
  if outcome.returned then .ok () w' else .error .kube w'

/-- A call whose error is logged at most. -/
def apiCallIgnored (outcome : CallOutcome) (effect : ClusterWorld T R → ClusterWorld T R) : ClusterM T R Unit :=
  modify fun w => if outcome.applied then effect w else w

/-- `get` on something the environment knows. -/
def apiRead {α : Type} (answer : Option α) : ClusterM T R α :=
  match answer with
  | some a => pure a
  | none => throw .kube

def updateClusterStatus (status : XervClusterStatus) : ClusterM T R Unit :=
  apiCall env.write fun w => { w with status := some (.merge w.status status) }

def ensureConfigMap : ClusterM T R Unit :=
  apiCall env.configMap fun w => { w with configMap := some (build.configMap cluster.spec) }

/-- A service that exists stays as it is. -/
def ensureHeadlessService : ClusterM T R Unit :=
  apiCall env.headlessService fun w =>
    { w with headlessService := w.headlessService.or (some (build.headlessService cluster.spec)) }

def ensureApiService : ClusterM T R Unit :=
  apiCall env.apiService fun w => { w with apiService := w.apiService.or (some (build.apiService cluster.spec)) }

def ensureStatefulSet : ClusterM T R Unit :=
  apiCall env.workload fun w => { w with statefulSet := some (build.statefulSet cluster.spec) }

def ensureDeployment : ClusterM T R Unit :=
  apiCall env.workload fun w => { w with deployment := some (build.deployment cluster.spec) }

def ensureWorkload : ClusterM T R Unit :=
  if cluster.isRaft then ensureStatefulSet build cluster env else ensureDeployment build cluster env

/-- `get_statefulset_status` and `get_deployment_status`: a workload that is not found has no replicas. -/
def getWorkloadStatus : ClusterM T R (ℤ × ℤ) := do
  let answer ← apiRead env.replicas
  let w ← get
  return if (if cluster.isRaft then w.statefulSet else w.deployment).isSome then answer else (0, 0)

/-- `check_pod_health` -/
def checkPodHealth : ClusterM T R (ℤ × ℤ) := do
  let pods ← apiRead env.pods
  return ((pods.countP (·.ready) : ℤ), (pods.countP (!·.ready) : ℤ))

/-- The loop of `handle_degraded` over the pods, until one of them has been deleted. -/
def deleteUnhealthy (deletePod : String → Bool) : List Pod → List String
  | [] => []
  | pod :: pods =>
    if pod.ready then deleteUnhealthy deletePod pods
    else if deletePod pod.name then [pod.name]
    else deleteUnhealthy deletePod pods

def clusterEndpoint : String :=
  "http://" ++ cluster.name ++ "." ++ cluster.nameSpace ++ ".svc.cluster.local:" ++ toString cluster.spec.apiPort

end Calls

/-! ### Handlers -/

/-- `validate_spec` -/
def XervClusterSpec.validate {T : Type} (spec : XervClusterSpec T) : Except String Unit := do
  if spec.replicas < 1 then throw "Replicas must be at least 1"
  if spec.dispatch.backend ∉ ["raft", "redis", "nats", "memory"] then
    throw ("Unknown dispatch backend: " ++ spec.dispatch.backend)
  if spec.dispatch.backend = "redis" ∧ spec.dispatch.redis.isNone then
    throw "Redis backend requires redis configuration"
  if spec.dispatch.backend = "nats" ∧ spec.dispatch.nats.isNone then
    throw "NATS backend requires nats configuration"

section Handlers
variable {T R : Type} (build : ResourceBuilders T R) (cluster : ClusterWorld T R) (env : ClusterEnv)

def handleClusterPending : ClusterM T R ReconcileAction := do
  match cluster.spec.validate with
  | .error message => throw (.validation message)
  | .ok () =>
    updateClusterStatus env { XervClusterStatus.initial with
      phase := .initializing
      message := some "Creating cluster resources"
      observedGeneration := some cluster.generation }
    ensureConfigMap build cluster env
    ensureHeadlessService build cluster env
    ensureApiService build cluster env
    ensureWorkload build cluster env
    return .requeueShort

def handleClusterInitializing : ClusterM T R ReconcileAction := do
  let (ready, available) ← getWorkloadStatus cluster env
  if cluster.spec.replicas ≤ ready then
    updateClusterStatus env { XervClusterStatus.initial with
      phase := .running
      readyReplicas := ready
      availableReplicas := available
      endpoint := some (clusterEndpoint cluster)
      message := some "Cluster is running"
      observedGeneration := some cluster.generation }
    return .requeueLong
  else return .requeueShort

/-- The part of `handle_running` for a spec that has changed. -/
def applyClusterChanges : ClusterM T R ReconcileAction := do
  updateClusterStatus env { cluster.statusCopy with
    phase := .updating, message := some "Applying configuration changes" }
  ensureConfigMap build cluster env
  ensureWorkload build cluster env
  return .requeueShort

def handleClusterRunning : ClusterM T R ReconcileAction := do
  if cluster.observedGeneration ≠ some cluster.generation then applyClusterChanges build cluster env
  else
    let (healthy, unhealthy) ← checkPodHealth env
    if healthy < unhealthy then
      updateClusterStatus env { cluster.statusCopy with
        phase := .degraded
        readyReplicas := healthy
        availableReplicas := healthy
        message := some (toString unhealthy ++ "/" ++ toString (healthy + unhealthy) ++ " pods unhealthy") }
      return .requeueShort
    else
      let (ready, available) ← getWorkloadStatus cluster env
      updateClusterStatus env { cluster.statusCopy with
        readyReplicas := ready
        availableReplicas := available
        observedGeneration := some cluster.generation }
      return .requeueLong

def handleClusterUpdating : ClusterM T R ReconcileAction := do
  let (ready, _) ← getWorkloadStatus cluster env
  if cluster.spec.replicas ≤ ready then
    updateClusterStatus env { cluster.statusCopy with
      phase := .running
      readyReplicas := ready
      availableReplicas := ready
      message := some "Update complete"
      observedGeneration := some cluster.generation }
    return .requeueLong
  else
    updateClusterStatus env { cluster.statusCopy with
      readyReplicas := ready
      message := some ("Updating: " ++ toString ready ++ "/" ++ toString cluster.spec.replicas ++ " pods ready") }
    return .requeueShort

def handleClusterDegraded : ClusterM T R ReconcileAction := do
  let (healthy, unhealthy) ← checkPodHealth env
  if unhealthy = 0 then
    updateClusterStatus env { cluster.statusCopy with
      phase := .running
      readyReplicas := healthy
      availableReplicas := healthy
      message := some "Recovered from degraded state" }
    return .requeueLong
  else
    let pods ← apiRead env.podsAgain
    modify fun w => { w with deletedPods := w.deletedPods ++ deleteUnhealthy env.deletePod pods }
    if healthy = 0 ∧ 0 < unhealthy then
      updateClusterStatus env { cluster.statusCopy with
        phase := .failed, message := some "All pods are unhealthy" }
      return .requeueMedium
    else
      updateClusterStatus env { cluster.statusCopy with
        readyReplicas := healthy
        availableReplicas := healthy
        message := some ("Degraded: " ++ toString healthy ++ "/" ++ toString (healthy + unhealthy) ++
          " pods healthy, attempting recovery") }
      return .requeueShort

/-- What `handle_failed` deletes before it creates the workload again. -/
def removeWorkload (w : ClusterWorld T R) : ClusterWorld T R :=
  if cluster.isRaft then { w with statefulSet := none } else { w with deployment := none }

def handleClusterFailed : ClusterM T R ReconcileAction := do
  if 5 ≤ cluster.retryCount then
    updateClusterStatus env { cluster.statusCopy with
      message := some "Max retries reached, manual intervention required" }
    return .requeueLong
  else
    apiCallIgnored env.deleteWorkload (removeWorkload cluster)
    ensureWorkload build cluster env
    updateClusterStatus env { XervClusterStatus.initial with
      phase := .initializing
      retryCount := some (cluster.retryCount + 1)
      message := some ("Recovery attempt " ++ toString (cluster.retryCount + 1)) }
    return .requeueShort

def handleClusterTerminating : ClusterM T R ReconcileAction := do
  apiCallIgnored env.deleteWorkload (removeWorkload cluster)
  apiCallIgnored (env.deleteService cluster.name) fun w => { w with apiService := none }
  apiCallIgnored (env.deleteService (cluster.name ++ "-headless")) fun w => { w with headlessService := none }
  apiCallIgnored env.deleteConfigMap fun w => { w with configMap := none }
  return .done

/-- `reconcile`, which reads the cluster as it is at its start. -/
def reconcileCluster : ClusterM T R ReconcileAction :=
  match cluster.phase with
  | .pending => handleClusterPending build cluster env
  | .initializing => handleClusterInitializing cluster env
  | .running => handleClusterRunning build cluster env
  | .updating => handleClusterUpdating cluster env
  | .degraded => handleClusterDegraded cluster env
  | .failed => handleClusterFailed build cluster env
  | .terminating => handleClusterTerminating cluster env

end Handlers

/-- A change of the spec by its owner, or a reconcile. -/
inductive ClusterEvent (T : Type) where
  | edit (spec : XervClusterSpec T)
  | reconcile (env : ClusterEnv)

section Runs
variable {T R : Type} (build : ResourceBuilders T R)

def ClusterWorld.next (w : ClusterWorld T R) : ClusterEvent T → ClusterWorld T R
  | .edit spec => { w with older := w.older ++ [w.spec], spec }
  | .reconcile env =>
    match reconcileCluster build w env w with
    | .ok _ w' => w'
    | .error _ w' => w'

def ClusterWorld.after (w : ClusterWorld T R) (events : List (ClusterEvent T)) : ClusterWorld T R :=
  events.foldl (ClusterWorld.next build) w

end Runs

/-! ### What a reconcile can write -/

section Writes
variable {T R : Type}

theorem statusCopy_phase (w : ClusterWorld T R) : w.statusCopy.phase = w.phase := by
  unfold ClusterWorld.statusCopy ClusterWorld.phase
  cases w.status <;> rfl

theorem statusCopy_observedGeneration (w : ClusterWorld T R) :
    w.statusCopy.observedGeneration = w.observedGeneration := by
  unfold ClusterWorld.statusCopy ClusterWorld.observedGeneration
  cases w.status <;> rfl

theorem statusCopy_retryCount (w : ClusterWorld T R) : w.statusCopy.retryCount = w.status.bind (·.retryCount) := by
  unfold ClusterWorld.statusCopy
  cases w.status <;> rfl

/-- What only the owner and `update_status` change. -/
def ClusterWorld.record (w : ClusterWorld T R) :
    String × String × List (XervClusterSpec T) × XervClusterSpec T × Option XervClusterStatus :=
  (w.name, w.nameSpace, w.older, w.spec, w.status)

/-- The status that a reconcile of this cluster may write. -/
inductive ClusterWrite (w : ClusterWorld T R) (new : XervClusterStatus) : Prop where
  | created (hphase : w.phase = .pending) (hnew : new.phase = .initializing)
      (hobserved : new.observedGeneration = some w.generation) (hretry : new.retryCount = none)
  | started (hphase : w.phase = .initializing) (hnew : new.phase = .running)
      (hobserved : new.observedGeneration = some w.generation) (hretry : new.retryCount = none)
      (hworkload : w.workload.isSome ∨ w.spec.replicas ≤ 0)
  | changed (hphase : w.phase = .running) (hnew : new.phase = .updating)
      (hdrift : w.observedGeneration ≠ some w.generation)
      (hobserved : new.observedGeneration = w.statusCopy.observedGeneration)
      (hretry : new.retryCount = w.statusCopy.retryCount)
  | checked (hphase : w.phase = .running) (hnew : new.phase = .running ∨ new.phase = .degraded)
      (hdrift : w.observedGeneration = some w.generation)
      (hobserved : new.observedGeneration = some w.generation)
      (hretry : new.retryCount = w.statusCopy.retryCount)
  | updated (hphase : w.phase = .updating) (hnew : new.phase = .running)
      (hobserved : new.observedGeneration = some w.generation)
      (hretry : new.retryCount = w.statusCopy.retryCount)
  | copied (hphase : w.phase = .updating ∧ new.phase = .updating ∨
        w.phase = .degraded ∧ (new.phase = .running ∨ new.phase = .degraded ∨ new.phase = .failed))
      (hobserved : new.observedGeneration = w.statusCopy.observedGeneration)
      (hretry : new.retryCount = w.statusCopy.retryCount)
  | gaveUp (hphase : w.phase = .failed) (hnew : new.phase = .failed) (hlimit : 5 ≤ w.retryCount)
      (hobserved : new.observedGeneration = w.statusCopy.observedGeneration)
      (hretry : new.retryCount = w.statusCopy.retryCount)
  | recovered (hphase : w.phase = .failed) (hnew : new.phase = .initializing) (hlimit : w.retryCount < 5)
      (hobserved : new.observedGeneration = none) (hretry : new.retryCount = some (w.retryCount + 1))

/-- The status is that from before, or one of these was merged into it. -/
def Wrote (w w' : ClusterWorld T R) : Prop :=
  w'.record = w.record ∨ ∃ new, ClusterWrite w new ∧
    w'.record = (w.name, w.nameSpace, w.older, w.spec, some (.merge w.status new))

abbrev AnyError : ClusterError → Prop := fun _ => True

variable (build : ResourceBuilders T R) (cluster : ClusterWorld T R) (env : ClusterEnv)

theorem keeps_apiCall {V : Type} {view : ClusterWorld T R → V} (outcome : CallOutcome)
    (effect : ClusterWorld T R → ClusterWorld T R) (h : ∀ w, view (effect w) = view w) :
    Keeps view AnyError (apiCall outcome effect) := by
  intro w
  cases outcome with
  | done => exact h w
  | lost => exact ⟨h w, trivial⟩
  | failed => exact ⟨rfl, trivial⟩

theorem keeps_apiCallIgnored {V : Type} {view : ClusterWorld T R → V} (outcome : CallOutcome)
    (effect : ClusterWorld T R → ClusterWorld T R) (h : ∀ w, view (effect w) = view w) :
    Keeps view AnyError (apiCallIgnored outcome effect) := by
  refine Keeps.modify _ fun w => ?_
  split
  · exact h w
  · rfl

theorem keeps_updateClusterStatus {V : Type} {view : ClusterWorld T R → V} (new : XervClusterStatus)
    (h : ∀ (w : ClusterWorld T R) status, view { w with status } = view w) :
    Keeps view AnyError (updateClusterStatus env new) :=
  keeps_apiCall env.write _ fun w => h w _

theorem keeps_apiRead {α V : Type} {view : ClusterWorld T R → V} (answer : Option α) :
    Keeps view AnyError (apiRead answer : ClusterM T R α) := by
  intro w
  cases answer with
  | some a => exact rfl
  | none => exact ⟨rfl, trivial⟩

theorem keeps_getWorkloadStatus {V : Type} {view : ClusterWorld T R → V} :
    Keeps view AnyError (getWorkloadStatus cluster env) :=
  (keeps_apiRead env.replicas).bind fun _ => Keeps.get_bind fun _ => Keeps.pure _

theorem keeps_checkPodHealth {V : Type} {view : ClusterWorld T R → V} :
    Keeps view AnyError (checkPodHealth env : ClusterM T R (ℤ × ℤ)) :=
  (keeps_apiRead env.pods).bind fun _ => Keeps.pure _

theorem keeps_ensureConfigMap : Keeps ClusterWorld.record AnyError (ensureConfigMap build cluster env) :=
  keeps_apiCall env.configMap _ fun _ => rfl

theorem keeps_ensureHeadlessService :
    Keeps ClusterWorld.record AnyError (ensureHeadlessService build cluster env) :=
  keeps_apiCall env.headlessService _ fun _ => rfl

theorem keeps_ensureApiService : Keeps ClusterWorld.record AnyError (ensureApiService build cluster env) :=
  keeps_apiCall env.apiService _ fun _ => rfl

theorem keeps_ensureWorkload : Keeps ClusterWorld.record AnyError (ensureWorkload build cluster env) := by
  unfold ensureWorkload
  split
  · exact keeps_apiCall env.workload _ fun _ => rfl
  · exact keeps_apiCall env.workload _ fun _ => rfl

theorem apiRead_run {α : Type} (answer : Option α) (w : ClusterWorld T R) :
    (apiRead answer : ClusterM T R α) w =
      match answer with
      | some a => .ok a w
      | none => .error .kube w := by
  cases answer <;> rfl

theorem meets_apiRead {α : Type} (answer : Option α) (w : ClusterWorld T R) {done : α → ClusterWorld T R → Prop}
    {stopped : ClusterError → ClusterWorld T R → Prop} (hdone : ∀ a, answer = some a → done a w)
    (hstopped : stopped .kube w) : Meets (apiRead answer : ClusterM T R α) w done stopped := by
  unfold Meets
  rw [apiRead_run]
  cases answer with
  | some a => exact hdone a rfl
  | none => exact hstopped

theorem meets_read_bind {α β : Type} {x : ClusterM T R α} {f : α → ClusterM T R β} {w : ClusterWorld T R}
    {done : β → ClusterWorld T R → Prop} {stopped : ClusterError → ClusterWorld T R → Prop}
    (h : Meets x w (fun _ w' => w' = w) stopped) (hf : ∀ a, Meets (f a) w done stopped) :
    Meets (x >>= f) w done stopped := by
  refine h.bind fun a w' hw => ?_
  rw [hw]
  exact hf a

theorem meets_updateClusterStatus {w : ClusterWorld T R} {new : XervClusterStatus}
    (hrecord : w.record = cluster.record) (hwrite : ClusterWrite cluster new) :
    Meets (updateClusterStatus env new) w (fun _ => Wrote cluster) fun _ => Wrote cluster := by
  have hwrote : Wrote cluster { w with status := some (.merge w.status new) } := by
    simp only [ClusterWorld.record, Prod.mk.injEq] at hrecord
    obtain ⟨hname, hnameSpace, holder, hspec, hstatus⟩ := hrecord
    exact .inr ⟨new, hwrite, by simp only [ClusterWorld.record, hname, hnameSpace, holder, hspec, hstatus]⟩
  unfold updateClusterStatus apiCall
  cases houtcome : env.write with
  | done => exact hwrote
  | lost => exact hwrote
  | failed => exact .inl hrecord

theorem wrote_keeps {α : Type} {x : ClusterM T R α} (h : Keeps ClusterWorld.record AnyError x)
    {w : ClusterWorld T R} (hw : Wrote cluster w) :
    Meets x w (fun _ => Wrote cluster) fun _ => Wrote cluster := by
  refine (h w).imp (fun _ w' hrecord => ?_) fun _ w' hrecord => ?_
  · unfold Wrote
    rw [hrecord]
    exact hw
  · unfold Wrote
    rw [hrecord.1]
    exact hw

theorem wrote_bind {α β : Type} {x : ClusterM T R α} {f : α → ClusterM T R β}
    (h : Keeps ClusterWorld.record AnyError x) {w : ClusterWorld T R} (hw : Wrote cluster w)
    (hf : ∀ a w', Wrote cluster w' → Meets (f a) w' (fun _ => Wrote cluster) fun _ => Wrote cluster) :
    Meets (x >>= f) w (fun _ => Wrote cluster) fun _ => Wrote cluster :=
  (wrote_keeps cluster h hw).bind hf

abbrev Writes {α : Type} (x : ClusterM T R α) : Prop :=
  Meets x cluster (fun _ => Wrote cluster) fun _ => Wrote cluster

theorem writes_unchanged : Wrote cluster cluster := .inl rfl

theorem pending_writes (hphase : cluster.phase = .pending) :
    Writes cluster (handleClusterPending build cluster env) := by
  unfold handleClusterPending
  split
  · exact writes_unchanged cluster
  · refine (meets_updateClusterStatus cluster env rfl (.created hphase rfl rfl rfl)).bind fun _ w hw => ?_
    refine wrote_bind cluster (keeps_ensureConfigMap build cluster env) hw fun _ w hw => ?_
    refine wrote_bind cluster (keeps_ensureHeadlessService build cluster env) hw fun _ w hw => ?_
    refine wrote_bind cluster (keeps_ensureApiService build cluster env) hw fun _ w hw => ?_
    exact wrote_bind cluster (keeps_ensureWorkload build cluster env) hw fun _ w hw => hw

theorem meets_getWorkloadStatus {done : ℤ × ℤ → ClusterWorld T R → Prop}
    {stopped : ClusterError → ClusterWorld T R → Prop}
    (hdone : ∀ answer, (cluster.workload = none → answer = (0, 0)) → done answer cluster)
    (hstopped : stopped .kube cluster) : Meets (getWorkloadStatus cluster env) cluster done stopped := by
  unfold getWorkloadStatus
  refine meets_read_bind (meets_apiRead env.replicas cluster (fun _ _ => rfl) hstopped) fun answer => ?_
  refine hdone _ fun hnone => ?_
  unfold ClusterWorld.workload at hnone
  rw [hnone]
  rfl

theorem meets_checkPodHealth {done : ℤ × ℤ → ClusterWorld T R → Prop}
    {stopped : ClusterError → ClusterWorld T R → Prop} (hdone : ∀ answer, done answer cluster)
    (hstopped : stopped .kube cluster) : Meets (checkPodHealth env) cluster done stopped := by
  unfold checkPodHealth
  exact meets_read_bind (meets_apiRead env.pods cluster (fun _ _ => rfl) hstopped) fun pods => hdone _

theorem initializing_writes (hphase : cluster.phase = .initializing) :
    Writes cluster (handleClusterInitializing cluster env : ClusterM T R _) := by
  unfold handleClusterInitializing
  have hstatus : Meets (getWorkloadStatus cluster env) cluster
      (fun answer w => w = cluster ∧ (cluster.workload = none → answer = (0, 0))) fun _ => Wrote cluster :=
    meets_getWorkloadStatus cluster env (fun _ h => ⟨rfl, h⟩) (writes_unchanged cluster)
  refine hstatus.bind ?_
  rintro ⟨ready, available⟩ w ⟨rfl, hnone⟩
  dsimp only
  split
  · rename_i hready
    refine (meets_updateClusterStatus w env rfl (.started hphase rfl rfl rfl ?_)).bind fun _ _ hw => hw
    cases hworkload : w.workload with
    | some r => exact .inl rfl
    | none =>
      obtain ⟨rfl, -⟩ := Prod.mk.inj (hnone hworkload)
      exact .inr hready
  · exact writes_unchanged w

theorem changes_writes (hphase : cluster.phase = .running)
    (hdrift : cluster.observedGeneration ≠ some cluster.generation) :
    Writes cluster (applyClusterChanges build cluster env) := by
  unfold applyClusterChanges
  refine (meets_updateClusterStatus cluster env rfl (by exact .changed hphase rfl hdrift rfl rfl)).bind fun _ w hw => ?_
  refine wrote_bind cluster (keeps_ensureConfigMap build cluster env) hw fun _ w hw => ?_
  exact wrote_bind cluster (keeps_ensureWorkload build cluster env) hw fun _ w hw => hw

theorem running_writes (hphase : cluster.phase = .running) :
    Writes cluster (handleClusterRunning build cluster env) := by
  unfold handleClusterRunning
  split
  · rename_i hdrift
    exact changes_writes build cluster env hphase hdrift
  · rename_i hsame
    have hdrift : cluster.observedGeneration = some cluster.generation := not_not.mp hsame
    have hcopy : cluster.statusCopy.observedGeneration = some cluster.generation := by
      rw [statusCopy_observedGeneration, hdrift]
    have hrunning : cluster.statusCopy.phase = .running := (statusCopy_phase cluster).trans hphase
    refine meets_read_bind (meets_checkPodHealth cluster env (fun _ => rfl) (writes_unchanged cluster)) ?_
    rintro ⟨healthy, unhealthy⟩
    dsimp only
    split
    · exact (meets_updateClusterStatus cluster env rfl
        (by exact .checked hphase (.inr rfl) hdrift hcopy rfl)).bind fun _ _ hw => hw
    · refine meets_read_bind
        (meets_getWorkloadStatus cluster env (fun _ _ => rfl) (writes_unchanged cluster)) ?_
      rintro ⟨ready, available⟩
      exact (meets_updateClusterStatus cluster env rfl
        (by exact .checked hphase (.inl hrunning) hdrift rfl rfl)).bind fun _ _ hw => hw

theorem updating_writes (hphase : cluster.phase = .updating) :
    Writes cluster (handleClusterUpdating cluster env : ClusterM T R _) := by
  have hupdating : cluster.statusCopy.phase = .updating := (statusCopy_phase cluster).trans hphase
  unfold handleClusterUpdating
  refine meets_read_bind (meets_getWorkloadStatus cluster env (fun _ _ => rfl) (writes_unchanged cluster)) ?_
  rintro ⟨ready, available⟩
  dsimp only
  split
  · exact (meets_updateClusterStatus cluster env rfl (by exact .updated hphase rfl rfl rfl)).bind fun _ _ hw => hw
  · exact (meets_updateClusterStatus cluster env rfl
      (by exact .copied (.inl ⟨hphase, hupdating⟩) rfl rfl)).bind fun _ _ hw => hw

theorem degraded_writes (hphase : cluster.phase = .degraded) :
    Writes cluster (handleClusterDegraded cluster env : ClusterM T R _) := by
  have hdegraded : cluster.statusCopy.phase = .degraded := (statusCopy_phase cluster).trans hphase
  unfold handleClusterDegraded
  refine meets_read_bind (meets_checkPodHealth cluster env (fun _ => rfl) (writes_unchanged cluster)) ?_
  rintro ⟨healthy, unhealthy⟩
  dsimp only
  split
  · exact (meets_updateClusterStatus cluster env rfl (by exact .copied (.inr ⟨hphase, .inl rfl⟩) rfl rfl)).bind
      fun _ _ hw => hw
  · refine meets_read_bind
      (meets_apiRead env.podsAgain cluster (fun _ _ => rfl) (writes_unchanged cluster)) fun pods => ?_
    have hdeleted : Meets (modify fun w : ClusterWorld T R =>
        { w with deletedPods := w.deletedPods ++ deleteUnhealthy env.deletePod pods }) cluster
        (fun _ w => w.record = cluster.record) fun _ : ClusterError => Wrote cluster := rfl
    refine hdeleted.bind fun _ w hw => ?_
    split
    · exact (meets_updateClusterStatus cluster env hw
        (by exact .copied (.inr ⟨hphase, .inr (.inr rfl)⟩) rfl rfl)).bind fun _ _ hw => hw
    · exact (meets_updateClusterStatus cluster env hw
        (by exact .copied (.inr ⟨hphase, .inr (.inl hdegraded)⟩) rfl rfl)).bind fun _ _ hw => hw

theorem record_removeWorkload (w : ClusterWorld T R) : (removeWorkload cluster w).record = w.record := by
  unfold removeWorkload
  split <;> rfl

theorem failed_writes (hphase : cluster.phase = .failed) :
    Writes cluster (handleClusterFailed build cluster env) := by
  have hfailed : cluster.statusCopy.phase = .failed := (statusCopy_phase cluster).trans hphase
  unfold handleClusterFailed
  split
  · rename_i hlimit
    exact (meets_updateClusterStatus cluster env rfl (by exact .gaveUp hphase hfailed hlimit rfl rfl)).bind
      fun _ _ hw => hw
  · rename_i hlimit
    have hworkload := keeps_apiCallIgnored env.deleteWorkload (removeWorkload cluster) (record_removeWorkload cluster)
    have hensured := hworkload.bind fun _ => keeps_ensureWorkload build cluster env
    rw [← bind_assoc]
    refine Meets.bind ((hensured cluster).imp (fun _ _ h => h) fun _ w h => .inl h.1) fun _ w hw => ?_
    exact (meets_updateClusterStatus cluster env hw (.recovered hphase rfl (not_le.mp hlimit) rfl rfl)).bind
      fun _ _ h => h

theorem terminating_writes : Writes cluster (handleClusterTerminating cluster env : ClusterM T R _) := by
  unfold handleClusterTerminating
  have hworkload := keeps_apiCallIgnored env.deleteWorkload (removeWorkload cluster) (record_removeWorkload cluster)
  have hservice : Keeps ClusterWorld.record AnyError (apiCallIgnored (env.deleteService cluster.name)
      fun w : ClusterWorld T R => { w with apiService := none }) := keeps_apiCallIgnored _ _ fun _ => rfl
  have hheadless : Keeps ClusterWorld.record AnyError (apiCallIgnored
      (env.deleteService (cluster.name ++ "-headless"))
      fun w : ClusterWorld T R => { w with headlessService := none }) := keeps_apiCallIgnored _ _ fun _ => rfl
  have hconfigMap : Keeps ClusterWorld.record AnyError (apiCallIgnored env.deleteConfigMap
      fun w : ClusterWorld T R => { w with configMap := none }) := keeps_apiCallIgnored _ _ fun _ => rfl
  refine wrote_bind cluster hworkload (writes_unchanged cluster) fun _ w hw => ?_
  refine wrote_bind cluster hservice hw fun _ w hw => ?_
  refine wrote_bind cluster hheadless hw fun _ w hw => ?_
  exact wrote_bind cluster hconfigMap hw fun _ w hw => hw

/-- What a reconcile leaves of the status, whatever its calls answer and wherever it stops. -/
theorem reconcile_writes : Writes cluster (reconcileCluster build cluster env) := by
  unfold reconcileCluster
  split
  · rename_i hphase
    exact pending_writes build cluster env hphase
  · rename_i hphase
    exact initializing_writes cluster env hphase
  · rename_i hphase
    exact running_writes build cluster env hphase
  · rename_i hphase
    exact updating_writes cluster env hphase
  · rename_i hphase
    exact degraded_writes cluster env hphase
  · rename_i hphase
    exact failed_writes build cluster env hphase
  · exact terminating_writes cluster env

end Writes

end Xerv.Operator
