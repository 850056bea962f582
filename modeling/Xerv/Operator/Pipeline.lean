import Mathlib.Data.List.Basic
import Mathlib.Tactic.NormNum

/-!
# The pipeline controller (`xerv-operator/src/controller/pipeline.rs`)

One `XervPipeline`, its status and what its cluster holds for it: a definition and a paused flag. A
POST of a pipeline that is deployed answers 409 and changes nothing, and the controller takes
409 for success. A handler reads the resource once, at its start, and every status it writes is
built from that copy. Every call may fail, and may also take effect although its answer is lost.
Timestamps, messages, conditions and the counters that nothing here sets are left out.
-/

namespace Xerv.Operator

inductive PipelinePhase where
  | pending | validating | active | paused | error | terminating
  deriving DecidableEq, Repr

inductive PipelineSource where
  | configMap (name key : String)
  | git (repo refName path : String)
  | inline (content : String)
  deriving DecidableEq, Repr

structure XervPipelineSpec where
  source : PipelineSource
  triggers : List String
  paused : Bool
  deriving DecidableEq

structure XervPipelineStatus where
  phase : PipelinePhase
  activeTriggers : ℕ
  tracesCompleted : ℤ
  tracesFailed : ℤ
  errorCount : Option ℤ
  observedGeneration : Option ℕ
  deriving DecidableEq

namespace XervPipelineStatus

def initial : XervPipelineStatus := ⟨.pending, 0, 0, 0, none, none⟩

/-- The merge patch of `update_status`: an absent field is not serialized, and the old one stays. -/
def merge (old : Option XervPipelineStatus) (new : XervPipelineStatus) : XervPipelineStatus :=
  { new with
    errorCount := new.errorCount.or (old.bind errorCount)
    observedGeneration := new.observedGeneration.or (old.bind observedGeneration) }

end XervPipelineStatus

/-- What the cluster holds for the pipeline. -/
structure DeployedPipeline where
  definition : String
  paused : Bool
  deriving DecidableEq

/-- How a call ends: done, done with its answer lost, or without effect. -/
inductive CallOutcome where
  | done | lost | failed
  deriving DecidableEq, Repr

def CallOutcome.applied : CallOutcome → Bool
  | done => true
  | lost => true
  | failed => false

def CallOutcome.returned : CallOutcome → Bool
  | done => true
  | lost => false
  | failed => false

/-- What a reconcile meets, call by call. -/
structure PipelineEnv where
  clusterReady : Bool
  load : Bool
  endpoint : Bool
  deploy : CallOutcome
  triggers : Bool
  pause : CallOutcome
  resume : CallOutcome
  remove : CallOutcome
  write : CallOutcome
  metricsEndpoint : Bool
  metrics : Option (ℤ × ℤ)
  metricsWrite : CallOutcome

/-- The specs of all generations, the latest last, the status, the cluster, and how often
`deploy_to_cluster` has been called. -/
structure PipelineWorld where
  older : List XervPipelineSpec
  spec : XervPipelineSpec
  status : Option XervPipelineStatus
  cluster : Option DeployedPipeline
  deployCalls : ℕ

namespace PipelineWorld

def created (spec : XervPipelineSpec) : PipelineWorld := ⟨[], spec, none, none, 0⟩

/-- `metadata.generation`, from 1 on. -/
def generation (w : PipelineWorld) : ℕ := w.older.length + 1

def specOf (w : PipelineWorld) (generation : ℕ) : Option XervPipelineSpec :=
  (w.older ++ [w.spec])[generation - 1]?

def phase (w : PipelineWorld) : PipelinePhase :=
  (w.status.map XervPipelineStatus.phase).getD .pending

theorem exists_status {w : PipelineWorld} {phase : PipelinePhase} (hphase : w.phase = phase)
    (hne : phase ≠ .pending) :
    ∃ status, w.status = some status ∧ w.status.getD .initial = status ∧ status.phase = phase := by
  unfold PipelineWorld.phase at hphase
  cases hstatus : w.status with
  | none =>
    rw [hstatus] at hphase
    exact absurd hphase.symm hne
  | some status =>
    rw [hstatus] at hphase
    exact ⟨status, rfl, rfl, hphase⟩

def observedGeneration (w : PipelineWorld) : Option ℕ :=
  w.status.bind XervPipelineStatus.observedGeneration

def updateStatus (w : PipelineWorld) (outcome : CallOutcome) (status : XervPipelineStatus) :
    PipelineWorld :=
  if outcome.applied then { w with status := some (.merge w.status status) } else w

/-- POST: a pipeline that is deployed stays as it is. -/
def deployToCluster (w : PipelineWorld) (outcome : CallOutcome) (yaml : String) : PipelineWorld :=
  { w with
    cluster := if outcome.applied then w.cluster.or (some ⟨yaml, false⟩) else w.cluster
    deployCalls := w.deployCalls + 1 }

/-- Pausing and resuming; a pipeline that is not there is answered with 404. -/
def setPausedInCluster (w : PipelineWorld) (outcome : CallOutcome) (paused : Bool) :
    PipelineWorld × Bool :=
  match w.cluster with
  | none => (w, false)
  | some c =>
    (if outcome.applied then { w with cluster := some { c with paused := paused } } else w,
      outcome.returned)

end PipelineWorld

/-! ### Handlers -/

section Handlers
variable (stored : PipelineSource → String) (validYaml : String → Bool)

/-- The definition that a source names; config maps and repositories stay as they are. -/
def definitionOf : PipelineSource → String
  | .configMap name key => stored (.configMap name key)
  | .git repo refName path => stored (.git repo refName path)
  | .inline content => content

def loadDefinition (env : PipelineEnv) : PipelineSource → Option String
  | .configMap name key => if env.load then some (stored (.configMap name key)) else none
  | .git repo refName path => if env.load then some (stored (.git repo refName path)) else none
  | .inline content => some content

def handlePipelinePending (w : PipelineWorld) (env : PipelineEnv) : PipelineWorld :=
  if env.clusterReady then
    w.updateStatus env.write { XervPipelineStatus.initial with phase := .validating }
  else w

def handleValidating (w : PipelineWorld) (env : PipelineEnv) : PipelineWorld :=
  match loadDefinition stored env w.spec.source with
  | none => w
  | some yaml =>
    if validYaml yaml && env.endpoint then
      let deployed := w.deployToCluster env.deploy yaml
      if env.deploy.returned && env.triggers then
        deployed.updateStatus env.write { XervPipelineStatus.initial with
          phase := if w.spec.paused then .paused else .active
          activeTriggers := w.spec.triggers.length
          observedGeneration := some w.generation }
      else deployed
    else w

/-- The metrics part of `handle_active`; `read` is the status at the start of the handler. -/
def updateMetrics (w : PipelineWorld) (read : XervPipelineStatus) (env : PipelineEnv) : PipelineWorld :=
  if env.metricsEndpoint then
    match env.metrics with
    | some (completed, failed) => w.updateStatus env.metricsWrite
        { read with tracesCompleted := completed, tracesFailed := failed }
    | none => w
  else w

def handleActive (w : PipelineWorld) (env : PipelineEnv) : PipelineWorld :=
  let read := w.status.getD .initial
  if w.spec.paused then
    if env.endpoint then
      let (paused, returned) := w.setPausedInCluster env.pause true
      if returned then paused.updateStatus env.write { read with phase := .paused } else paused
    else w
  else if w.observedGeneration ≠ some w.generation then
    match loadDefinition stored env w.spec.source with
    | none => w
    | some yaml =>
      if validYaml yaml && env.endpoint then
        let deployed := w.deployToCluster env.deploy yaml
        if env.deploy.returned then
          let updated := deployed.updateStatus env.write
            { read with phase := .active, observedGeneration := some w.generation }
          if env.write.returned then updateMetrics updated read env else updated
        else deployed
      else w
  else updateMetrics w read env

def handlePaused (w : PipelineWorld) (env : PipelineEnv) : PipelineWorld :=
  if w.spec.paused then w
  else if env.endpoint then
    let (resumed, returned) := w.setPausedInCluster env.resume false
    if returned then
      resumed.updateStatus env.write { w.status.getD .initial with phase := .active }
    else resumed
  else w

def handleError (w : PipelineWorld) (env : PipelineEnv) : PipelineWorld :=
  let read := w.status.getD .initial
  let errorCount := read.errorCount.getD 0
  let failed := { read with errorCount := some (errorCount + 1) }
  if errorCount > 5 then w
  else if env.endpoint then
    match loadDefinition stored env w.spec.source with
    | none => w
    | some yaml =>
      let deployed := w.deployToCluster env.deploy yaml
      if env.deploy.returned then
        deployed.updateStatus env.write
          { XervPipelineStatus.initial with phase := .active, errorCount := some 0 }
      else deployed.updateStatus env.write failed
  else w.updateStatus env.write failed

/-- The removal from the cluster; the pipeline is let go whatever it answers. -/
def handleTerminating (w : PipelineWorld) (env : PipelineEnv) : PipelineWorld :=
  if env.endpoint && env.remove.applied then { w with cluster := none } else w

def reconcilePipeline (w : PipelineWorld) (env : PipelineEnv) : PipelineWorld :=
  match w.phase with
  | .pending => handlePipelinePending w env
  | .validating => handleValidating stored validYaml w env
  | .active => handleActive stored validYaml w env
  | .paused => handlePaused w env
  | .error => handleError stored w env
  | .terminating => handleTerminating w env

end Handlers

/-! ### Runs -/

inductive PipelineEvent where
  | edit (spec : XervPipelineSpec)
  | reconcile (env : PipelineEnv)

/-- The API server counts the changes of the spec. -/
def PipelineWorld.edit (w : PipelineWorld) (spec : XervPipelineSpec) : PipelineWorld :=
  if spec = w.spec then w else { w with older := w.older ++ [w.spec], spec := spec }

def PipelineWorld.next (stored : PipelineSource → String) (validYaml : String → Bool) (w : PipelineWorld) :
    PipelineEvent → PipelineWorld
  | .edit spec => w.edit spec
  | .reconcile env => reconcilePipeline stored validYaml w env

/-! ### A cluster that answers every call -/

def workingEnv (metrics : Option (ℤ × ℤ)) : PipelineEnv where
  clusterReady := true
  load := true
  endpoint := true
  deploy := .done
  triggers := true
  pause := .done
  resume := .done
  remove := .done
  write := .done
  metricsEndpoint := true
  metrics := metrics
  metricsWrite := .done

def inlineSpec (content : String) (paused : Bool) : XervPipelineSpec := ⟨.inline content, [], paused⟩

end Xerv.Operator
