import Xerv.Core.Value
import Xerv.Loader.Builder
import Xerv.Pipeline.Lifecycle

/-!
# Updating a deployed pipeline (`api/handlers/pipelines.rs`)

`PUT /api/v1/pipelines/{id}` takes the old pipeline out of the controller and stops it before the new one
is built and deployed. What the body holds, what the triggers of the old pipeline answer and whether the log
opens is the environment of a request, and so are the orders in which the graph checks iterate over their
hash maps. The YAML parser with the checks of the parsed definition, the texts of errors (`Display`) and the
Unicode tables are parameters (`LoaderOps`); nothing is assumed of them.
-/

namespace Xerv
open Xerv.Lib
open Cluster (PipelineId)

/-! ### Errors of the interface (`api/error.rs`) -/

def XervError.code : XervError → String
  | arenaCreate .. => "E001"
  | arenaWrite .. => "E003"
  | nodeExecution .. => "E301"
  | nodeTimeout .. => "E302"
  | nodePanic .. => "E303"
  | nodeNotFound .. => "E305"
  | uncontrolledCycle .. => "E403"
  | invalidEdge .. => "E406"
  | pipelineNotFound .. => "E501"
  | pipelineExists .. => "E502"
  | concurrencyLimit .. => "E503"
  | circuitBreakerOpen .. => "E504"
  | walWrite .. => "E601"
  | walRead .. => "E602"
  | walCorruption .. => "E603"
  | configValue .. => "E802"
  | serialization .. => "E804"
  | hookNotFound .. => "E1101"
  | suspensionFailed .. => "E1102"
  | compactionFailed .. => "E1201"

structure ApiError where
  code : String
  message : String
  status : ℕ
  deriving DecidableEq

namespace ApiError

def badRequest (code message : String) : ApiError := ⟨code, message, 400⟩

def statusOf : XervError → ℕ
  | .pipelineNotFound .. | .nodeNotFound .. => 404
  | .pipelineExists .. => 409
  | .circuitBreakerOpen .. => 503
  | .concurrencyLimit .. => 429
  | .configValue .. | .invalidEdge .. => 400
  | _ => 500

/-- `From<XervError>`. -/
def ofXerv (display : XervError → String) (e : XervError) : ApiError := ⟨e.code, display e, statusOf e⟩

end ApiError

/-! ### Ids of new pipelines -/

def parseVersionNumber (version : String) : UInt32 :=
  let version := trim version.toList
  let version := ((stripPrefix ['v'] version).or (stripPrefix ['V'] version)).getD version
  match parseBelow (2 ^ 32) version with
  | some v => .ofNat v
  | none =>
    -- the major version, without a suffix such as "-beta"
    let major := (version.takeWhile (· ≠ '.')).takeWhile (· ≠ '-')
    ((parseBelow (2 ^ 32) major).map UInt32.ofNat).getD 1

/-! ### Loading (`loader/loader.rs`) -/

/-- A definition with its name and version, which the graph does not depend on. -/
structure NamedFlow where
  name : String
  version : Option String
  definition : FlowDefinition

def NamedFlow.effectiveVersion (flow : NamedFlow) : String := flow.version.getD "1.0"

structure LoadedFlow where
  name : String
  version : String
  graph : FlowGraph
  definition : NamedFlow

def LoadedFlow.pipelineId (loaded : LoadedFlow) : PipelineId := ⟨loaded.name, parseVersionNumber loaded.version⟩

structure LoaderOps where
  parse : String → Except String NamedFlow
  display : XervError → String
  isAlphanumeric : Char → Bool

/-- `FlowLoader::from_yaml`; an error is its text. -/
def LoaderOps.fromYaml (ops : LoaderOps) (order : List NodeId) (yaml : String) : Except String LoadedFlow :=
  match ops.parse yaml with
  | .error text => .error text
  | .ok flow =>
    match FlowBuilder.build ops.isAlphanumeric flow.definition order with
    | .error e => .error ("failed to build flow graph: " ++ ops.display e)
    | .ok graph => .ok ⟨flow.name, flow.effectiveVersion, graph, flow⟩

/-! ### The controller (`pipeline/controller.rs`) -/

/-- A pipeline with the flow that it was built from. -/
structure DeployedPipeline where
  pipeline : Pipeline
  flow : LoadedFlow

def DeployedPipeline.key (p : DeployedPipeline) : String := p.pipeline.id.text

/-- The deployed pipelines, each under the text of its id. -/
structure PipelineController where
  pipelines : FiniteMap String DeployedPipeline
  keyed : ∀ key p, pipelines.get key = some p → p.key = key

namespace PipelineController

def new : PipelineController := ⟨∅, fun key p h => by rw [FiniteMap.get_empty] at h; cases h⟩

def get (c : PipelineController) (id : String) : Option DeployedPipeline := c.pipelines.get id

def erase (c : PipelineController) (id : String) : PipelineController where
  pipelines := c.pipelines.remove id
  keyed key p h := c.keyed key p (FiniteMap.get_remove_some _ h).2

def insert (c : PipelineController) (p : DeployedPipeline) : PipelineController where
  pipelines := c.pipelines.insert p.key p
  keyed key q h := by
    rcases FiniteMap.get_insert_some _ h with ⟨hkey, hq⟩ | ⟨-, hold⟩
    · rw [hkey, hq]
    · exact c.keyed key q hold

/-- The pipeline is out of the map also where it then fails to stop. -/
def remove (c : PipelineController) (id : String) (triggers : TriggerAnswers) :
    Except XervError Unit × PipelineController :=
  match c.get id with
  | none => (.ok (), c)
  | some p => ((p.pipeline.stop triggers).result, c.erase id)

def deploy (c : PipelineController) (p : DeployedPipeline) : Except XervError PipelineController :=
  if c.pipelines.contains p.key then .error (.pipelineExists p.key) else .ok (c.insert p)

end PipelineController

/-! ### The request -/

structure UpdateRequest where
  body : Except ApiError String
  triggers : TriggerAnswers
  openWal : Except XervError Unit
  loadOrder : List NodeId
  validateOrder : List NodeId
  sortOrder : List NodeId

def UpdateRequest.load (ops : LoaderOps) (r : UpdateRequest) : Except ApiError LoadedFlow :=
  match r.body with
  | .error e => .error e
  | .ok yaml =>
    match ops.fromYaml r.loadOrder yaml with
    | .error text => .error (.badRequest "E801" text)
    | .ok loaded => .ok loaded

/-- `PipelineBuilder::build` with `Executor::new`. -/
def UpdateRequest.build (r : UpdateRequest) (loaded : LoadedFlow) : Except XervError DeployedPipeline :=
  match r.openWal with
  | .error e => .error e
  | .ok _ =>
    match loaded.graph.validate r.validateOrder with
    | .error e => .error e
    | .ok _ =>
      match loaded.graph.topologicalSort r.sortOrder with
      | .error e => .error e
      | .ok _ => .ok ⟨⟨loaded.pipelineId, .initializing⟩, loaded⟩

def deployedBody (loaded : LoadedFlow) : Json :=
  .object [("pipeline_id", .string loaded.pipelineId.text), ("name", .string loaded.name),
    ("version", .string loaded.version), ("status", .string "deployed")]

namespace PipelineController
variable (ops : LoaderOps)

def update (c : PipelineController) (id : String) (r : UpdateRequest) :
    Except ApiError Json × PipelineController :=
  match r.load ops with
  | .error e => (.error e, c)
  | .ok loaded =>
    match c.get id with
    | none => (.error (.ofXerv ops.display (.pipelineNotFound id)), c)
    | some _ =>
      match c.remove id r.triggers with
      | (.error e, c) => (.error (.ofXerv ops.display e), c)
      | (.ok _, c) =>
        match r.build loaded with
        | .error e => (.error (.ofXerv ops.display e), c)
        | .ok p =>
          match c.deploy p with
          | .error e => (.error (.ofXerv ops.display e), c)
          | .ok c => (.ok (deployedBody loaded), c)

/-- An error leaves the deployed pipelines as they were. Otherwise the old id was deployed, the new one was
not unless it is the same, and the new pipeline is there in place of the old one, with all the others. -/
structure AllOrNothing (c : PipelineController) (id : String) (r : UpdateRequest) : Prop where
  unchanged : ∀ e, (c.update ops id r).1 = .error e → (c.update ops id r).2 = c
  replaced : ∀ answer, (c.update ops id r).1 = .ok answer →
    ∃ old new, c.get id = some old ∧ old.key = id ∧ r.load ops = .ok new.flow ∧
      new.pipeline = ⟨new.flow.pipelineId, .initializing⟩ ∧ answer = deployedBody new.flow ∧
      (new.key = id ∨ c.get new.key = none) ∧
      (c.update ops id r).2.pipelines = (c.pipelines.remove id).insert new.key new

/-- The key is that of a deployed pipeline other than the one under `id`. -/
def takenByThird (c : PipelineController) (id key : String) : Bool := key ≠ id && c.pipelines.contains key

/-- The old pipeline is removed, and then a trigger does not stop, the new pipeline cannot be built or its
id is that of a third one. -/
def removesInVain (c : PipelineController) (id : String) (r : UpdateRequest) : Bool :=
  match r.load ops with
  | .error _ => false
  | .ok loaded =>
    c.pipelines.contains id &&
      (Pipeline.someFail r.triggers || !(r.build loaded).isOk || c.takenByThird id loaded.pipelineId.text)

variable {ops} {c : PipelineController} {id : String} {r : UpdateRequest}

/-! ### What an update does -/

theorem build_ok {loaded : LoadedFlow} {p : DeployedPipeline} (h : r.build loaded = .ok p) :
    p.flow = loaded ∧ p.pipeline = ⟨loaded.pipelineId, .initializing⟩ ∧ p.key = loaded.pipelineId.text := by
  unfold UpdateRequest.build at h
  split at h
  · cases h
  · split at h
    · cases h
    · split at h
      · cases h
      · cases h
        exact ⟨rfl, rfl, rfl⟩

theorem remove_deployed {old : DeployedPipeline} (h : c.get id = some old) (triggers : TriggerAnswers) :
    c.remove id triggers = (Pipeline.askTriggers triggers, c.erase id) := by
  have hstop : (old.pipeline.stop triggers).result = Pipeline.askTriggers triggers := by
    unfold Pipeline.stop
    cases Pipeline.askTriggers triggers with
    | error e => rfl
    | ok u => rfl
  unfold remove
  rw [h]
  exact congrArg (·, c.erase id) hstop

theorem deploy_erase (c : PipelineController) (id : String) (p : DeployedPipeline) :
    (c.erase id).deploy p =
      if c.takenByThird id p.key then .error (.pipelineExists p.key) else .ok ((c.erase id).insert p) := by
  have hcontains : (c.erase id).pipelines.contains p.key = c.takenByThird id p.key :=
    c.pipelines.contains_remove p.key id
  unfold deploy
  rw [hcontains]

theorem not_takenByThird {key : String} (h : c.takenByThird id key = false) : key = id ∨ c.get key = none := by
  unfold takenByThird at h
  rw [Bool.and_eq_false_iff, decide_eq_false_iff_not, not_not] at h
  exact h.imp_right (c.pipelines.contains_eq_false key).mp

theorem removesInVain_deployed {loaded : LoadedFlow} {old : DeployedPipeline} (hload : r.load ops = .ok loaded)
    (hget : c.get id = some old) :
    c.removesInVain ops id r =
      (Pipeline.someFail r.triggers || !(r.build loaded).isOk || c.takenByThird id loaded.pipelineId.text) := by
  unfold removesInVain
  rw [hload]
  dsimp only
  rw [c.pipelines.contains_of_get hget, Bool.true_and]

theorem update_cases (ops : LoaderOps) (c : PipelineController) (id : String) (r : UpdateRequest) :
    (c.removesInVain ops id r = false ∧ ∃ e, c.update ops id r = (.error e, c)) ∨
      (c.removesInVain ops id r = true ∧ c.pipelines.contains id = true ∧
        ∃ e, c.update ops id r = (.error e, c.erase id)) ∨
      (c.removesInVain ops id r = false ∧ ∃ old new, c.get id = some old ∧ r.load ops = .ok new.flow ∧
        new.pipeline = ⟨new.flow.pipelineId, .initializing⟩ ∧ (new.key = id ∨ c.get new.key = none) ∧
        c.update ops id r = (.ok (deployedBody new.flow), (c.erase id).insert new)) := by
  cases hload : r.load ops with
  | error e =>
    refine .inl ⟨?_, e, ?_⟩
    · unfold removesInVain
      rw [hload]
    · unfold update
      rw [hload]
  | ok loaded =>
    cases hget : c.get id with
    | none =>
      have hcontains : c.pipelines.contains id = false := (c.pipelines.contains_eq_false id).mpr hget
      refine .inl ⟨?_, .ofXerv ops.display (.pipelineNotFound id), ?_⟩
      · unfold removesInVain
        rw [hload]
        dsimp only
        rw [hcontains, Bool.false_and]
      · unfold update
        rw [hload]
        dsimp only
        rw [hget]
    | some old =>
      have hdeployed := c.pipelines.contains_of_get hget
      rw [removesInVain_deployed hload hget]
      unfold update
      rw [hload]
      dsimp only
      rw [hget]
      dsimp only
      rw [remove_deployed hget]
      rcases Pipeline.askTriggers_cases r.triggers with ⟨hnone, hstopped⟩ | ⟨hfail, e, he⟩
      · rw [hnone, hstopped, Bool.false_or]
        dsimp only
        cases hbuild : r.build loaded with
        | error e => exact .inr (.inl ⟨rfl, hdeployed, _, rfl⟩)
        | ok new =>
          obtain ⟨hflow, hnew, hkey⟩ := build_ok hbuild
          rw [← hkey]
          dsimp only
          rw [deploy_erase]
          cases htaken : c.takenByThird id new.key with
          | true => exact .inr (.inl ⟨rfl, hdeployed, _, rfl⟩)
          | false =>
            refine .inr (.inr ⟨rfl, old, new, rfl, by rw [hflow], by rw [hflow, hnew],
              not_takenByThird htaken, ?_⟩)
            rw [hflow]
            rfl
      · rw [hfail, he, Bool.true_or, Bool.true_or]
        exact .inr (.inl ⟨rfl, hdeployed, _, rfl⟩)

theorem erase_ne_self (h : c.pipelines.contains id = true) : c.erase id ≠ c :=
  fun heq => c.pipelines.remove_ne_self h (congrArg PipelineController.pipelines heq)

/-- For every controller and every request: the update is all or nothing if and only if it does not remove
a pipeline that has a trigger that does not stop, or for which the new pipeline cannot be built or would
have the id of a third one. -/
theorem allOrNothing_iff (ops : LoaderOps) (c : PipelineController) (id : String)
    (r : UpdateRequest) : AllOrNothing ops c id r ↔ c.removesInVain ops id r = false := by
  rcases update_cases ops c id r with ⟨hvain, e, hupdate⟩ | ⟨hvain, hdeployed, e, hupdate⟩ |
    ⟨hvain, old, new, hold, hload, hnew, hfree, hupdate⟩
  · refine iff_of_true ⟨fun e' he' => ?_, fun answer ha => ?_⟩ hvain
    · rw [hupdate]
    · rw [hupdate] at ha
      cases ha
  · rw [hvain]
    refine iff_of_false (fun hall => ?_) nofun
    have hsame := hall.unchanged e (by rw [hupdate])
    rw [hupdate] at hsame
    exact erase_ne_self hdeployed hsame
  · refine iff_of_true ⟨fun e' he' => ?_, fun answer ha => ?_⟩ hvain
    · rw [hupdate] at he'
      cases he'
    · rw [hupdate] at ha ⊢
      cases ha
      exact ⟨old, new, hold, c.keyed id old hold, hload, hnew, rfl, hfree, rfl⟩

/-! ### Two pipelines -/

def webhookFlow (name : String) : NamedFlow := ⟨name, none, ⟨[⟨"hook", "webhook", true⟩], [], [], List.nodup_nil⟩⟩

def billingYaml : String := "name: billing\ntriggers:\n  - id: hook\n    type: webhook\n"

def sampleLoader : LoaderOps where
  parse yaml := if yaml = billingYaml then .ok (webhookFlow "billing") else .error "failed to parse YAML"
  display := XervError.code
  isAlphanumeric := Char.isAlphanum

def deployed (name : String) : DeployedPipeline where
  pipeline := ⟨⟨name, 1⟩, .running⟩
  flow := ⟨name, "1.0", FlowGraph.new.addNode (.new 0 "trigger::webhook"), webhookFlow name⟩

def ordersAndBilling : PipelineController := (new.insert (deployed "orders")).insert (deployed "billing")

def renameToBilling : UpdateRequest := ⟨.ok billingYaml, [], .ok (), [0], [0], [0]⟩

/-- The body for "orders@v1" defines a flow "billing": the answer is that "billing@v1" already exists, and
"orders@v1" is gone. -/
theorem refused_update_loses_pipeline :
    (∃ e, (ordersAndBilling.update sampleLoader "orders@v1" renameToBilling).1 = .error e ∧ e.code = "E502") ∧
      (ordersAndBilling.get "orders@v1").isSome = true ∧
      (ordersAndBilling.update sampleLoader "orders@v1" renameToBilling).2.get "orders@v1" = none ∧
      ¬ AllOrNothing sampleLoader ordersAndBilling "orders@v1" renameToBilling := by
  have hdeployed : (ordersAndBilling.get "orders@v1").isSome = true := by decide
  have hupdate : ordersAndBilling.update sampleLoader "orders@v1" renameToBilling =
      (.error ⟨"E502", "E502", 409⟩, ordersAndBilling.erase "orders@v1") := rfl
  refine ⟨⟨_, by rw [hupdate], rfl⟩, hdeployed, ?_, fun hall => ?_⟩
  · rw [hupdate]
    exact FiniteMap.get_remove_self _ _
  · have hsame := hall.unchanged _ (by rw [hupdate])
    rw [hupdate] at hsame
    exact erase_ne_self hdeployed hsame

end PipelineController
end Xerv
