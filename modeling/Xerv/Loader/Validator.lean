import Xerv.Loader.Builder

/-!
# Flow validation (`xerv-core/src/flow/validation/validator.rs`)

`FlowValidator` reads more of a flow than the builder does: its name and version,
the parameters of triggers, the configuration of nodes and the conditions of edges.
The definitions here extend those of the builder by these fields. A `serde_yaml::Value`
is a parameter: the lookup of a key and the readings of a value as an integer or a text.
The vector of errors is what each check returns, in the order in which it pushes them.
-/

namespace Xerv
open Xerv.Lib

/-- What is read of a `serde_yaml::Value`. -/
structure Yaml where
  Value : Type
  get : Value → String → Option Value
  asI64 : Value → Option ℤ
  asStr : Value → Option String

namespace Document

structure TriggerDefinition (yaml : Yaml) extends Xerv.TriggerDefinition where
  params : yaml.Value

structure NodeDefinition (yaml : Yaml) extends Xerv.NodeDefinition where
  config : yaml.Value

structure EdgeDefinition extends Xerv.EdgeDefinition where
  condition : Option String

structure FlowDefinition (yaml : Yaml) where
  name : String
  version : Option String
  triggers : List (TriggerDefinition yaml)
  nodes : List (String × NodeDefinition yaml)
  edges : List EdgeDefinition
  distinctNodes : (nodes.map Prod.fst).Nodup

variable {yaml : Yaml}

def TriggerDefinition.getString (t : TriggerDefinition yaml) (key : String) : Option String :=
  (yaml.get t.params key).bind yaml.asStr

def TriggerDefinition.getI64 (t : TriggerDefinition yaml) (key : String) : Option ℤ :=
  (yaml.get t.params key).bind yaml.asI64

def NodeDefinition.getString (n : NodeDefinition yaml) (key : String) : Option String :=
  (yaml.get n.config key).bind yaml.asStr

def NodeDefinition.getI64 (n : NodeDefinition yaml) (key : String) : Option ℤ :=
  (yaml.get n.config key).bind yaml.asI64

def NodeDefinition.getNested (n : NodeDefinition yaml) (path : List String) : Option yaml.Value :=
  path.foldlM yaml.get n.config

/-- What the builder reads of a flow. -/
def FlowDefinition.core (flow : FlowDefinition yaml) : Xerv.FlowDefinition where
  triggers := flow.triggers.map fun t => t.toTriggerDefinition
  nodes := flow.nodes.map fun n => (n.1, n.2.toNodeDefinition)
  edges := flow.edges.map fun e => e.toEdgeDefinition
  distinctNodes := by
    rw [List.map_map]
    exact flow.distinctNodes

end Document

def EdgeDefinition.fromNode (isAlphanumeric : Char → Bool) (e : EdgeDefinition) : String :=
  (e.parseFrom isAlphanumeric).1

def EdgeDefinition.toNode (isAlphanumeric : Char → Bool) (e : EdgeDefinition) : String :=
  (e.parseTo isAlphanumeric).1

/-! ### Types of triggers -/

inductive TriggerType where
  | webhook
  | kafka
  | cron
  | queue
  | filesystem
  | manual
  | memory
  deriving DecidableEq, Repr

def TriggerType.parse (s : String) : Option TriggerType :=
  if s = "trigger::webhook" ∨ s = "webhook" then some .webhook
  else if s = "trigger::kafka" ∨ s = "kafka" then some .kafka
  else if s = "trigger::cron" ∨ s = "cron" then some .cron
  else if s = "trigger::queue" ∨ s = "queue" then some .queue
  else if s = "trigger::filesystem" ∨ s = "filesystem" then some .filesystem
  else if s = "trigger::manual" ∨ s = "manual" then some .manual
  else if s = "trigger::memory" ∨ s = "memory" then some .memory
  else none

def TriggerDefinition.parsedType (t : TriggerDefinition) : Option TriggerType :=
  TriggerType.parse t.triggerType

/-! ### Errors and limits -/

inductive ValidationErrorKind where
  | missingField
  | invalidValue
  | duplicateId
  | invalidReference
  | invalidTriggerType
  | invalidNodeType
  | cycleDetected
  | unreachableNode
  | invalidSelector
  | limitExceeded
  | securityViolation
  deriving DecidableEq, Repr

def ValidationErrorKind.text : ValidationErrorKind → String
  | missingField => "MISSING_FIELD"
  | invalidValue => "INVALID_VALUE"
  | duplicateId => "DUPLICATE_ID"
  | invalidReference => "INVALID_REFERENCE"
  | invalidTriggerType => "INVALID_TRIGGER_TYPE"
  | invalidNodeType => "INVALID_NODE_TYPE"
  | cycleDetected => "CYCLE_DETECTED"
  | unreachableNode => "UNREACHABLE_NODE"
  | invalidSelector => "INVALID_SELECTOR"
  | limitExceeded => "LIMIT_EXCEEDED"
  | securityViolation => "SECURITY_VIOLATION"

structure ValidationError where
  kind : ValidationErrorKind
  location : String
  message : String
  deriving DecidableEq, Repr

namespace ValidationError

def missingField (location field : String) : ValidationError :=
  ⟨.missingField, location, "missing required field '" ++ field ++ "'"⟩

def invalidValue (location message : String) : ValidationError :=
  ⟨.invalidValue, location, message⟩

def duplicateId (location id : String) : ValidationError :=
  ⟨.duplicateId, location, "duplicate identifier '" ++ id ++ "'"⟩

def invalidReference (location reference : String) : ValidationError :=
  ⟨.invalidReference, location, "reference to non-existent node '" ++ reference ++ "'"⟩

end ValidationError

structure ValidationLimits where
  maxNodeCount : ℕ
  maxEdgeCount : ℕ
  maxTriggerCount : ℕ

def ValidationLimits.default : ValidationLimits where
  maxNodeCount := 1000
  maxEdgeCount := 5000
  maxTriggerCount := 100

/-- `add_error`, under a condition. -/
def addErrorIf (bad : Prop) [Decidable bad] (error : ValidationError) : List ValidationError :=
  if bad then [error] else []

@[simp] theorem addErrorIf_nil (bad : Prop) [Decidable bad] (error : ValidationError) :
    addErrorIf bad error = [] ↔ ¬bad := by
  simp [addErrorIf]

namespace Document.FlowValidator

variable {yaml : Yaml}

/-! ### The checks -/

/-- One of the three counts of `validate_limits`. -/
def countErrors (what location : String) (count max : ℕ) : List ValidationError :=
  addErrorIf (max < count) ⟨.limitExceeded, location,
    what ++ " count (" ++ toString count ++ ") exceeds maximum allowed (" ++ toString max ++ ")"⟩

def validateLimits (limits : ValidationLimits) (flow : FlowDefinition yaml) : List ValidationError :=
  countErrors "node" "nodes" flow.nodes.length limits.maxNodeCount ++
    countErrors "edge" "edges" flow.edges.length limits.maxEdgeCount ++
    countErrors "trigger" "triggers" flow.triggers.length limits.maxTriggerCount

def validateMetadata (flow : FlowDefinition yaml) : List ValidationError :=
  addErrorIf (flow.name = "") (.missingField "flow" "name") ++
    addErrorIf (flow.version = some "") (.invalidValue "flow.version" "version cannot be empty string")

def validateTriggerParams (t : TriggerDefinition yaml) (location : String) : List ValidationError :=
  if t.triggerType = "webhook" ∨ t.triggerType = "trigger::webhook" then
    match t.getI64 "port" with
    | some port =>
      addErrorIf (¬(1 ≤ port ∧ port ≤ 65535)) (.invalidValue (location ++ ".params.port")
        ("port must be between 1 and 65535, got " ++ toString port))
    | none => []
  else if t.triggerType = "cron" ∨ t.triggerType = "trigger::cron" then
    addErrorIf (t.getString "schedule" = none) (.missingField (location ++ ".params") "schedule")
  else if t.triggerType = "filesystem" ∨ t.triggerType = "trigger::filesystem" then
    addErrorIf (t.getString "path" = none) (.missingField (location ++ ".params") "path")
  else []

/-- The body of the loop of `validate_triggers`; `seen` are the ids of the triggers before. -/
def validateTrigger (seen : List String) (t : TriggerDefinition yaml) (location : String) :
    List ValidationError :=
  addErrorIf (t.id ∈ seen) (.duplicateId location t.id) ++
    addErrorIf (t.id = "") (.missingField location "id") ++
    addErrorIf (t.parsedType = none)
      ⟨.invalidTriggerType, location, "unknown trigger type '" ++ t.triggerType ++ "'"⟩ ++
    validateTriggerParams t location

def validateTriggersFrom (seen : List String) (idx : ℕ) : List (TriggerDefinition yaml) → List ValidationError
  | [] => []
  | t :: ts =>
    validateTrigger seen t ("triggers[" ++ toString idx ++ "]") ++
      validateTriggersFrom (t.id :: seen) (idx + 1) ts

def validateTriggers (flow : FlowDefinition yaml) : List ValidationError :=
  validateTriggersFrom [] 0 flow.triggers

def validateNodeConfig (node : NodeDefinition yaml) (location : String) : List ValidationError :=
  if node.nodeType = "std::switch" then
    addErrorIf ((node.getNested ["condition"]).isNone ∧ node.getString "expression" = none)
      (.missingField (location ++ ".config") "condition or expression")
  else if node.nodeType = "std::loop" then
    addErrorIf (node.getI64 "max_iterations" = none ∧ (node.getNested ["condition"]).isNone)
      (.missingField (location ++ ".config") "max_iterations or condition")
  else if node.nodeType = "std::aggregate" then
    addErrorIf (node.getString "operation" = none) (.missingField (location ++ ".config") "operation")
  else []

def validateNode (flow : FlowDefinition yaml) (seen : List String) (id : String) (node : NodeDefinition yaml) :
    List ValidationError :=
  let location := "nodes." ++ id
  addErrorIf (id ∈ seen) (.duplicateId location id) ++
    flow.triggers.flatMap (fun t => addErrorIf (t.id = id)
      ⟨.duplicateId, location, "node ID conflicts with trigger ID '" ++ id ++ "'"⟩) ++
    addErrorIf (node.nodeType = "") (.missingField location "type") ++ validateNodeConfig node location

def validateNodesFrom (flow : FlowDefinition yaml) (seen : List String) :
    List (String × NodeDefinition yaml) → List ValidationError
  | [] => []
  | (id, node) :: ns => validateNode flow seen id node ++ validateNodesFrom flow (id :: seen) ns

def validateNodes (flow : FlowDefinition yaml) : List ValidationError :=
  validateNodesFrom flow [] flow.nodes

/-- The two local variables of `validate_selector_syntax` after one more character. -/
def scanSelector (opens : Bool) (s : Bool × Int32) (c : Char) : Bool × Int32 :=
  if c = '\x7b' ∧ (s.1 ∨ opens) then (true, s.2 + 1)
  else if c = '\x7d' ∧ s.1 then (s.2 - 1 ≠ 0, s.2 - 1)
  else s

def braceDepth (selector : List Char) : Int32 :=
  (selector.foldl (scanSelector (['$', '\x7b'] <:+: selector)) (false, 0)).2

def validateSelectorSyntax (selector location : String) : List ValidationError :=
  addErrorIf (braceDepth selector.toList ≠ 0)
    ⟨.invalidSelector, location, "unbalanced braces in selector"⟩

def validateEdge (e : EdgeDefinition) (location : String) : List ValidationError :=
  addErrorIf (e.source = "") (.missingField location "from") ++
    addErrorIf (e.target = "") (.missingField location "to") ++
    match e.condition with
    | some condition => validateSelectorSyntax condition (location ++ ".condition")
    | none => []

def forEdges (check : EdgeDefinition → String → List ValidationError) (flow : FlowDefinition yaml) :
    List ValidationError :=
  flow.edges.zipIdx.flatMap fun e => check e.1 ("edges[" ++ toString e.2 ++ "]")

def validateEdges (flow : FlowDefinition yaml) : List ValidationError := forEdges validateEdge flow

def validIds (flow : FlowDefinition yaml) : List String :=
  flow.nodes.map Prod.fst ++ flow.triggers.map fun t => t.id

def validateReference (isAlphanumeric : Char → Bool) (ids : List String) (e : EdgeDefinition)
    (location : String) : List ValidationError :=
  addErrorIf (e.fromNode isAlphanumeric ∉ ids)
      (.invalidReference (location ++ ".from") (e.fromNode isAlphanumeric)) ++
    addErrorIf (e.toNode isAlphanumeric ∉ ids)
      (.invalidReference (location ++ ".to") (e.toNode isAlphanumeric))

def validateReferences (isAlphanumeric : Char → Bool) (flow : FlowDefinition yaml) : List ValidationError :=
  forEdges (validateReference isAlphanumeric (validIds flow)) flow

def errors (isAlphanumeric : Char → Bool) (limits : ValidationLimits) (flow : FlowDefinition yaml) :
    List ValidationError :=
  validateLimits limits flow ++ validateMetadata flow ++ validateTriggers flow ++ validateNodes flow ++
    validateEdges flow ++ validateReferences isAlphanumeric flow

/-- `FlowValidator::with_limits(limits).validate(flow)`. -/
def validate (isAlphanumeric : Char → Bool) (limits : ValidationLimits) (flow : FlowDefinition yaml) :
    Except (List ValidationError) Unit :=
  if errors isAlphanumeric limits flow = [] then .ok () else .error (errors isAlphanumeric limits flow)

/-! ### What is accepted -/

/-- What later passes rely on: names are told apart, and edges lead between names of the flow. -/
structure Accepted (isAlphanumeric : Char → Bool) (flow : FlowDefinition yaml) : Prop where
  triggerIds : (flow.triggers.map fun t => t.id).Nodup
  apart : ∀ n ∈ flow.nodes, ∀ t ∈ flow.triggers, t.id ≠ n.1
  ends : ∀ e ∈ flow.edges,
    e.fromNode isAlphanumeric ∈ validIds flow ∧ e.toNode isAlphanumeric ∈ validIds flow

theorem validateTriggersFrom_ids (seen : List String) (idx : ℕ) (ts : List (TriggerDefinition yaml))
    (h : validateTriggersFrom seen idx ts = []) :
    (ts.map fun t => t.id).Nodup ∧ ∀ t ∈ ts, t.id ∉ seen := by
  induction ts generalizing seen idx with
  | nil => exact ⟨List.nodup_nil, fun t ht => absurd ht List.not_mem_nil⟩
  | cons t ts ih =>
    obtain ⟨htrigger, hrest⟩ := List.append_eq_nil_iff.mp h
    obtain ⟨hnodup, hfresh⟩ := ih _ _ hrest
    simp only [validateTrigger, List.append_eq_nil_iff, addErrorIf_nil] at htrigger
    refine ⟨?_, ?_⟩
    · rw [List.map_cons, List.nodup_cons]
      refine ⟨fun hmem => ?_, hnodup⟩
      obtain ⟨u, hu, heq⟩ := List.mem_map.mp hmem
      exact hfresh u hu (heq ▸ List.mem_cons_self)
    · intro u hu
      rcases List.mem_cons.mp hu with rfl | hu
      · exact htrigger.1.1.1
      · exact fun hseen => hfresh u hu (List.mem_cons_of_mem _ hseen)

theorem validateNodesFrom_apart (flow : FlowDefinition yaml) (seen : List String)
    (ns : List (String × NodeDefinition yaml)) (h : validateNodesFrom flow seen ns = []) :
    ∀ n ∈ ns, ∀ t ∈ flow.triggers, t.id ≠ n.1 := by
  induction ns generalizing seen with
  | nil => exact fun n hn => absurd hn List.not_mem_nil
  | cons m ns ih =>
    obtain ⟨hnode, hrest⟩ := List.append_eq_nil_iff.mp h
    simp only [validateNode, List.append_eq_nil_iff, List.flatMap_eq_nil_iff, addErrorIf_nil] at hnode
    intro n hn
    rcases List.mem_cons.mp hn with rfl | hn
    · exact hnode.1.1.2
    · exact ih _ hrest n hn

theorem forEdges_nil (check : EdgeDefinition → String → List ValidationError) (flow : FlowDefinition yaml)
    (h : forEdges check flow = []) : ∀ e ∈ flow.edges, ∃ location, check e location = [] := by
  intro e he
  obtain ⟨idx, hlt, rfl⟩ := List.getElem_of_mem he
  exact ⟨_, List.flatMap_eq_nil_iff.mp h (flow.edges[idx], idx) (List.mk_mem_zipIdx_iff_getElem?.mpr
    (List.getElem?_eq_getElem hlt))⟩

theorem validate_accepted (isAlphanumeric : Char → Bool) (limits : ValidationLimits)
    (flow : FlowDefinition yaml) (h : validate isAlphanumeric limits flow = .ok ()) :
    Accepted isAlphanumeric flow := by
  have hnone : errors isAlphanumeric limits flow = [] := by
    by_contra hsome
    rw [validate, if_neg hsome] at h
    cases h
  simp only [errors, List.append_eq_nil_iff] at hnone
  obtain ⟨⟨⟨⟨-, htriggers⟩, hnodes⟩, -⟩, hreferences⟩ := hnone
  refine ⟨(validateTriggersFrom_ids [] 0 _ htriggers).1, validateNodesFrom_apart flow [] _ hnodes, ?_⟩
  intro e he
  obtain ⟨location, hcheck⟩ := forEdges_nil _ flow hreferences e he
  simpa [validateReference] using hcheck

end Document.FlowValidator

end Xerv
