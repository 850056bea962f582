import Xerv.Loader.Wiring
import Xerv.Lib.Closure

/-!
# Validation for deployment (`xerv-executor/src/validation/pipeline.rs`)

The report joins the errors of the validator and of the builder with two checks of its own:
that a trigger is enabled, and that the enabled nodes can be reached from the enabled
triggers. The names of either kind are collected into hash sets, whose iteration orders are
parameters, as are the texts of errors (`Display`) and of lists of names (`Debug`).
-/

namespace Xerv
open Xerv.Lib

/-- An order in which the hash set of the strings of a list may be iterated. -/
structure SetOrder (elements : List String) where
  order : List String
  nodup : order.Nodup
  mem : ∀ s, s ∈ order ↔ s ∈ elements

namespace FlowDefinition

def enabledNodes (flow : FlowDefinition) : List String :=
  (flow.nodes.filter fun n => n.2.enabled).map Prod.fst

def enabledTriggers (flow : FlowDefinition) : List String :=
  (flow.triggers.filter fun t => t.enabled).map fun t => t.id

end FlowDefinition

/-! ### Reports -/

structure ValidationIssue where
  kind : String
  message : String
  location : Option String
  nodes : Option (List String)
  deriving DecidableEq, Repr

namespace ValidationIssue

def fromValidationError (error : ValidationError) : ValidationIssue :=
  ⟨error.kind.text, error.message, some error.location, none⟩

def new (kind message : String) : ValidationIssue := ⟨kind, message, none, none⟩

def withNodes (kind message : String) (nodes : List String) : ValidationIssue :=
  ⟨kind, message, none, some nodes⟩

end ValidationIssue

structure ValidationReport where
  valid : Bool
  errors : List ValidationIssue
  warnings : List ValidationIssue

/-- The texts of errors and of lists of names. -/
structure ReportTexts where
  display : XervError → String
  debug : List String → String

namespace Deployment

section
variable (isAlphanumeric : Char → Bool)

def collectValidationErrors {yaml : Yaml} (limits : ValidationLimits) (flow : Document.FlowDefinition yaml) :
    List ValidationIssue :=
  match Document.FlowValidator.validate isAlphanumeric limits flow with
  | .ok () => []
  | .error errors => errors.map .fromValidationError

def buildError (texts : ReportTexts) (flow : FlowDefinition) (order : List NodeId) : Option ValidationIssue :=
  match FlowBuilder.build isAlphanumeric flow order with
  | .ok _ => none
  | .error e => some (.new "BUILD_ERROR" (texts.display e))

/-- `from_enabled && to_enabled`, the sets being given by their orders. -/
def linked (nodes triggers : List String) (e : EdgeDefinition) : Bool :=
  (nodes.contains (e.fromNode isAlphanumeric) || triggers.contains (e.fromNode isAlphanumeric)) &&
    nodes.contains (e.toNode isAlphanumeric)

/-- One round of the loop that fills the adjacency lists. -/
def link (nodes triggers : List String) (t : Table String (List String)) (e : EdgeDefinition) :
    Table String (List String) :=
  if linked isAlphanumeric nodes triggers e then
    t.insert (e.fromNode isAlphanumeric)
      ((t (e.fromNode isAlphanumeric)).getD [] ++ [e.toNode isAlphanumeric])
  else t

def adjacency (flow : FlowDefinition) (nodes triggers : List String) : Table String (List String) :=
  flow.edges.foldl (link isAlphanumeric nodes triggers)
    ((nodes ++ triggers).foldl (fun t id => t.insert id ((t id).getD [])) Table.empty)

def children (flow : FlowDefinition) (nodes triggers : List String) (id : String) : List String :=
  (adjacency isAlphanumeric flow nodes triggers id).getD []

/-- The loop of `compute_reachability`; `none` where the fuel runs out. -/
def computeReachability (fuel : ℕ) (flow : FlowDefinition) (nodes triggers : List String) :
    Option (Keys String) :=
  closeLoop (children isAlphanumeric flow nodes triggers) fuel triggers Keys.empty

def validateForDeployment (texts : ReportTexts) {yaml : Yaml} (fuel : ℕ) (limits : ValidationLimits)
    (flow : Document.FlowDefinition yaml) (order : List NodeId) (nodes triggers : List String) :
    Option ValidationReport :=
  (computeReachability isAlphanumeric fuel flow.core nodes triggers).map fun reachable =>
    let unreachable := nodes.filter fun id => !reachable id
    let errors := collectValidationErrors isAlphanumeric limits flow ++
      (buildError isAlphanumeric texts flow.core order).toList ++
      (if triggers = [] then [.new "NO_TRIGGER" "Pipeline must have at least one enabled trigger"] else []) ++
      (if unreachable = [] then [] else [.withNodes "UNREACHABLE_NODES"
        ("Nodes unreachable from trigger: " ++ texts.debug unreachable) unreachable])
    ⟨errors.isEmpty, errors, []⟩

end

/-! ### Reachable nodes -/

section
variable {isAlphanumeric : Char → Bool}

theorem defaults_getD (ids : List String) (t : Table String (List String)) (id : String) :
    (ids.foldl (fun t id => t.insert id ((t id).getD [])) t id).getD [] = (t id).getD [] := by
  induction ids generalizing t with
  | nil => rfl
  | cons first ids ih =>
    rw [List.foldl_cons, ih]
    by_cases h : id = first
    · simp [h]
    · simp [h]

theorem mem_link (nodes triggers : List String) (t : Table String (List String)) (e : EdgeDefinition)
    (u w : String) : w ∈ (link isAlphanumeric nodes triggers t e u).getD [] ↔ w ∈ (t u).getD [] ∨
      (linked isAlphanumeric nodes triggers e = true ∧
        e.fromNode isAlphanumeric = u ∧ e.toNode isAlphanumeric = w) := by
  unfold link
  split
  · rename_i hlinked
    by_cases hu : u = e.fromNode isAlphanumeric
    · subst hu
      simp [hlinked, eq_comm]
    · have hu' : e.fromNode isAlphanumeric ≠ u := fun h => hu h.symm
      simp [hu, hu']
  · rename_i hlinked
    simp [hlinked]

theorem mem_children (flow : FlowDefinition) (nodes triggers : List String) (u w : String) :
    w ∈ children isAlphanumeric flow nodes triggers u ↔
      ∃ e ∈ flow.edges, linked isAlphanumeric nodes triggers e = true ∧
        e.fromNode isAlphanumeric = u ∧ e.toNode isAlphanumeric = w := by
  have hfold (es : List EdgeDefinition) (t : Table String (List String)) :
      w ∈ (es.foldl (link isAlphanumeric nodes triggers) t u).getD [] ↔ w ∈ (t u).getD [] ∨
        ∃ e ∈ es, linked isAlphanumeric nodes triggers e = true ∧
          e.fromNode isAlphanumeric = u ∧ e.toNode isAlphanumeric = w := by
    induction es generalizing t with
    | nil => simp
    | cons e es ih => rw [List.foldl_cons, ih, mem_link, List.exists_mem_cons_iff, or_assoc]
  refine (hfold flow.edges _).trans (or_iff_right ?_)
  rw [defaults_getD]
  exact List.not_mem_nil

variable (isAlphanumeric) in
/-- An edge whose two ends are enabled leads from `a` to `b`. -/
def Joined (flow : FlowDefinition) (a b : String) : Prop :=
  ∃ e ∈ flow.edges, flow.bothEnabled isAlphanumeric e = true ∧
    e.fromNode isAlphanumeric = a ∧ e.toNode isAlphanumeric = b

variable (isAlphanumeric) in
/-- A path of edges with enabled ends leads to `name` from an enabled trigger. -/
def Reachable (flow : FlowDefinition) (name : String) : Prop :=
  ∃ t ∈ flow.triggers, t.enabled = true ∧ Relation.ReflTransGen (Joined isAlphanumeric flow) t.id name

theorem mem_enabledTriggers (flow : FlowDefinition) (id : String) :
    id ∈ flow.enabledTriggers ↔ ∃ t ∈ flow.triggers, t.enabled = true ∧ t.id = id := by
  simp [FlowDefinition.enabledTriggers, and_assoc]

/-- An edge into a trigger is not followed, but the trigger is a start itself. -/
theorem reachedFrom_iff (flow : FlowDefinition) (nodes : SetOrder flow.enabledNodes)
    (triggers : SetOrder flow.enabledTriggers) (name : String) :
    ReachedFrom (children isAlphanumeric flow nodes.order triggers.order) triggers.order name ↔
      Reachable isAlphanumeric flow name := by
  have hnames (name : String) : name ∈ flow.names ↔ name ∈ flow.enabledTriggers ∨ name ∈ flow.enabledNodes := by
    rw [FlowDefinition.names_eq]
    exact List.mem_append
  have hlinked (e : EdgeDefinition) : linked isAlphanumeric nodes.order triggers.order e = true ↔
      flow.bothEnabled isAlphanumeric e = true ∧ e.toNode isAlphanumeric ∈ flow.enabledNodes := by
    rw [linked, flow.bothEnabled_iff, hnames, hnames]
    simp only [Bool.and_eq_true, Bool.or_eq_true, List.contains_iff_mem, nodes.mem, triggers.mem]
    tauto
  constructor
  · rintro ⟨s, hs, hpath⟩
    obtain ⟨t, ht, henabled, rfl⟩ := (mem_enabledTriggers flow s).mp ((triggers.mem s).mp hs)
    refine ⟨t, ht, henabled, Relation.ReflTransGen.mono ?_ _ _ hpath⟩
    intro u w hw
    obtain ⟨e, he, hlink, hends⟩ := (mem_children flow _ _ u w).mp hw
    exact ⟨e, he, ((hlinked e).mp hlink).1, hends⟩
  · rintro ⟨t, ht, henabled, hpath⟩
    have hstart (t : TriggerDefinition) (ht : t ∈ flow.triggers ∧ t.enabled = true) :
        t.id ∈ triggers.order :=
      (triggers.mem _).mpr ((mem_enabledTriggers flow t.id).mpr ⟨t, ht.1, ht.2, rfl⟩)
    induction hpath with
    | refl => exact ⟨t.id, hstart t ⟨ht, henabled⟩, .refl⟩
    | tail _ hstep ih =>
      obtain ⟨s, hs, hsu⟩ := ih
      obtain ⟨e, he, hboth, hfrom, hto⟩ := hstep
      have htarget := (hnames _).mp ((flow.bothEnabled_iff e).mp hboth).2
      rcases htarget with htrigger | hnode
      · rw [hto] at htrigger
        exact ⟨_, (triggers.mem _).mpr htrigger, .refl⟩
      · have hchild := (mem_children flow nodes.order triggers.order _ _).mpr
          ⟨e, he, (hlinked e).mpr ⟨hboth, hnode⟩, hfrom, hto⟩
        exact ⟨s, hs, hsu.tail hchild⟩

/-! ### The report -/

theorem collectValidationErrors_nil {yaml : Yaml} (limits : ValidationLimits)
    (flow : Document.FlowDefinition yaml) : collectValidationErrors isAlphanumeric limits flow = [] ↔
      Document.FlowValidator.validate isAlphanumeric limits flow = .ok () := by
  unfold collectValidationErrors Document.FlowValidator.validate
  by_cases h : Document.FlowValidator.errors isAlphanumeric limits flow = []
  · simp [h]
  · simp [h]

theorem buildError_none (texts : ReportTexts) (flow : FlowDefinition) (order : List NodeId) :
    buildError isAlphanumeric texts flow order = none ↔
      ∃ g, FlowBuilder.build isAlphanumeric flow order = .ok g := by
  unfold buildError
  cases FlowBuilder.build isAlphanumeric flow order with
  | error e => simp
  | ok g => simp

theorem enabledTriggers_nonempty (flow : FlowDefinition) (triggers : SetOrder flow.enabledTriggers) :
    triggers.order ≠ [] ↔ ∃ t ∈ flow.triggers, t.enabled = true := by
  constructor
  · intro h
    obtain ⟨id, hid⟩ := List.exists_mem_of_ne_nil _ h
    obtain ⟨t, ht, henabled, -⟩ := (mem_enabledTriggers flow id).mp ((triggers.mem id).mp hid)
    exact ⟨t, ht, henabled⟩
  · rintro ⟨t, ht, henabled⟩
    exact List.ne_nil_of_mem ((triggers.mem t.id).mpr ((mem_enabledTriggers flow t.id).mpr ⟨t, ht, henabled, rfl⟩))

theorem unreachable_nil (flow : FlowDefinition) (nodes : SetOrder flow.enabledNodes)
    (triggers : SetOrder flow.enabledTriggers) (reachable : Keys String)
    (h : ∀ id, reachable id = true ↔
      ReachedFrom (children isAlphanumeric flow nodes.order triggers.order) triggers.order id) :
    nodes.order.filter (fun id => !reachable id) = [] ↔
      ∀ n ∈ flow.nodes, n.2.enabled = true → Reachable isAlphanumeric flow n.1 := by
  have hid (id : String) : (!reachable id) = true ↔ ¬Reachable isAlphanumeric flow id := by
    rw [← reachedFrom_iff flow nodes triggers, ← h, Bool.not_eq_true', Bool.not_eq_true]
  rw [List.filter_eq_nil_iff]
  simp only [hid, not_not, nodes.mem]
  constructor
  · intro hall n hn henabled
    exact hall n.1 (List.mem_map_of_mem (List.mem_filter.mpr ⟨hn, henabled⟩))
  · intro hall id hmem
    obtain ⟨n, hn, rfl⟩ := List.mem_map.mp hmem
    exact hall n (List.mem_filter.mp hn).1 (List.mem_filter.mp hn).2

/-- For every flow, all limits and all orders of the hash maps: the loop over the reachable nodes ends, and the
report is valid if and only if the validator accepts the flow, the builder builds it, a trigger is enabled, and
every enabled node can be reached from an enabled trigger. -/
theorem deployment_exact (isAlphanumeric : Char → Bool) (texts : ReportTexts) {yaml : Yaml}
    (limits : ValidationLimits) (flow : Document.FlowDefinition yaml) (order : List NodeId)
    (nodes : SetOrder flow.core.enabledNodes) (triggers : SetOrder flow.core.enabledTriggers) :
    ∃ fuel report,
      (∀ more, validateForDeployment isAlphanumeric texts (fuel + more) limits flow order nodes.order
        triggers.order = some report) ∧
      (report.valid = true ↔
        Document.FlowValidator.validate isAlphanumeric limits flow = .ok () ∧
          (∃ g, FlowBuilder.build isAlphanumeric flow.core order = .ok g) ∧
          (∃ t ∈ flow.core.triggers, t.enabled = true) ∧
          ∀ n ∈ flow.core.nodes, n.2.enabled = true → Reachable isAlphanumeric flow.core n.1) := by
  have hleaf : ∀ id, id ∉ flow.core.edges.map (fun e => e.fromNode isAlphanumeric) →
      children isAlphanumeric flow.core nodes.order triggers.order id = [] := by
    intro id hid
    refine List.eq_nil_iff_forall_not_mem.mpr fun w hw => hid ?_
    obtain ⟨e, he, -, hfrom, -⟩ := (mem_children flow.core _ _ id w).mp hw
    exact List.mem_map.mpr ⟨e, he, hfrom⟩
  obtain ⟨fuel, reachable, hloop, hreachable⟩ := closeLoop_total _ _ hleaf triggers.order
  refine ⟨fuel, _, fun more => congrArg (Option.map _) (hloop more), ?_⟩
  rw [List.isEmpty_iff, List.append_eq_nil_iff, List.append_eq_nil_iff, List.append_eq_nil_iff,
    collectValidationErrors_nil, Option.toList_eq_nil_iff, buildError_none, and_assoc, and_assoc,
    ← enabledTriggers_nonempty flow.core triggers,
    ← unreachable_nil flow.core nodes triggers reachable hreachable]
  refine and_congr_right fun _ => and_congr_right fun _ => and_congr ?_ ?_
  · by_cases h : triggers.order = []
    · simp [h]
    · simp [h]
  · by_cases h : nodes.order.filter (fun id => !reachable id) = []
    · rw [if_pos h]
      exact iff_of_true rfl h
    · rw [if_neg h]
      exact iff_of_false (List.cons_ne_nil _ _) h

example (texts : ReportTexts) : validateForDeployment Char.isAlphanum texts 2 .default (oneEdge true) [0, 1]
    ["audit"] ["start"] = some ⟨true, [], []⟩ := rfl

end

end Deployment

end Xerv
