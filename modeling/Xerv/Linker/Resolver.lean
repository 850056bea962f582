import Xerv.Core.Types
import Xerv.Lib.Table
import Xerv.Linker.Parser
import Xerv.Schema.TypeInfo

/-!
# Static resolution of selectors (`xerv-executor/src/linker/resolver.rs`)

The linker walks from the schema of a port along the names of a selector and adds up the
offsets. It moves on to the schema of a field's type where the registry has one, and
stays where it is otherwise. Additions wrap as in a release build.
-/

namespace Xerv
open Xerv.Lib

/-- The variants of `XervError` that `compile` returns. -/
inductive LinkerError where
  | selectorResolution (selector : String) (nodeId : NodeId) (cause : String)
  | invalidPort (port : String) (nodeId : NodeId)
  | selectorTargetNotFound (field : String) (nodeId : NodeId)
  deriving DecidableEq, Repr

structure ResolvedField where
  name : String
  typeName : String
  offset : UInt64
  size : UInt64
  deriving DecidableEq, Repr

def FieldInfo.resolved (f : FieldInfo) : ResolvedField := ⟨f.name, f.typeName, f.offset, f.size⟩

inductive SelectorResolution where
  | static (totalOffset : UInt64) (finalType : String) (finalSize : UInt64) (fields : List ResolvedField)
  | dynamic (fieldPath : List String) (expectedType : Option String)
  deriving DecidableEq, Repr

structure CompiledSelector where
  selector : Selector
  sourceNode : NodeId
  sourcePort : String
  resolution : SelectorResolution
  deriving DecidableEq, Repr

structure NodeSchema where
  nodeId : NodeId
  nodeName : String
  outputSchemas : FiniteMap String TypeInfo
  isDynamic : Bool

structure Linker where
  nodeSchemas : Table String NodeSchema
  pipelineConfig : Option TypeInfo
  registry : SchemaRegistry
  dynamicNodes : Keys String

def Selector.isPipelineConfig (s : Selector) : Bool := s.root = "pipeline" && s.path.head? = some "config"

/-- The port that a path names, "out" where it names none, and the fields behind it. -/
def NodeSchema.portAndFields (node : NodeSchema) : List String → String × List String
  | [] => ("out", [])
  | first :: rest => if node.outputSchemas.contains first then (first, rest) else ("out", first :: rest)

namespace Linker

def new : Linker := ⟨Table.empty, none, .new, Keys.empty⟩

def registerNode (l : Linker) (name : String) (schema : NodeSchema) : Linker :=
  { l with
    dynamicNodes := if schema.isDynamic then l.dynamicNodes.insert name else l.dynamicNodes
    nodeSchemas := l.nodeSchemas.insert name schema }

def registerDynamicNode (l : Linker) (name : String) (nodeId : NodeId) : Linker :=
  { l with
    dynamicNodes := l.dynamicNodes.insert name
    nodeSchemas := l.nodeSchemas.insert name ⟨nodeId, name, ∅, true⟩ }

def registerPipelineConfig (l : Linker) (schema : TypeInfo) : Linker :=
  { l with pipelineConfig := some schema, registry := l.registry.register schema }

def registerSchema (l : Linker) (schema : TypeInfo) : Linker :=
  { l with registry := l.registry.register schema }

/-- The loop of `resolve_field_chain`. -/
def resolveFrom (registry : SchemaRegistry) :
    TypeInfo → List String → List ResolvedField → UInt64 → Except LinkerError (List ResolvedField × UInt64)
  | _, [], fields, totalOffset => .ok (fields, totalOffset)
  | current, name :: path, fields, totalOffset =>
    match current.getField name with
    | none => .error (.selectorTargetNotFound name 0)
    | some field =>
      match registry.get field.typeName with
      | some nested => resolveFrom registry nested path (fields ++ [field.resolved]) (totalOffset + field.offset)
      | none => resolveFrom registry current path (fields ++ [field.resolved]) (totalOffset + field.offset)

def resolveFieldChain (l : Linker) (schema : TypeInfo) (path : List String) :
    Except LinkerError (List ResolvedField × UInt64) := resolveFrom l.registry schema path [] 0

/-- The resolution at the end of `try_static_compile` and of `compile_pipeline_config`. -/
def staticResolution (schema : TypeInfo) (fields : List ResolvedField) (totalOffset : UInt64) : SelectorResolution :=
  match fields.getLast? with
  | some last => .static totalOffset last.typeName last.size fields
  | none => .static totalOffset schema.name schema.size fields

def tryStaticCompile (l : Linker) (s : Selector) : Except LinkerError CompiledSelector :=
  match l.nodeSchemas s.root with
  | none => .error (.selectorResolution s.raw 0 ("Unknown node: " ++ s.root))
  | some node =>
    if node.isDynamic ∧ node.outputSchemas.size = 0 then
      .error (.selectorResolution s.raw node.nodeId "Dynamic node - requires runtime resolution")
    else
      let (port, path) := node.portAndFields s.path
      match node.outputSchemas.get port with
      | none => .error (.invalidPort port node.nodeId)
      | some schema =>
        match l.resolveFieldChain schema path with
        | .error e => .error e
        | .ok (fields, totalOffset) =>
          .ok ⟨s, node.nodeId, port, staticResolution schema fields totalOffset⟩

def compileDynamic (l : Linker) (s : Selector) : CompiledSelector :=
  match l.nodeSchemas s.root with
  | none => ⟨s, 0, "out", .dynamic s.path none⟩
  | some node => ⟨s, node.nodeId, (node.portAndFields s.path).1, .dynamic (node.portAndFields s.path).2 none⟩

def compilePipelineConfig (l : Linker) (s : Selector) : Except LinkerError CompiledSelector :=
  match l.pipelineConfig with
  | none => .error (.selectorResolution s.raw 0 "Pipeline config not registered")
  | some schema =>
    match l.resolveFieldChain schema (s.path.drop 1) with
    | .error e => .error e
    | .ok (fields, totalOffset) => .ok ⟨s, 0, "__config__", staticResolution schema fields totalOffset⟩

def compile (l : Linker) (s : Selector) : Except LinkerError CompiledSelector :=
  if s.isPipelineConfig then l.compilePipelineConfig s
  else
    match l.tryStaticCompile s with
    | .ok compiled => .ok compiled
    | .error e => if l.dynamicNodes s.root then .ok (l.compileDynamic s) else .error e

end Linker

/-! ### Sound resolutions -/

/-- Every field lies within the schema, and one of a registered type has that type's size. -/
structure TypeInfo.WellFormed (registry : SchemaRegistry) (t : TypeInfo) : Prop where
  within : ∀ f ∈ t.fields, f.offset.toNat + f.size.toNat ≤ t.size.toNat
  nested : ∀ f ∈ t.fields, ∀ t', registry.get f.typeName = some t' → t'.size = f.size

structure Linker.WellFormed (l : Linker) : Prop where
  registered : ∀ name t, l.registry.get name = some t → t.WellFormed l.registry
  ports : ∀ root node port t, l.nodeSchemas root = some node → node.outputSchemas.get port = some t →
    t.WellFormed l.registry
  config : ∀ t, l.pipelineConfig = some t → t.WellFormed l.registry

/-- Each field is one of the schema of the type of the field before it. -/
def FieldChain (registry : SchemaRegistry) : TypeInfo → List ResolvedField → Prop
  | _, [] => True
  | t, r :: rest => (∃ f ∈ t.fields, f.resolved = r) ∧
    (rest = [] ∨ ∃ t', registry.get r.typeName = some t' ∧ FieldChain registry t' rest)

def offsetSum (fields : List ResolvedField) : ℕ := (fields.map fun r => r.offset.toNat).sum

def Linker.portSchema (l : Linker) (compiled : CompiledSelector) : Option TypeInfo :=
  if compiled.selector.isPipelineConfig then l.pipelineConfig
  else (l.nodeSchemas compiled.selector.root).bind fun node => node.outputSchemas.get compiled.sourcePort

/-- A static resolution of the selector leads through the schemas and stays within the port's. -/
def Linker.SoundFor (l : Linker) (s : Selector) : Prop :=
  ∀ compiled totalOffset finalType finalSize fields, l.compile s = .ok compiled →
    compiled.resolution = .static totalOffset finalType finalSize fields →
    ∃ schema, l.portSchema compiled = some schema ∧ FieldChain l.registry schema fields ∧
      totalOffset.toNat = offsetSum fields ∧ totalOffset.toNat + finalSize.toNat ≤ schema.size.toNat

/-! ### The walk -/

/-- The schema in which a selector's walk begins, and the names that it follows. -/
def Linker.startOf (l : Linker) (s : Selector) : Option (TypeInfo × List String) :=
  if s.isPipelineConfig then l.pipelineConfig.map fun t => (t, s.path.drop 1)
  else (l.nodeSchemas s.root).bind fun node =>
    (node.outputSchemas.get (node.portAndFields s.path).1).map fun t => (t, (node.portAndFields s.path).2)

/-- Every name is found where the walk stands when it comes to it. -/
def AllFound (registry : SchemaRegistry) : TypeInfo → List String → Prop
  | _, [] => True
  | t, name :: path => ∃ f, t.getField name = some f ∧ AllFound registry ((registry.get f.typeName).getD t) path

/-- The names lead to a field of unregistered type and go on, and yet all of them are found. -/
inductive GoesAstray (registry : SchemaRegistry) : TypeInfo → List String → Prop where
  | here {t name f path} (hfield : t.getField name = some f) (hplain : registry.get f.typeName = none)
    (hmore : path ≠ []) (hfound : AllFound registry t path) : GoesAstray registry t (name :: path)
  | later {t name f t' path} (hfield : t.getField name = some f) (hnested : registry.get f.typeName = some t')
    (hlater : GoesAstray registry t' path) : GoesAstray registry t (name :: path)

theorem offsetSum_cons (r : ResolvedField) (fields : List ResolvedField) :
    offsetSum (r :: fields) = r.offset.toNat + offsetSum fields := by
  rw [offsetSum, List.map_cons, List.sum_cons]
  rfl

section
variable {registry : SchemaRegistry} {t : TypeInfo} {name : String} {path : List String} {f : FieldInfo}

theorem GoesAstray.allFound (h : GoesAstray registry t path) : AllFound registry t path := by
  induction h with
  | here hfield hplain _ hfound => exact ⟨_, hfield, by rw [hplain]; exact hfound⟩
  | later hfield hnested _ ih => exact ⟨_, hfield, by rw [hnested]; exact ih⟩

theorem goesAstray_nested {t' : TypeInfo} (hfield : t.getField name = some f)
    (hnested : registry.get f.typeName = some t') :
    GoesAstray registry t (name :: path) ↔ GoesAstray registry t' path := by
  constructor
  · intro h
    cases h with
    | here hfield' hplain =>
      cases hfield.symm.trans hfield'
      cases hnested.symm.trans hplain
    | later hfield' hnested' hlater =>
      cases hfield.symm.trans hfield'
      cases hnested.symm.trans hnested'
      exact hlater
  · exact .later hfield hnested

theorem goesAstray_plain (hfield : t.getField name = some f) (hplain : registry.get f.typeName = none) :
    GoesAstray registry t (name :: path) ↔ path ≠ [] ∧ AllFound registry t path := by
  constructor
  · intro h
    cases h with
    | here _ _ hmore hfound => exact ⟨hmore, hfound⟩
    | later hfield' hnested =>
      cases hfield.symm.trans hfield'
      cases hplain.symm.trans hnested
  · rintro ⟨hmore, hfound⟩
    exact .here hfield hplain hmore hfound

theorem fieldChain_nested {t' : TypeInfo} (hfield : f ∈ t.fields) (hnested : registry.get f.typeName = some t')
    (rest : List ResolvedField) : FieldChain registry t (f.resolved :: rest) ↔ FieldChain registry t' rest := by
  constructor
  · rintro ⟨-, rfl | ⟨t'', ht'', hrest⟩⟩
    · exact trivial
    · cases hnested.symm.trans ht''
      exact hrest
  · exact fun hrest => ⟨⟨f, hfield, rfl⟩, .inr ⟨t', hnested, hrest⟩⟩

theorem fieldChain_plain (hfield : f ∈ t.fields) (hplain : registry.get f.typeName = none)
    (rest : List ResolvedField) : FieldChain registry t (f.resolved :: rest) ↔ rest = [] := by
  constructor
  · rintro ⟨-, hend | ⟨t', ht', -⟩⟩
    · exact hend
    · cases hplain.symm.trans ht'
  · exact fun hend => ⟨⟨f, hfield, rfl⟩, .inl hend⟩

end

namespace Linker
variable {registry : SchemaRegistry}

theorem resolveFrom_cons {t : TypeInfo} {name : String} {f : FieldInfo} (hfield : t.getField name = some f)
    (path : List String) (before : List ResolvedField) (start : UInt64) :
    resolveFrom registry t (name :: path) before start =
      resolveFrom registry ((registry.get f.typeName).getD t) path (before ++ [f.resolved]) (start + f.offset) := by
  rw [resolveFrom, hfield]
  cases hnested : registry.get f.typeName with
  | some t' => simp [hnested]
  | none => simp [hnested]

/-- What the loop returns. -/
theorem resolveFrom_ok (path : List String) (t : TypeInfo) (before fields : List ResolvedField)
    (start totalOffset : UInt64) (h : resolveFrom registry t path before start = .ok (fields, totalOffset)) :
    AllFound registry t path ∧ ∃ later, fields = before ++ later ∧ (later = [] ↔ path = []) ∧
      totalOffset = start + UInt64.ofNat (offsetSum later) ∧
      (FieldChain registry t later ↔ ¬GoesAstray registry t path) := by
  induction path generalizing t before start with
  | nil =>
    cases h
    exact ⟨trivial, [], (List.append_nil _).symm, iff_of_true rfl rfl, by simp [offsetSum],
      iff_of_true trivial nofun⟩
  | cons name path ih =>
    cases hfield : t.getField name with
    | none =>
      rw [resolveFrom, hfield] at h
      cases h
    | some f =>
      rw [resolveFrom_cons hfield] at h
      obtain ⟨hmem, -⟩ := TypeInfo.getField_some hfield
      obtain ⟨hfound, later, rfl, hnil, rfl, hchain⟩ := ih _ _ _ h
      have hsum : start + f.offset + UInt64.ofNat (offsetSum later) =
          start + UInt64.ofNat (offsetSum (f.resolved :: later)) := by
        have hoffset : UInt64.ofNat f.resolved.offset.toNat = f.offset := UInt64.ofNat_toNat
        rw [offsetSum_cons, UInt64.ofNat_add, hoffset, UInt64.add_assoc]
      refine ⟨⟨f, hfield, hfound⟩, f.resolved :: later, by simp, by simp, hsum, ?_⟩
      cases hnested : registry.get f.typeName with
      | some t' =>
        rw [fieldChain_nested hmem hnested, goesAstray_nested hfield hnested]
        rwa [hnested] at hchain
      | none =>
        rw [hnested] at hfound
        rw [fieldChain_plain hmem hnested, goesAstray_plain hfield hnested, hnil, not_and]
        exact ⟨fun hend hmore => absurd hend hmore, fun h => by_contra fun hmore => h hmore hfound⟩

theorem resolveFrom_found (path : List String) (t : TypeInfo) (before : List ResolvedField) (start : UInt64)
    (h : AllFound registry t path) : ∃ result, resolveFrom registry t path before start = .ok result := by
  induction path generalizing t before start with
  | nil => exact ⟨_, rfl⟩
  | cons name path ih =>
    obtain ⟨f, hfield, hfound⟩ := h
    rw [resolveFrom_cons hfield]
    exact ih _ _ _ hfound

/-- A chain of fields stays within the schema it starts in. -/
theorem chain_within (hregistered : ∀ name t, registry.get name = some t → t.WellFormed registry)
    (fields : List ResolvedField) (last : ResolvedField) (t : TypeInfo) (ht : t.WellFormed registry)
    (hchain : FieldChain registry t fields) (hlast : fields.getLast? = some last) :
    offsetSum fields + last.size.toNat ≤ t.size.toNat := by
  induction fields generalizing t with
  | nil => cases hlast
  | cons r rest ih =>
    obtain ⟨⟨f, hf, rfl⟩, hrest⟩ := hchain
    have hwithin := ht.within f hf
    rw [offsetSum_cons]
    cases rest with
    | nil =>
      cases hlast
      exact hwithin
    | cons r' rest =>
      obtain ⟨t', ht', hchain'⟩ := hrest.resolve_left (List.cons_ne_nil _ _)
      have hsize := ht.nested f hf t' ht'
      have hlater := ih t' (hregistered _ t' ht') hchain' hlast
      rw [hsize] at hlater
      have hoffset : f.resolved.offset.toNat = f.offset.toNat := rfl
      omega

/-! ### Compilation -/

theorem staticResolution_eq {schema : TypeInfo} {walked fields : List ResolvedField} {sum totalOffset finalSize : UInt64}
    {finalType : String} (h : staticResolution schema walked sum = .static totalOffset finalType finalSize fields) :
    walked = fields ∧ sum = totalOffset ∧
      finalSize = match fields.getLast? with
        | some last => last.size
        | none => schema.size := by
  unfold staticResolution at h
  split at h
  · rename_i last hlast
    cases h
    exact ⟨rfl, rfl, by rw [hlast]⟩
  · rename_i hlast
    cases h
    exact ⟨rfl, rfl, by rw [hlast]⟩

section
variable {l : Linker} {s : Selector} {compiled : CompiledSelector}

theorem compilePipelineConfig_ok (h : l.compilePipelineConfig s = .ok compiled) :
    ∃ schema fields totalOffset, l.pipelineConfig = some schema ∧
      resolveFrom l.registry schema (s.path.drop 1) [] 0 = .ok (fields, totalOffset) ∧
      compiled = ⟨s, 0, "__config__", staticResolution schema fields totalOffset⟩ := by
  unfold compilePipelineConfig at h
  split at h
  · cases h
  · rename_i schema hschema
    split at h
    · cases h
    · rename_i fields totalOffset hwalk
      cases h
      exact ⟨schema, fields, totalOffset, hschema, hwalk, rfl⟩

theorem tryStaticCompile_ok (h : l.tryStaticCompile s = .ok compiled) :
    ∃ node schema fields totalOffset, l.nodeSchemas s.root = some node ∧
      node.outputSchemas.get (node.portAndFields s.path).1 = some schema ∧
      resolveFrom l.registry schema (node.portAndFields s.path).2 [] 0 = .ok (fields, totalOffset) ∧
      compiled = ⟨s, node.nodeId, (node.portAndFields s.path).1, staticResolution schema fields totalOffset⟩ := by
  unfold tryStaticCompile at h
  split at h
  · cases h
  · rename_i node hnode
    split at h
    · cases h
    · dsimp only at h
      split at h
      · cases h
      · rename_i schema hschema
        split at h
        · cases h
        · rename_i fields totalOffset hwalk
          cases h
          exact ⟨node, schema, fields, totalOffset, hnode, hschema, hwalk, rfl⟩

theorem compileDynamic_resolution (l : Linker) (s : Selector) :
    ∃ path, (l.compileDynamic s).resolution = .dynamic path none := by
  unfold compileDynamic
  split
  · exact ⟨_, rfl⟩
  · exact ⟨_, rfl⟩

theorem compile_static {totalOffset finalSize : UInt64} {finalType : String} {fields : List ResolvedField}
    (hcompile : l.compile s = .ok compiled)
    (hstatic : compiled.resolution = .static totalOffset finalType finalSize fields) :
    ∃ schema path, l.startOf s = some (schema, path) ∧ l.portSchema compiled = some schema ∧
      resolveFrom l.registry schema path [] 0 = .ok (fields, totalOffset) ∧
      staticResolution schema fields totalOffset = .static totalOffset finalType finalSize fields := by
  unfold compile at hcompile
  split at hcompile
  · rename_i hconfig
    obtain ⟨schema, walked, sum, hschema, hwalk, rfl⟩ := compilePipelineConfig_ok hcompile
    obtain ⟨rfl, rfl, -⟩ := staticResolution_eq hstatic
    refine ⟨schema, s.path.drop 1, ?_, ?_, hwalk, hstatic⟩
    · rw [startOf, if_pos hconfig, hschema]
      rfl
    · rw [portSchema, if_pos hconfig, hschema]
  · rename_i hplain
    split at hcompile
    · rename_i compiled' htry
      cases hcompile
      obtain ⟨node, schema, walked, sum, hnode, hschema, hwalk, rfl⟩ := tryStaticCompile_ok htry
      obtain ⟨rfl, rfl, -⟩ := staticResolution_eq hstatic
      refine ⟨schema, (node.portAndFields s.path).2, ?_, ?_, hwalk, hstatic⟩
      · rw [startOf, if_neg hplain, hnode, Option.bind_some, hschema]
        rfl
      · rw [portSchema, if_neg hplain, hnode, Option.bind_some, hschema]
    · split at hcompile
      · cases hcompile
        obtain ⟨path, hdynamic⟩ := compileDynamic_resolution l s
        rw [hdynamic] at hstatic
        cases hstatic
      · cases hcompile

end

theorem compile_of_found {l : Linker} {s : Selector} {schema : TypeInfo} {path : List String}
    (hstart : l.startOf s = some (schema, path)) (hfound : AllFound l.registry schema path) :
    ∃ compiled fields totalOffset, l.compile s = .ok compiled ∧
      resolveFrom l.registry schema path [] 0 = .ok (fields, totalOffset) ∧
      compiled.resolution = staticResolution schema fields totalOffset := by
  obtain ⟨⟨fields, totalOffset⟩, hwalk⟩ := resolveFrom_found path schema [] 0 hfound
  unfold startOf at hstart
  unfold compile
  split at hstart
  · rename_i hconfig
    obtain ⟨schema', hschema, heq⟩ := Option.map_eq_some_iff.mp hstart
    cases heq
    rw [if_pos hconfig, compilePipelineConfig, hschema]
    dsimp only
    rw [resolveFieldChain, hwalk]
    exact ⟨_, fields, totalOffset, rfl, rfl, rfl⟩
  · rename_i hplain
    obtain ⟨node, hnode, hport⟩ := Option.bind_eq_some_iff.mp hstart
    obtain ⟨schema', hschema, heq⟩ := Option.map_eq_some_iff.mp hport
    cases heq
    have hports : ¬(node.isDynamic = true ∧ node.outputSchemas.size = 0) := by
      rintro ⟨-, hsize⟩
      have hpos := node.outputSchemas.size_pos hschema
      omega
    have htry : l.tryStaticCompile s = .ok ⟨s, node.nodeId, (node.portAndFields s.path).1,
        staticResolution schema fields totalOffset⟩ := by
      unfold tryStaticCompile
      rw [hnode]
      dsimp only
      rw [if_neg hports, hschema]
      dsimp only
      rw [resolveFieldChain, hwalk]
    rw [if_neg hplain, htry]
    exact ⟨_, fields, totalOffset, rfl, hwalk, rfl⟩

theorem startOf_wellFormed {l : Linker} (hl : l.WellFormed) {s : Selector} {schema : TypeInfo} {path : List String}
    (h : l.startOf s = some (schema, path)) : schema.WellFormed l.registry := by
  unfold startOf at h
  split at h
  · obtain ⟨schema', hschema, heq⟩ := Option.map_eq_some_iff.mp h
    cases heq
    exact hl.config _ hschema
  · obtain ⟨node, hnode, hport⟩ := Option.bind_eq_some_iff.mp h
    obtain ⟨schema', hschema, heq⟩ := Option.map_eq_some_iff.mp hport
    cases heq
    exact hl.ports _ _ _ _ hnode hschema

/-- In a linker with well-formed schemas, the static resolutions of a selector are sound if and only if its
names do not go on behind a field of unregistered type with all of them found. -/
theorem soundFor_iff (l : Linker) (hl : l.WellFormed) (s : Selector) :
    l.SoundFor s ↔ ¬∃ schema path, l.startOf s = some (schema, path) ∧ GoesAstray l.registry schema path := by
  constructor
  · rintro hsound ⟨schema, path, hstart, hastray⟩
    obtain ⟨compiled, fields, totalOffset, hcompile, hwalk, hresolution⟩ := compile_of_found hstart hastray.allFound
    obtain ⟨finalType, finalSize, hstatic⟩ : ∃ finalType finalSize,
        compiled.resolution = .static totalOffset finalType finalSize fields := by
      rw [hresolution, staticResolution]
      split
      · exact ⟨_, _, rfl⟩
      · exact ⟨_, _, rfl⟩
    obtain ⟨schema', path', hstart', hport', -, -⟩ := compile_static hcompile hstatic
    cases hstart.symm.trans hstart'
    obtain ⟨schema', hport, hfields, -⟩ := hsound compiled _ _ _ _ hcompile hstatic
    cases hport.symm.trans hport'
    obtain ⟨-, later, rfl, -, -, hchain⟩ := resolveFrom_ok path schema [] fields 0 totalOffset hwalk
    exact hchain.mp hfields hastray
  · intro hnone compiled totalOffset finalType finalSize fields hcompile hstatic
    obtain ⟨schema, path, hstart, hport, hwalk, hresolution⟩ := compile_static hcompile hstatic
    obtain ⟨-, later, rfl, -, hsum, hchain⟩ := resolveFrom_ok path schema [] fields 0 totalOffset hwalk
    have hfields := hchain.mpr fun hastray => hnone ⟨schema, path, hstart, hastray⟩
    obtain ⟨-, -, hfinal⟩ := staticResolution_eq hresolution
    have hwithin : offsetSum fields + finalSize.toNat ≤ schema.size.toNat := by
      rw [hfinal]
      cases hlast : fields.getLast? with
      | none =>
        rw [List.getLast?_eq_none_iff.mp hlast]
        exact Nat.le_of_eq (Nat.zero_add _)
      | some last => exact chain_within hl.registered fields last schema (startOf_wellFormed hl hstart) hfields hlast
    have hexact : totalOffset.toNat = offsetSum fields := by
      have hlt := schema.size.toNat_lt_size
      rw [hsum, UInt64.zero_add]
      exact UInt64.toNat_ofNat_of_lt' (by omega)
    exact ⟨schema, hport, hfields, hexact, by omega⟩

end Linker

def fraudResult : TypeInfo :=
  { TypeInfo.new "FraudResult" 1 with
    size := 16
    fields := [⟨"score", "f32", 0, 4, false⟩, ⟨"flags", "u32", 8, 4, false⟩] }

def fraudLinker : Linker :=
  Linker.new.registerNode "fraud_check" ⟨1, "fraud_check", FiniteMap.insert ∅ "out" fraudResult, false⟩

namespace Linker

theorem fraudLinker_wellFormed : fraudLinker.WellFormed where
  registered name t h := nomatch h
  config t h := nomatch h
  ports root node port t hnode hport := by
    have hroot : root = "fraud_check" := by
      by_contra hne
      rw [show fraudLinker.nodeSchemas root = none from Table.insert_ne _ _ hne] at hnode
      cases hnode
    rw [hroot] at hnode
    cases hnode
    obtain ⟨-, rfl⟩ | ⟨-, hnone⟩ := FiniteMap.get_insert_some _ hport
    · exact ⟨by decide, fun f hf t' ht' => nomatch ht'⟩
    · cases hnone

/-- The type of `flags` is a primitive one, so the walk stays where it is and finds `flags` again. -/
theorem flags_twice :
    fraudLinker.WellFormed ∧
      fraudLinker.compile (.new "fraud_check" ["flags", "flags"]) =
        .ok ⟨.new "fraud_check" ["flags", "flags"], 1, "out",
          .static 16 "u32" 4 [⟨"flags", "u32", 8, 4⟩, ⟨"flags", "u32", 8, 4⟩]⟩ ∧
      ¬fraudLinker.SoundFor (.new "fraud_check" ["flags", "flags"]) := by
  have hcompile : fraudLinker.compile (.new "fraud_check" ["flags", "flags"]) =
      .ok ⟨.new "fraud_check" ["flags", "flags"], 1, "out",
        .static 16 "u32" 4 [⟨"flags", "u32", 8, 4⟩, ⟨"flags", "u32", 8, 4⟩]⟩ := by
    decide
  refine ⟨fraudLinker_wellFormed, hcompile, fun hsound => ?_⟩
  obtain ⟨schema, hport, -, -, hwithin⟩ := hsound _ _ _ _ _ hcompile rfl
  cases hport
  exact absurd hwithin (by decide)

end Linker

def addressType : TypeInfo :=
  { TypeInfo.new "Address" 1 with
    size := 8
    fields := [⟨"city", "u32", 0, 4, false⟩, ⟨"zip", "u32", 4, 4, false⟩] }

def orderType : TypeInfo :=
  { TypeInfo.new "Order" 1 with
    size := 16
    fields := [⟨"total", "f64", 0, 8, false⟩, ⟨"address", "Address@v1", 8, 8, false⟩] }

def orderLinker : Linker :=
  (Linker.new.registerSchema addressType).registerNode "order" ⟨1, "order", FiniteMap.insert ∅ "out" orderType, false⟩

namespace Linker

theorem orderLinker_wellFormed : orderLinker.WellFormed where
  registered name t h := by
    obtain ⟨-, rfl⟩ | ⟨-, hnone⟩ := FiniteMap.get_insert_some _ h
    · exact ⟨by decide, by decide⟩
    · cases hnone
  config t h := nomatch h
  ports root node port t hnode hport := by
    have hroot : root = "order" := by
      by_contra hne
      rw [show orderLinker.nodeSchemas root = none from Table.insert_ne _ _ hne] at hnode
      cases hnode
    rw [hroot] at hnode
    cases hnode
    obtain ⟨-, rfl⟩ | ⟨-, hnone⟩ := FiniteMap.get_insert_some _ hport
    · exact ⟨by decide, by decide⟩
    · cases hnone

theorem address_sound :
    orderLinker.compile (.new "order" ["address", "zip"]) =
        .ok ⟨.new "order" ["address", "zip"], 1, "out",
          .static 12 "u32" 4 [⟨"address", "Address@v1", 8, 8⟩, ⟨"zip", "u32", 4, 4⟩]⟩ ∧
      orderLinker.SoundFor (.new "order" ["address", "zip"]) := by
  refine ⟨by decide, (soundFor_iff orderLinker orderLinker_wellFormed _).mpr ?_⟩
  rintro ⟨schema, path, hstart, hastray⟩
  have horder : orderLinker.startOf (.new "order" ["address", "zip"]) = some (orderType, ["address", "zip"]) := rfl
  rw [horder] at hstart
  cases hstart
  have hnested : GoesAstray orderLinker.registry addressType ["zip"] := (goesAstray_nested rfl rfl).mp hastray
  exact ((goesAstray_plain rfl rfl).mp hnested).1 rfl

end Linker

end Xerv
