import Xerv.Nodes.JsonDynamic

/-!
# Field transformation (`map.rs`)

`set_path_value` of the map node writes a path into a map, `set_path_recursive` of the JSON node into a value.
The one looks at what stands in its way before it descends, the other after; both write the same.
-/

namespace Xerv
open JsonDynamicNode

structure FieldMapping where
  from_ : String
  to_ : String
  default : Option Json

structure MapNode where
  mappings : List FieldMapping
  passthrough : Bool

namespace FieldMapping

def new (source target : String) : FieldMapping := ⟨source, target, none⟩

def rename (source target : String) : FieldMapping := new source target

def extract (nestedPath outputName : String) : FieldMapping := new nestedPath outputName

def withDefault (m : FieldMapping) (default : Json) : FieldMapping := { m with default := some default }

end FieldMapping

namespace MapNode

def new (mappings : List FieldMapping) : MapNode := ⟨mappings, false⟩

def empty : MapNode := ⟨[], false⟩

def withMapping (node : MapNode) (mapping : FieldMapping) : MapNode :=
  { node with mappings := node.mappings ++ [mapping] }

def rename (node : MapNode) (source target : String) : MapNode := node.withMapping (.rename source target)

def withPassthrough (node : MapNode) : MapNode := { node with passthrough := true }

def setPathValue (map : JsonMap) : List String → Json → JsonMap
  | [], _ => map
  | key :: rest, value =>
    if rest = [] then map.insert key value
    else
      match (map.get key).getD (.object []) with
      | .object obj => map.insert key (.object (setPathValue obj rest value))
      -- another value is overwritten
      | _ => map.insert key (.object (setPathValue [] rest value))

def setNestedField (output : JsonMap) (path : String) (value : Json) : JsonMap :=
  setPathValue output (Json.splitPath path) value

def applyMapping (input : Json) (output : JsonMap) (mapping : FieldMapping) : JsonMap :=
  match (input.getField mapping.from_).or mapping.default with
  | some value => setNestedField output mapping.to_ value
  | none => output

def applyMappings (node : MapNode) (input : Json) : Json :=
  let output : JsonMap :=
    match node.passthrough, input with
    | true, .object obj => obj.foldl (fun output f => output.insert f.1 f.2) []
    | _, _ => []
  .object (node.mappings.foldl (applyMapping input) output)

end MapNode

/-- What the JSON node makes of any value is the object that the map node writes into. -/
theorem setPathRecursive_into {v : Json} {map : JsonMap} (hv : v.asObject = .object map) {parts : List String}
    (hparts : parts ≠ []) (value : Json) :
    setPathRecursive v parts value = .object (MapNode.setPathValue map parts value) := by
  induction parts generalizing v map with
  | nil => exact absurd rfl hparts
  | cons key rest ih =>
    rw [setPathRecursive, MapNode.setPathValue, hv]
    by_cases hrest : rest = []
    · rw [if_pos hrest, if_pos hrest]
      rfl
    · rw [if_neg hrest, if_neg hrest]
      change (Json.object map).insert key (setPathRecursive ((map.get key).getD (.object [])) rest value) = _
      cases (map.get key).getD (.object []) with
      | object obj =>
        rw [@ih (.object obj) obj rfl hrest]
        rfl
      | _ =>
        rw [ih rfl hrest]
        rfl

/-- For every object, every list of parts and every value both writers produce the same object. -/
theorem writers_agree (map : JsonMap) (parts : List String) (value : Json) :
    setPathRecursive (.object map) parts value = .object (MapNode.setPathValue map parts value) := by
  by_cases hparts : parts = []
  · rw [hparts]
    rfl
  · exact setPathRecursive_into rfl hparts value

end Xerv
