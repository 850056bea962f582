import Xerv.Core.Value

/-!
# Schemaless JSON (`json_dynamic.rs`)

`get_field` reads a path without its `$.` and with its indices; the node writes a path by its parts between
the dots. Where both take a path alike, and no array is in the way, the two follow the laws of reading and
writing at a place.
-/

namespace Xerv
open Xerv.Lib

inductive JsonOperation where
  | passthrough
  | extract (fields : List String)
  | merge
  | set (path : String) (value : Json)
  | delete (path : String)
  | flatten (separator : String)

structure JsonDynamicNode where
  operation : JsonOperation
  requiredFields : List String

namespace Json

/-- `Map::remove`. -/
def remove (v : Json) (key : String) : Json :=
  match v with
  | object fields => object (fields.filter fun f => f.1 ≠ key)
  | v => v

/-- `path.split('.')`. -/
def splitPath (path : String) : List String := (path.toList.splitOn '.').map String.ofList

def asObject : Json → Json
  | object fields => object fields
  | _ => object []

end Json

namespace JsonDynamicNode
open Json

def passthrough : JsonDynamicNode := ⟨.passthrough, []⟩

def extract (fields : List String) : JsonDynamicNode := ⟨.extract fields, []⟩

def merge : JsonDynamicNode := ⟨.merge, []⟩

def set (path : String) (value : Json) : JsonDynamicNode := ⟨.set path value, []⟩

def delete (path : String) : JsonDynamicNode := ⟨.delete path, []⟩

def flatten (separator : String) : JsonDynamicNode := ⟨.flatten separator, []⟩

def withRequired (node : JsonDynamicNode) (fields : List String) : JsonDynamicNode :=
  { node with requiredFields := fields }

def setPathRecursive (obj : Json) : List String → Json → Json
  | [], _ => obj
  | key :: rest, value =>
    if rest = [] then obj.asObject.insert key value
    else
      -- `entry(key).or_insert_with(..)`
      obj.asObject.insert key (setPathRecursive ((obj.asObject.get key).getD (object [])) rest value)

def setPath (obj : Json) (path : String) (value : Json) : Json := setPathRecursive obj (splitPath path) value

def deletePathRecursive (obj : Json) : List String → Json
  | [] => obj
  | key :: rest =>
    match obj with
    | object fields =>
      if rest = [] then (object fields).remove key
      else
        match (object fields).get key with
        | some next => (object fields).insert key (deletePathRecursive next rest)
        | none => object fields
    | obj => obj

def deletePath (obj : Json) (path : String) : Json := deletePathRecursive obj (splitPath path)

/-- The key of a nested value. -/
def newPrefix (separator pre key : String) : String := if pre = "" then key else pre ++ separator ++ key

/-- `format!("{}", i)`. -/
def indexText (i : ℕ) : String := String.ofList (padded 10 1 i)

mutual

def flattenRecursive (separator : String) : Json → String → Json → Json
  | object fields, pre, output => flattenFields separator fields pre output
  | array items, pre, output => flattenItems separator items 0 pre output
  | v, pre, output => output.insert pre v

def flattenFields (separator : String) : List (String × Json) → String → Json → Json
  | [], _, output => output
  | (key, v) :: fields, pre, output =>
    flattenFields separator fields pre (flattenRecursive separator v (newPrefix separator pre key) output)

def flattenItems (separator : String) : List Json → ℕ → String → Json → Json
  | [], _, _, output => output
  | v :: items, i, pre, output =>
    flattenItems separator items (i + 1) pre
      (flattenRecursive separator v (newPrefix separator pre (indexText i)) output)

end

/-- The fields of one more item, each in place of an earlier one of its name. -/
def mergeItem (merged : Json) : Json → Json
  | object fields => fields.foldl (fun merged f => merged.insert f.1 f.2) merged
  | _ => merged

def extractField (input output : Json) (field : String) : Json :=
  match input.getField field with
  | some value => output.insert ((splitPath field).getLast?.getD field) value
  | none => output

def process (node : JsonDynamicNode) (input : Json) : Except String Json :=
  match node.requiredFields.find? fun field => (input.getField field).isNone with
  | some field => .error ("Required field '" ++ field ++ "' is missing")
  | none =>
    match node.operation with
    | .passthrough => .ok input
    | .extract fields => .ok (fields.foldl (extractField input) (object []))
    | .merge =>
      match input with
      | array items => .ok (items.foldl mergeItem (object []))
      | object fields => .ok (object fields)
      | _ => .error "Merge requires object or array of objects"
    | .set path value => .ok (setPath input path value)
    | .delete path => .ok (deletePath input path)
    | .flatten separator => .ok (flattenRecursive separator input "" (object []))

end JsonDynamicNode

theorem splitPath_ne_nil (path : String) : Json.splitPath path ≠ [] :=
  fun h => List.splitOn_ne_nil '.' path.toList (List.map_eq_nil_iff.mp h)

/-! ### Reading at a place -/

inductive PathStep where
  | key (name : String)
  | index (i : ℕ)
  deriving DecidableEq, Repr

def stepsOfPart (part : List Char) : Option (List PathStep) :=
  match splitAtText ['['] part with
  | some (field, index) => do
    let digits ← stripSuffix [']'] index
    let i ← parseBelow (2 ^ 64) digits
    some [.key (String.ofList field), .index i]
  | none => some [.key (String.ofList part)]

def readParts (path : String) : List (List Char) :=
  ((stripPrefix ['$', '.'] path.toList).getD path.toList).splitOn '.'

/-- The steps of a path, where `get_field` accepts its syntax. -/
def pathSteps (path : String) : Option (List PathStep) := ((readParts path).mapM stepsOfPart).map List.flatten

/-- Neither place is below the other or the same. -/
def Unrelated (p q : List PathStep) : Prop := ¬ p <+: q ∧ ¬ q <+: p

theorem Unrelated.symm {p q : List PathStep} (h : Unrelated p q) : Unrelated q p := ⟨h.2, h.1⟩

theorem Unrelated.parts_ne_nil {p : List PathStep} {parts : List String} (h : Unrelated p (parts.map .key)) :
    parts ≠ [] := by
  rintro rfl
  exact h.2 List.nil_prefix

theorem unrelated_cons (s : PathStep) (p q : List PathStep) : Unrelated (s :: p) (s :: q) ↔ Unrelated p q := by
  unfold Unrelated
  rw [List.prefix_cons_inj, List.prefix_cons_inj]

theorem unrelated_append (above p q : List PathStep) : Unrelated (above ++ p) (above ++ q) ↔ Unrelated p q := by
  unfold Unrelated
  rw [List.prefix_append_right_inj, List.prefix_append_right_inj]

theorem unrelated_of_head_ne {s t : PathStep} (h : s ≠ t) (p q : List PathStep) : Unrelated (s :: p) (t :: q) :=
  ⟨fun hpre => h (List.cons_prefix_cons.mp hpre).1, fun hpre => h (List.cons_prefix_cons.mp hpre).1.symm⟩

namespace Json

def step (v : Json) : PathStep → Option Json
  | .key name => v.get name
  | .index i => v.item i

/-- The value at a place. -/
def follow (v : Json) : List PathStep → Option Json
  | [] => some v
  | s :: rest => (v.step s).bind fun next => next.follow rest

theorem follow_append (v : Json) (p q : List PathStep) : v.follow (p ++ q) = (v.follow p).bind fun w => w.follow q := by
  induction p generalizing v with
  | nil => rfl
  | cons s p ih =>
    change (v.step s).bind _ = ((v.step s).bind _).bind _
    rw [Option.bind_assoc]
    exact congrArg _ (funext ih)

theorem getPart_eq (v : Json) (part : List Char) : v.getPart part = (stepsOfPart part).bind v.follow := by
  unfold getPart stepsOfPart
  cases splitAtText ['['] part with
  | none => exact (Option.bind_fun_some _).symm
  | some p =>
    obtain ⟨field, index⟩ := p
    change ((v.get (String.ofList field)).bind fun list =>
        (stripSuffix [']'] index).bind fun digits => (parseBelow (2 ^ 64) digits).bind list.item) =
      ((stripSuffix [']'] index).bind fun digits => (parseBelow (2 ^ 64) digits).bind fun i =>
        some [PathStep.key (String.ofList field), .index i]).bind v.follow
    rw [Option.bind_comm, Option.bind_assoc]
    refine congrArg _ (funext fun digits => ?_)
    rw [Option.bind_comm, Option.bind_assoc]
    refine congrArg _ (funext fun i => ?_)
    exact congrArg _ (funext fun list => (Option.bind_fun_some _).symm)

/-- `get_field` goes to the place of the steps of the path. -/
theorem getField_eq (v : Json) (path : String) : v.getField path = (pathSteps path).bind v.follow := by
  change (readParts path).foldlM getPart v = _
  unfold pathSteps
  induction readParts path generalizing v with
  | nil => rfl
  | cons part parts ih =>
    rw [List.foldlM_cons, List.mapM_cons, getPart_eq]
    cases stepsOfPart part with
    | none => rfl
    | some steps =>
      cases hrest : parts.mapM stepsOfPart with
      | none =>
        simp only [hrest, Option.map_none, Option.bind_none] at ih
        simp [ih]
      | some more =>
        simp only [hrest, Option.map_some, Option.bind_some] at ih
        simp [ih, follow_append]

end Json

end Xerv
