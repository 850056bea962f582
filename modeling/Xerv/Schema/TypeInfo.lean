import Xerv.Lib.FiniteMap
import Xerv.Lib.Numeral

/-!
# Schemas (`xerv-core/src/traits/schema.rs`)

A schema has a name with its version, a short name for its family, a hash and a list
of fields with their places in memory. `usize` is 64 bits wide.
-/

namespace Xerv
open Xerv.Lib

structure FieldInfo where
  name : String
  typeName : String
  offset : UInt64
  size : UInt64
  optional : Bool
  deriving DecidableEq, Repr

def FieldInfo.new (name typeName : String) : FieldInfo := ⟨name, typeName, 0, 0, false⟩

structure TypeInfo where
  name : String
  shortName : String
  version : UInt32
  hash : UInt64
  size : UInt64
  alignment : UInt64
  fields : List FieldInfo
  stableLayout : Bool
  deriving DecidableEq, Repr

/-- `Display` of an unsigned integer. -/
def decimalText (n : ℕ) : String := String.ofList (padded 10 1 n)

namespace TypeInfo

def new (name : String) (version : UInt32) : TypeInfo where
  name := name ++ "@v" ++ decimalText version.toNat
  shortName := name
  version := version
  hash := 0
  size := 0
  alignment := 8
  fields := []
  stableLayout := false

def getField (t : TypeInfo) (name : String) : Option FieldInfo := t.fields.find? fun f => f.name = name

/-- Every required field of the other schema is there, with its type. -/
def isCompatibleWith (t other : TypeInfo) : Bool :=
  if t.hash ≠ 0 ∧ t.hash = other.hash then true
  else
    other.fields.all fun field =>
      if field.optional then true
      else
        match t.getField field.name with
        | some ourField => ourField.typeName = field.typeName
        | none => false

theorem getField_some {t : TypeInfo} {name : String} {f : FieldInfo} (h : t.getField name = some f) :
    f ∈ t.fields ∧ f.name = name :=
  ⟨List.mem_of_find?_eq_some h, by simpa using List.find?_some h⟩

end TypeInfo

/-- `SchemaRegistry`: the schemas by name. -/
structure SchemaRegistry where
  schemas : FiniteMap String TypeInfo

namespace SchemaRegistry

def new : SchemaRegistry := ⟨∅⟩

def register (r : SchemaRegistry) (info : TypeInfo) : SchemaRegistry := ⟨r.schemas.insert info.name info⟩

def get (r : SchemaRegistry) (name : String) : Option TypeInfo := r.schemas.get name

end SchemaRegistry

end Xerv
