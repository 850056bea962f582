import Xerv.Schema.Persistence

/-!
# The stored data as JSON values

What `Serialize` and `Deserialize` derive: a structure is an object with its fields by
name, a vector is an array, and a pair is an array of two. A value without such a form is
refused.
-/

namespace Xerv
open Xerv.Lib

namespace Json

def ofNat (n : ℕ) : Json := .number (decimalText n)

def readNat (bound : ℕ) : Json → Option ℕ
  | .number literal => parseBelow bound literal.toList
  | _ => none

def readBool : Json → Option Bool
  | .bool b => some b
  | _ => none

def readArray {α : Type} (read : Json → Option α) : Json → Option (List α)
  | .array items => items.mapM read
  | _ => none

def field {α : Type} (v : Json) (key : String) (read : Json → Option α) : Option α := (v.get key).bind read

theorem readNat_ofNat {bound n : ℕ} (h : n < bound) : readNat bound (ofNat n) = some n := by
  have hparse := parseUnsigned_padded 10 1 n (by omega) (by omega) (by omega)
  simp [readNat, ofNat, decimalText, parseBelow, hparse, h]

theorem readArray_map {α : Type} {read : Json → Option α} {write : α → Json} (h : ∀ x, read (write x) = some x)
    (xs : List α) : readArray read (.array (xs.map write)) = some xs := by
  change (xs.map write).mapM read = some xs
  induction xs with
  | nil => rfl
  | cons x xs ih =>
    rw [List.map_cons, List.mapM_cons, h x, ih]
    rfl

end Json

namespace Schema

def FieldData.toJson (d : FieldData) : Json :=
  .object [("name", .string d.name), ("type_name", .string d.typeName), ("offset", .ofNat d.offset.toNat),
    ("size", .ofNat d.size.toNat), ("optional", .bool d.optional)]

def FieldData.ofJson (v : Json) : Option FieldData := do
  let name ← v.field "name" Json.asStr
  let typeName ← v.field "type_name" Json.asStr
  let offset ← v.field "offset" (Json.readNat UInt64.size)
  let size ← v.field "size" (Json.readNat UInt64.size)
  let optional ← v.field "optional" Json.readBool
  return ⟨name, typeName, .ofNat offset, .ofNat size, optional⟩

theorem FieldData.ofJson_toJson (d : FieldData) : ofJson d.toJson = some d := by
  have hoffset := Json.readNat_ofNat d.offset.toNat_lt
  have hsize := Json.readNat_ofNat d.size.toNat_lt
  simp [ofJson, toJson, Json.field, Json.get, Json.asStr, Json.readBool, hoffset, hsize]

def SchemaData.toJson (d : SchemaData) : Json :=
  .object [("name", .string d.name), ("short_name", .string d.shortName), ("version", .ofNat d.version.toNat),
    ("hash", .ofNat d.hash.toNat), ("size", .ofNat d.size.toNat), ("alignment", .ofNat d.alignment.toNat),
    ("fields", .array (d.fields.map FieldData.toJson)), ("stable_layout", .bool d.stableLayout)]

def SchemaData.ofJson (v : Json) : Option SchemaData := do
  let name ← v.field "name" Json.asStr
  let shortName ← v.field "short_name" Json.asStr
  let version ← v.field "version" (Json.readNat UInt32.size)
  let hash ← v.field "hash" (Json.readNat UInt64.size)
  let size ← v.field "size" (Json.readNat UInt64.size)
  let alignment ← v.field "alignment" (Json.readNat UInt64.size)
  let fields ← v.field "fields" (Json.readArray FieldData.ofJson)
  let stableLayout ← v.field "stable_layout" Json.readBool
  return ⟨name, shortName, .ofNat version, .ofNat hash, .ofNat size, .ofNat alignment, fields, stableLayout⟩

theorem SchemaData.ofJson_toJson (d : SchemaData) : ofJson d.toJson = some d := by
  have hversion := Json.readNat_ofNat d.version.toNat_lt
  have hhash := Json.readNat_ofNat d.hash.toNat_lt
  have hsize := Json.readNat_ofNat d.size.toNat_lt
  have halignment := Json.readNat_ofNat d.alignment.toNat_lt
  have hfields := Json.readArray_map FieldData.ofJson_toJson d.fields
  simp [ofJson, toJson, Json.field, Json.get, Json.asStr, Json.readBool, hversion, hhash, hsize, halignment, hfields]

def versionToJson (e : String × UInt64) : Json := .array [.string e.1, .ofNat e.2.toNat]

def versionOfJson : Json → Option (String × UInt64)
  | .array [version, hash] => do
    let version ← version.asStr
    let hash ← hash.readNat UInt64.size
    return (version, .ofNat hash)
  | _ => none

theorem versionOfJson_toJson (e : String × UInt64) : versionOfJson (versionToJson e) = some e := by
  have hhash := Json.readNat_ofNat e.2.toNat_lt
  simp [versionOfJson, versionToJson, Json.asStr, hhash]

def FamilyData.toJson (d : FamilyData) : Json :=
  .object [("name", .string d.name), ("versions", .array (d.versions.map versionToJson))]

def FamilyData.ofJson (v : Json) : Option FamilyData := do
  let name ← v.field "name" Json.asStr
  let versions ← v.field "versions" (Json.readArray versionOfJson)
  return ⟨name, versions⟩

theorem FamilyData.ofJson_toJson (d : FamilyData) : ofJson d.toJson = some d := by
  have hversions := Json.readArray_map versionOfJson_toJson d.versions
  simp [ofJson, toJson, Json.field, Json.get, Json.asStr, hversions]

def RegistryData.toJson (d : RegistryData) : Json :=
  .object [("schemas", .array (d.schemas.map SchemaData.toJson)),
    ("families", .array (d.families.map FamilyData.toJson))]

def RegistryData.ofJson (v : Json) : Option RegistryData := do
  let schemas ← v.field "schemas" (Json.readArray SchemaData.ofJson)
  let families ← v.field "families" (Json.readArray FamilyData.ofJson)
  return ⟨schemas, families⟩

/-- The stored data is read back from its JSON value. -/
theorem RegistryData.ofJson_toJson (d : RegistryData) : ofJson d.toJson = some d := by
  have hschemas := Json.readArray_map SchemaData.ofJson_toJson d.schemas
  have hfamilies := Json.readArray_map FamilyData.ofJson_toJson d.families
  simp [ofJson, toJson, Json.field, Json.get, hschemas, hfamilies]

/-- The codec that keeps the JSON value itself as the text. -/
def jsonCodec : RegistryCodec Json where
  toStringPretty d := .ok d.toJson
  fromStr v :=
    match RegistryData.ofJson v with
    | some d => .ok d
    | none => .error "invalid registry data"

theorem jsonCodec_decodes : jsonCodec.Decodes := by
  intro d
  refine ⟨d.toJson, rfl, ?_⟩
  change (match RegistryData.ofJson d.toJson with | some d => _ | none => _) = _
  rw [d.ofJson_toJson]

end Schema
end Xerv
