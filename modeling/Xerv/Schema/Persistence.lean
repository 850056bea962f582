import Xerv.Core.Json
import Xerv.Core.Types
import Xerv.Core.Value
import Xerv.Schema.Versioned

/-!
# The stored form of the registry (`xerv-core/src/schema/registry/persistence.rs`)

`persist` stores the schemas and the histories in any order of the maps; `load` registers
the schemas again and reads nothing else. The text is written and parsed by `serde_json`,
a parameter.
-/

namespace Xerv.Schema
open Xerv.Lib

structure FieldData where
  name : String
  typeName : String
  offset : UInt64
  size : UInt64
  optional : Bool

def FieldData.ofInfo (info : FieldInfo) : FieldData := ⟨info.name, info.typeName, info.offset, info.size, info.optional⟩

def FieldData.intoFieldInfo (d : FieldData) : FieldInfo :=
  let info := { FieldInfo.new d.name d.typeName with offset := d.offset, size := d.size }
  if d.optional then { info with optional := true } else info

structure SchemaData where
  name : String
  shortName : String
  version : UInt32
  hash : UInt64
  size : UInt64
  alignment : UInt64
  fields : List FieldData
  stableLayout : Bool

def SchemaData.ofInfo (info : TypeInfo) : SchemaData where
  name := info.name
  shortName := info.shortName
  version := info.version
  hash := info.hash
  size := info.size
  alignment := info.alignment
  fields := info.fields.map FieldData.ofInfo
  stableLayout := info.stableLayout

def SchemaData.intoTypeInfo (d : SchemaData) : TypeInfo where
  name := d.name
  shortName := d.shortName
  version := d.version
  hash := d.hash
  size := d.size
  alignment := d.alignment
  fields := d.fields.map FieldData.intoFieldInfo
  stableLayout := d.stableLayout

structure FamilyData where
  name : String
  versions : List (String × UInt64)

structure RegistryData where
  schemas : List SchemaData
  families : List FamilyData

theorem FieldData.intoFieldInfo_ofInfo (info : FieldInfo) : (FieldData.ofInfo info).intoFieldInfo = info := by
  obtain ⟨name, typeName, offset, size, optional⟩ := info
  cases optional with
  | true => rfl
  | false => rfl

/-- A stored schema is read back as it was. -/
theorem SchemaData.intoTypeInfo_ofInfo (info : TypeInfo) : (SchemaData.ofInfo info).intoTypeInfo = info := by
  have hfields : (info.fields.map FieldData.ofInfo).map FieldData.intoFieldInfo = info.fields := by
    rw [List.map_map]
    exact List.map_id'' FieldData.intoFieldInfo_ofInfo _
  unfold SchemaData.intoTypeInfo SchemaData.ofInfo
  rw [hfields]

/-- `serde_json` on the stored data, with the messages of its errors. -/
structure RegistryCodec (Text : Type) where
  toStringPretty : RegistryData → Except String Text
  fromStr : Text → Except String RegistryData

/-- What is encoded is decoded to the same data. -/
def RegistryCodec.Decodes {Text : Type} (codec : RegistryCodec Text) : Prop :=
  ∀ data, ∃ text, codec.toStringPretty data = .ok text ∧ codec.fromStr text = .ok data

namespace VersionedSchemaRegistry
variable {Text : Type}

/-- The orders in which the maps are iterated. -/
structure Orders (r : VersionedSchemaRegistry) where
  schemas : List (String × TypeInfo)
  versions : List (String × List (SchemaVersion × UInt64))
  schemasEnumerate : r.schemas.Enumerates schemas
  versionsEnumerate : r.versions.Enumerates versions

def data (r : VersionedSchemaRegistry) (orders : r.Orders) : RegistryData where
  schemas := orders.schemas.map fun e => .ofInfo e.2
  families := orders.versions.map fun e => ⟨e.1, e.2.map fun v => (v.1.toVersionString, v.2)⟩

/-- The path and the text of the file that stands there after the rename. -/
def persist (codec : RegistryCodec Text) (r : VersionedSchemaRegistry) (orders : r.Orders) :
    Except XervError (String × Text) :=
  match r.persistencePath with
  | none => .error (.configValue "persistence_path" "No persistence path configured")
  | some path =>
    match codec.toStringPretty (r.data orders) with
    | .error message => .error (.serialization message)
    | .ok text => .ok (path, text)

def load (codec : RegistryCodec Text) (file : String × Text) : Except XervError VersionedSchemaRegistry :=
  match codec.fromStr file.2 with
  | .error message => .error (.serialization message)
  | .ok data => .ok (data.schemas.foldl (fun r d => r.register d.intoTypeInfo) (withPersistence file.1))

/-- Loading registers the schemas in the order in which they were stored. -/
theorem load_persist {codec : RegistryCodec Text} (hcodec : codec.Decodes) (r : VersionedSchemaRegistry) {path : String}
    (hpath : r.persistencePath = some path) (orders : r.Orders) :
    (r.persist codec orders).bind (load codec) =
      .ok ((orders.schemas.map Prod.snd).foldl register (withPersistence path)) := by
  obtain ⟨text, hencode, hdecode⟩ := hcodec (r.data orders)
  unfold persist
  rw [hpath]
  dsimp only
  rw [hencode]
  change load codec (path, text) = _
  unfold load
  rw [hdecode]
  change Except.ok ((orders.schemas.map fun e => SchemaData.ofInfo e.2).foldl _ _) = _
  rw [List.foldl_map, List.foldl_map]
  simp only [SchemaData.intoTypeInfo_ofInfo]

end VersionedSchemaRegistry
end Xerv.Schema
