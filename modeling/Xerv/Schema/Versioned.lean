import Mathlib.Data.List.Sort
import Xerv.Lib.Machine
import Xerv.Schema.Version

/-!
# The versioned schema registry (`xerv-core/src/schema/registry/versioned.rs`)

Schemas are stored by full name, with the names by hash and the versions of each family in
order. A version of the history has the major number of the schema only.
-/

namespace Xerv
open Xerv.Lib

/-- The schema that `register_versioned` registers. -/
def TypeInfo.versioned (info : TypeInfo) (version : Schema.SchemaVersion) : TypeInfo :=
  { info with name := version.fullName info.shortName, version := version.major.toUInt32 }

namespace Schema

structure VersionedSchemaRegistry where
  schemas : FiniteMap String TypeInfo
  byHash : FiniteMap UInt64 String
  versions : FiniteMap String (List (SchemaVersion × UInt64))
  persistencePath : Option String

namespace VersionedSchemaRegistry

def empty (path : Option String) : VersionedSchemaRegistry := ⟨∅, ∅, ∅, path⟩

def new : VersionedSchemaRegistry := empty none

def withPersistence (path : String) : VersionedSchemaRegistry := empty (some path)

/-- The update of the history: a version is recorded once. -/
def addVersion (familyVersions : List (SchemaVersion × UInt64)) (version : SchemaVersion) (hash : UInt64) :
    List (SchemaVersion × UInt64) :=
  if familyVersions.any fun e => e.1 = version then familyVersions
  else (familyVersions ++ [(version, hash)]).insertionSort fun a b => a.1.cmp b.1 ≠ .gt

def register (r : VersionedSchemaRegistry) (info : TypeInfo) : VersionedSchemaRegistry :=
  let version : SchemaVersion := ⟨info.version.toUInt16, 0⟩
  let familyVersions := (r.versions.get info.shortName).getD []
  { r with
    schemas := r.schemas.insert info.name info
    byHash := r.byHash.insert info.hash info.name
    versions := r.versions.insert info.shortName (addVersion familyVersions version info.hash) }

def registerVersioned (r : VersionedSchemaRegistry) (info : TypeInfo) (version : SchemaVersion) :
    VersionedSchemaRegistry :=
  r.register (info.versioned version)

def get (r : VersionedSchemaRegistry) (name : String) : Option TypeInfo := r.schemas.get name

def getByHash (r : VersionedSchemaRegistry) (hash : UInt64) : Option TypeInfo :=
  (r.byHash.get hash).bind fun name => r.schemas.get name

def getVersions (r : VersionedSchemaRegistry) (shortName : String) : List SchemaVersion :=
  ((r.versions.get shortName).map fun v => v.map Prod.fst).getD []

def getLatest (r : VersionedSchemaRegistry) (shortName : String) : Option TypeInfo :=
  (r.versions.get shortName).bind fun v => v.getLast?.bind fun e => r.schemas.get (e.1.fullName shortName)

def getVersion (r : VersionedSchemaRegistry) (shortName : String) (version : SchemaVersion) : Option TypeInfo :=
  r.get (version.fullName shortName)

def clear (r : VersionedSchemaRegistry) : VersionedSchemaRegistry := { r with schemas := ∅, byHash := ∅, versions := ∅ }

/-! ### What one registration changes -/

variable (r : VersionedSchemaRegistry) (info : TypeInfo)

theorem getVersions_eq (shortName : String) :
    r.getVersions shortName = ((r.versions.get shortName).getD []).map Prod.fst := by
  unfold getVersions
  cases r.versions.get shortName with
  | none => rfl
  | some v => rfl

theorem getLatest_eq (shortName : String) :
    r.getLatest shortName = (r.getVersions shortName).getLast?.bind (r.getVersion shortName) := by
  rw [getVersions_eq, getLatest]
  cases r.versions.get shortName with
  | none => rfl
  | some v =>
    rw [Option.getD_some, Option.bind_some, List.getLast?_map]
    cases v.getLast? with
    | none => rfl
    | some e => rfl

theorem get_register (name : String) :
    (r.register info).get name = if name = info.name then some info else r.get name :=
  FiniteMap.get_insert _ _ _ _

theorem mem_addVersion (familyVersions : List (SchemaVersion × UInt64)) (version v : SchemaVersion) (hash : UInt64) :
    v ∈ (addVersion familyVersions version hash).map Prod.fst ↔
      v ∈ familyVersions.map Prod.fst ∨ v = version := by
  unfold addVersion
  split
  · rename_i hany
    obtain ⟨e, he, heq⟩ := List.any_eq_true.mp hany
    refine (or_iff_left_of_imp ?_).symm
    rintro rfl
    exact List.mem_map.mpr ⟨e, he, of_decide_eq_true heq⟩
  · rw [((List.perm_insertionSort _ _).map _).mem_iff, List.map_append, List.mem_append]
    exact or_congr_right List.mem_singleton

/-- The history of a family gains the version of the schema. -/
theorem mem_getVersions_register (shortName : String) (v : SchemaVersion) :
    v ∈ (r.register info).getVersions shortName ↔
      v ∈ r.getVersions shortName ∨ shortName = info.shortName ∧ v = ⟨info.version.toUInt16, 0⟩ := by
  rw [getVersions_eq, getVersions_eq]
  change v ∈ (((r.versions.insert _ _).get shortName).getD []).map Prod.fst ↔ _
  rw [FiniteMap.get_insert]
  split
  · rename_i heq
    rw [heq, Option.getD_some, mem_addVersion]
    exact or_congr_right (and_iff_right rfl).symm
  · rename_i hne
    exact (or_iff_left fun h => hne h.1).symm

/-- Sorting versions without repetitions puts them in strictly increasing order. -/
theorem insertionSort_sorted {entries : List (SchemaVersion × UInt64)} (hnodup : (entries.map Prod.fst).Nodup) :
    ((entries.insertionSort fun a b => a.1.cmp b.1 ≠ .gt).map Prod.fst).Pairwise fun v w => v.cmp w = .lt := by
  have htotal : Std.Total fun a b : SchemaVersion × UInt64 => a.1.cmp b.1 ≠ .gt := by
    refine ⟨fun a b => ?_⟩
    rw [SchemaVersion.cmp_ne_gt, SchemaVersion.cmp_ne_gt]
    exact le_total _ _
  have htrans : IsTrans (SchemaVersion × UInt64) fun a b => a.1.cmp b.1 ≠ .gt := by
    refine ⟨fun a b c => ?_⟩
    rw [SchemaVersion.cmp_ne_gt, SchemaVersion.cmp_ne_gt, SchemaVersion.cmp_ne_gt]
    exact le_trans
  have hle := List.pairwise_insertionSort (fun a b : SchemaVersion × UInt64 => a.1.cmp b.1 ≠ .gt) entries
  have hne := List.pairwise_map.mp (((List.perm_insertionSort
    (fun a b : SchemaVersion × UInt64 => a.1.cmp b.1 ≠ .gt) entries).map Prod.fst).nodup_iff.mpr hnodup)
  refine List.pairwise_map.mpr (hle.imp₂ (fun a b hab hab' => ?_) hne)
  rw [SchemaVersion.cmp_ne_gt] at hab
  rw [SchemaVersion.cmp_eq_lt]
  exact lt_of_le_of_ne hab fun heq => hab' (SchemaVersion.key_inj heq)

/-- A history without repetitions stays so, in strictly increasing order. -/
theorem addVersion_sorted {familyVersions : List (SchemaVersion × UInt64)} (version : SchemaVersion) (hash : UInt64)
    (h : (familyVersions.map Prod.fst).Pairwise fun v w => v.cmp w = .lt) :
    ((addVersion familyVersions version hash).map Prod.fst).Pairwise fun v w => v.cmp w = .lt := by
  unfold addVersion
  split
  · exact h
  · rename_i hany
    refine insertionSort_sorted ?_
    rw [List.map_append, List.nodup_append]
    refine ⟨h.imp fun {v w} hlt heq => ?_, List.nodup_singleton _, fun v hv w hw heq => ?_⟩
    · rw [heq, SchemaVersion.cmp_eq_lt] at hlt
      exact lt_irrefl _ hlt
    · obtain ⟨e, he, rfl⟩ := List.mem_map.mp hv
      obtain rfl := List.mem_singleton.mp hw
      exact hany (List.any_eq_true.mpr ⟨e, he, decide_eq_true heq⟩)

/-! ### What holds of every registry -/

structure WellFormed (r : VersionedSchemaRegistry) : Prop where
  named : ∀ name t, r.get name = some t → t.name = name
  hashed : ∀ hash name, r.byHash.get hash = some name → ∃ t, r.get name = some t
  sorted : ∀ shortName, (r.getVersions shortName).Pairwise fun v w => v.cmp w = .lt
  minor : ∀ shortName, ∀ v ∈ r.getVersions shortName, v.minor = 0
  recorded : ∀ name t, r.get name = some t → ⟨t.version.toUInt16, 0⟩ ∈ r.getVersions t.shortName

theorem wellFormed_register {r : VersionedSchemaRegistry} (h : r.WellFormed) (info : TypeInfo) :
    (r.register info).WellFormed where
  named name t ht := by
    rw [get_register] at ht
    split at ht
    · rename_i heq
      cases ht
      exact heq.symm
    · exact h.named name t ht
  hashed hash name hn := by
    rw [get_register]
    split
    · exact ⟨info, rfl⟩
    · rename_i hne
      rcases FiniteMap.get_insert_some _ hn with ⟨-, rfl⟩ | ⟨-, hn⟩
      · exact absurd rfl hne
      · exact h.hashed hash name hn
  sorted shortName := by
    rw [getVersions_eq]
    change List.Pairwise _ ((((r.versions.insert _ _).get shortName).getD []).map Prod.fst)
    rw [FiniteMap.get_insert]
    split
    · have hold := h.sorted info.shortName
      rw [getVersions_eq] at hold
      exact addVersion_sorted _ _ hold
    · have hold := h.sorted shortName
      rwa [getVersions_eq] at hold
  minor shortName v hv := by
    rcases (mem_getVersions_register r info shortName v).mp hv with hv | ⟨-, rfl⟩
    · exact h.minor shortName v hv
    · rfl
  recorded name t ht := by
    rw [mem_getVersions_register]
    rw [get_register] at ht
    split at ht
    · cases ht
      exact .inr ⟨rfl, rfl⟩
    · exact .inl (h.recorded name t ht)

theorem wellFormed_empty (path : Option String) : (empty path).WellFormed where
  named _ _ ht := nomatch ht
  hashed _ _ hn := nomatch hn
  sorted _ := .nil
  minor _ _ hv := nomatch hv
  recorded _ _ ht := nomatch ht

end VersionedSchemaRegistry

/-- A call that registers a schema. -/
inductive Registration where
  | register (info : TypeInfo)
  | registerVersioned (info : TypeInfo) (version : SchemaVersion)

namespace Registration

def info : Registration → TypeInfo
  | register info => info
  | registerVersioned info version => info.versioned version

end Registration

namespace VersionedSchemaRegistry

def perform (r : VersionedSchemaRegistry) : Registration → VersionedSchemaRegistry
  | .register info => r.register info
  | .registerVersioned info version => r.registerVersioned info version

theorem perform_eq (r : VersionedSchemaRegistry) (c : Registration) : r.perform c = r.register c.info := by
  cases c with
  | register info => rfl
  | registerVersioned info version => rfl

def after (path : Option String) (calls : List Registration) : VersionedSchemaRegistry :=
  calls.foldl perform (empty path)

theorem after_concat (path : Option String) (calls : List Registration) (c : Registration) :
    after path (calls ++ [c]) = (after path calls).register c.info := by
  rw [after, Machine.foldl_concat, perform_eq]
  rfl

theorem wellFormed_after (path : Option String) (calls : List Registration) : (after path calls).WellFormed := by
  induction calls using List.reverseRecOn with
  | nil => exact wellFormed_empty path
  | append_singleton calls c ih =>
    rw [after_concat]
    exact wellFormed_register ih c.info

end VersionedSchemaRegistry
end Schema
end Xerv
