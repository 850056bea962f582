import Xerv.Schema.Migration

/-!
# Compatibility of schemas (`xerv-core/src/schema/compatibility.rs`)

The matrix compares two schemas field by field, by maps of their fields that it iterates
in any order, and calls them compatible when none of the changes is breaking.
-/

namespace Xerv
open Xerv.Lib

namespace TypeInfo

def DistinctFields (t : TypeInfo) : Prop := (t.fields.map FieldInfo.name).Nodup

instance (t : TypeInfo) : Decidable t.DistinctFields :=
  inferInstanceAs (Decidable (t.fields.map FieldInfo.name).Nodup)

def fieldMap (t : TypeInfo) : FiniteMap String FieldInfo := .collect (t.fields.map fun f => (f.name, f))

theorem mem_of_get_fieldMap {t : TypeInfo} {name : String} {f : FieldInfo} (h : t.fieldMap.get name = some f) :
    f ∈ t.fields ∧ f.name = name := by
  obtain ⟨f', hf', heq⟩ := List.mem_map.mp (FiniteMap.mem_of_get_collect h)
  cases heq
  exact ⟨hf', rfl⟩

theorem fieldMap_enumerates {t : TypeInfo} (h : t.DistinctFields) :
    t.fieldMap.Enumerates (t.fields.map fun f => (f.name, f)) := by
  refine FiniteMap.collect_enumerates ?_
  rw [List.map_map]
  exact h

theorem get_fieldMap {t : TypeInfo} (h : t.DistinctFields) {f : FieldInfo} (hf : f ∈ t.fields) :
    t.fieldMap.get f.name = some f :=
  ((fieldMap_enumerates h).mem_iff _ _).mp (List.mem_map_of_mem hf)

theorem getField_eq {t : TypeInfo} (h : t.DistinctFields) (name : String) : t.getField name = t.fieldMap.get name := by
  cases hfield : t.getField name with
  | some f =>
    obtain ⟨hf, rfl⟩ := getField_some hfield
    exact (get_fieldMap h hf).symm
  | none =>
    cases hget : t.fieldMap.get name with
    | none => rfl
    | some f =>
      obtain ⟨hf, rfl⟩ := mem_of_get_fieldMap hget
      exact absurd (decide_eq_true rfl) (List.find?_eq_none.mp hfield f hf)

end TypeInfo

namespace Schema

/-! ### Changes -/

structure SchemaChange where
  kind : ChangeKind
  field : String
  oldType : Option String
  newType : Option String
  description : String
  deriving DecidableEq, Repr

namespace SchemaChange

def new (kind : ChangeKind) (field : String) : SchemaChange :=
  ⟨kind, field, none, none, kind.description ++ ": " ++ field⟩

def withOldType (c : SchemaChange) (oldType : String) : SchemaChange := { c with oldType := some oldType }

def withNewType (c : SchemaChange) (newType : String) : SchemaChange := { c with newType := some newType }

end SchemaChange

structure CompatibilityReport where
  compatible : Bool
  changes : List SchemaChange
  migrationRequired : Bool
  migrationAvailable : Bool
  summary : String
  deriving DecidableEq, Repr

namespace CompatibilityReport

def fullyCompatible : CompatibilityReport := ⟨true, [], false, true, "Schemas are compatible"⟩

def incompatible (changes : List SchemaChange) (migrationAvailable : Bool) : CompatibilityReport :=
  let breakingCount := decimalText (changes.countP fun c => c.kind.isBreaking)
  let summary :=
    if migrationAvailable then breakingCount ++ " breaking changes, migration available"
    else breakingCount ++ " breaking changes, no migration available"
  ⟨false, changes, true, migrationAvailable, summary⟩

end CompatibilityReport

/-- The orders in which the maps of the fields are iterated. -/
structure FieldOrders (fromSchema toSchema : TypeInfo) where
  fromFields : List (String × FieldInfo)
  toFields : List (String × FieldInfo)
  fromEnumerates : fromSchema.fieldMap.Enumerates fromFields
  toEnumerates : toSchema.fieldMap.Enumerates toFields

def FieldOrders.declared {fromSchema toSchema : TypeInfo} (hfrom : fromSchema.DistinctFields)
    (hto : toSchema.DistinctFields) : FieldOrders fromSchema toSchema where
  fromFields := fromSchema.fields.map fun f => (f.name, f)
  toFields := toSchema.fields.map fun f => (f.name, f)
  fromEnumerates := TypeInfo.fieldMap_enumerates hfrom
  toEnumerates := TypeInfo.fieldMap_enumerates hto

/-- One round of the loop for removed fields. -/
def removedField (toFields : FiniteMap String FieldInfo) (e : String × FieldInfo) : List SchemaChange :=
  if toFields.contains e.1 then [] else [(SchemaChange.new .removeField e.1).withOldType e.2.typeName]

/-- One round of the loop for added and modified fields. -/
def addedOrModifiedField (fromFields : FiniteMap String FieldInfo) (e : String × FieldInfo) : List SchemaChange :=
  match fromFields.get e.1 with
  | none =>
    let kind := if e.2.optional then ChangeKind.addOptionalField else .addRequiredField
    [(SchemaChange.new kind e.1).withNewType e.2.typeName]
  | some fromField =>
    (if fromField.typeName ≠ e.2.typeName then
      [((SchemaChange.new .changeFieldType e.1).withOldType fromField.typeName).withNewType e.2.typeName] else []) ++
    (if fromField.optional ∧ ¬ e.2.optional then [SchemaChange.new .makeRequired e.1] else []) ++
    (if ¬ fromField.optional ∧ e.2.optional then [SchemaChange.new .makeOptional e.1] else [])

def detectChanges (fromSchema toSchema : TypeInfo) (orders : FieldOrders fromSchema toSchema) : List SchemaChange :=
  orders.fromFields.flatMap (removedField toSchema.fieldMap) ++
    orders.toFields.flatMap (addedOrModifiedField fromSchema.fieldMap)

structure CompatibilityMatrix (Transform : Type) where
  migrations : MigrationRegistry Transform

namespace CompatibilityMatrix
variable {Transform : Type}

def canMigrate (matrix : CompatibilityMatrix Transform) (fromHash toHash : UInt64) : Bool :=
  matrix.migrations.hasPath fromHash toHash

def check (matrix : CompatibilityMatrix Transform) (fromSchema toSchema : TypeInfo)
    (orders : FieldOrders fromSchema toSchema) : CompatibilityReport :=
  if fromSchema.hash ≠ 0 ∧ fromSchema.hash = toSchema.hash then .fullyCompatible
  else
    let changes := detectChanges fromSchema toSchema orders
    if changes.isEmpty then .fullyCompatible
    else if ¬ changes.any fun c => c.kind.isBreaking then
      ⟨true, changes, false, true, "Compatible with non-breaking changes"⟩
    else .incompatible changes (matrix.canMigrate fromSchema.hash toSchema.hash)

end CompatibilityMatrix

/-! ### What the changes say -/

variable {fromSchema toSchema : TypeInfo}

theorem mem_detectChanges (orders : FieldOrders fromSchema toSchema) (c : SchemaChange) :
    c ∈ detectChanges fromSchema toSchema orders ↔
      (∃ name f, fromSchema.fieldMap.get name = some f ∧ c ∈ removedField toSchema.fieldMap (name, f)) ∨
      ∃ name g, toSchema.fieldMap.get name = some g ∧ c ∈ addedOrModifiedField fromSchema.fieldMap (name, g) := by
  unfold detectChanges
  rw [List.mem_append, List.mem_flatMap, List.mem_flatMap, Prod.exists, Prod.exists]
  simp only [orders.fromEnumerates.mem_iff, orders.toEnumerates.mem_iff]

theorem removedField_harmless (toFields : FiniteMap String FieldInfo) (name : String) (f : FieldInfo) :
    (∀ c ∈ removedField toFields (name, f), c.kind.isBreaking = false) ↔ ∃ g, toFields.get name = some g := by
  unfold removedField FiniteMap.contains
  rw [← Option.isSome_iff_exists]
  split
  · rename_i h
    exact iff_of_true (fun c hc => absurd hc List.not_mem_nil) h
  · rename_i h
    refine iff_of_false (fun hall => ?_) h
    cases hall _ List.mem_cons_self

theorem mem_addedField {fromFields : FiniteMap String FieldInfo} {name : String} (g : FieldInfo)
    (hnone : fromFields.get name = none) (c : SchemaChange) :
    c ∈ addedOrModifiedField fromFields (name, g) ↔
      c = (SchemaChange.new (if g.optional then .addOptionalField else .addRequiredField) name).withNewType
        g.typeName := by
  unfold addedOrModifiedField
  rw [hnone]
  exact List.mem_singleton

theorem mem_modifiedField {fromFields : FiniteMap String FieldInfo} {name : String} {f : FieldInfo} (g : FieldInfo)
    (hget : fromFields.get name = some f) (c : SchemaChange) :
    c ∈ addedOrModifiedField fromFields (name, g) ↔
      (f.typeName ≠ g.typeName ∧
        c = ((SchemaChange.new .changeFieldType name).withOldType f.typeName).withNewType g.typeName) ∨
      ((f.optional = true ∧ g.optional = false) ∧ c = .new .makeRequired name) ∨
      ((f.optional = false ∧ g.optional = true) ∧ c = .new .makeOptional name) := by
  unfold addedOrModifiedField
  rw [hget]
  simp only [List.mem_append, List.mem_ite_nil_right, List.mem_singleton, Bool.not_eq_true, or_assoc]

theorem addedField_harmless {fromFields : FiniteMap String FieldInfo} {name : String} (g : FieldInfo)
    (hnone : fromFields.get name = none) :
    (∀ c ∈ addedOrModifiedField fromFields (name, g), c.kind.isBreaking = false) ↔ g.optional = true := by
  simp only [mem_addedField g hnone, forall_eq]
  cases g.optional with
  | true => exact iff_of_true rfl rfl
  | false => exact iff_of_false Bool.true_eq_false.mp Bool.false_ne_true

theorem modifiedField_harmless {fromFields : FiniteMap String FieldInfo} {name : String} {f : FieldInfo}
    (g : FieldInfo) (hget : fromFields.get name = some f) :
    (∀ c ∈ addedOrModifiedField fromFields (name, g), c.kind.isBreaking = false) ↔
      f.typeName = g.typeName ∧ (f.optional = true → g.optional = true) := by
  simp only [mem_modifiedField g hget]
  constructor
  · intro hall
    constructor
    · by_contra htype
      cases hall _ (.inl ⟨htype, rfl⟩)
    · intro hf
      by_contra hg
      cases hall _ (.inr (.inl ⟨⟨hf, Bool.eq_false_of_not_eq_true hg⟩, rfl⟩))
  · rintro ⟨htype, hopt⟩ c (⟨hne, -⟩ | ⟨⟨hf, hg⟩, -⟩ | ⟨-, rfl⟩)
    · exact absurd htype hne
    · cases hg.symm.trans (hopt hf)
    · rfl

/-- All fields are kept with their types, and what is added or was optional is optional. -/
structure Keeps (fromFields toFields : FiniteMap String FieldInfo) : Prop where
  kept : ∀ name f, fromFields.get name = some f →
    ∃ g, toFields.get name = some g ∧ f.typeName = g.typeName ∧ (f.optional = true → g.optional = true)
  added : ∀ name g, toFields.get name = some g → fromFields.get name = none → g.optional = true

theorem Keeps.refl (fields : FiniteMap String FieldInfo) : Keeps fields fields where
  kept _ f hf := ⟨f, hf, rfl, id⟩
  added _ _ hg hnone := nomatch hg.symm.trans hnone

theorem Keeps.trans {a b c : FiniteMap String FieldInfo} (hab : Keeps a b) (hbc : Keeps b c) : Keeps a c where
  kept name f hf := by
    obtain ⟨g, hg, hfg, hopt⟩ := hab.kept name f hf
    obtain ⟨g', hg', hgg', hopt'⟩ := hbc.kept name g hg
    exact ⟨g', hg', hfg.trans hgg', fun h => hopt' (hopt h)⟩
  added name g hg hnone := by
    cases hb : b.get name with
    | none => exact hbc.added name g hg hb
    | some f =>
      obtain ⟨g', hg', -, hopt⟩ := hbc.kept name f hb
      cases hg.symm.trans hg'
      exact hopt (hab.added name f hb hnone)

/-- No change is breaking if and only if the new fields keep the old ones. -/
theorem harmless_iff_keeps (orders : FieldOrders fromSchema toSchema) :
    (∀ c ∈ detectChanges fromSchema toSchema orders, c.kind.isBreaking = false) ↔
      Keeps fromSchema.fieldMap toSchema.fieldMap := by
  constructor
  · intro hall
    have hremoved : ∀ name f, fromSchema.fieldMap.get name = some f → ∃ g, toSchema.fieldMap.get name = some g :=
      fun name f hf => (removedField_harmless _ name f).mp fun c hc =>
        hall c ((mem_detectChanges orders c).mpr (.inl ⟨name, f, hf, hc⟩))
    have hmodified : ∀ name g, toSchema.fieldMap.get name = some g →
        ∀ c ∈ addedOrModifiedField fromSchema.fieldMap (name, g), c.kind.isBreaking = false :=
      fun name g hg c hc => hall c ((mem_detectChanges orders c).mpr (.inr ⟨name, g, hg, hc⟩))
    constructor
    · intro name f hf
      obtain ⟨g, hg⟩ := hremoved name f hf
      exact ⟨g, hg, (modifiedField_harmless g hf).mp (hmodified name g hg)⟩
    · intro name g hg hnone
      exact (addedField_harmless g hnone).mp (hmodified name g hg)
  · intro hkeeps c hc
    rcases (mem_detectChanges orders c).mp hc with ⟨name, f, hf, hc⟩ | ⟨name, g, hg, hc⟩
    · obtain ⟨g, hg, -⟩ := hkeeps.kept name f hf
      exact (removedField_harmless _ name f).mpr ⟨g, hg⟩ c hc
    · cases hf : fromSchema.fieldMap.get name with
      | none => exact (addedField_harmless g hf).mpr (hkeeps.added name g hg hf) c hc
      | some f =>
        obtain ⟨g', hg', hsame⟩ := hkeeps.kept name f hf
        cases hg.symm.trans hg'
        exact (modifiedField_harmless g hf).mpr hsame c hc

theorem check_compatible_iff {Transform : Type} (matrix : CompatibilityMatrix Transform)
    (orders : FieldOrders fromSchema toSchema) (hhash : fromSchema.hash = toSchema.hash → fromSchema.hash = 0) :
    (matrix.check fromSchema toSchema orders).compatible = true ↔ Keeps fromSchema.fieldMap toSchema.fieldMap := by
  rw [← harmless_iff_keeps orders]
  unfold CompatibilityMatrix.check
  rw [if_neg fun h => h.1 (hhash h.2)]
  dsimp only
  split
  · rename_i hempty
    rw [List.isEmpty_iff.mp hempty]
    exact iff_of_true rfl nofun
  · split
    · rename_i hany
      rw [Bool.not_eq_true, List.any_eq_false] at hany
      exact iff_of_true rfl fun c hc => Bool.eq_false_iff.mpr (hany c hc)
    · rename_i hany
      rw [not_not, List.any_eq_true] at hany
      obtain ⟨c, hc, hbreaking⟩ := hany
      refine iff_of_false nofun fun hall => ?_
      rw [hall c hc] at hbreaking
      cases hbreaking

/-! ### The other compatibility check -/

def RequiredKept (fromSchema toSchema : TypeInfo) : Prop :=
  ∀ g ∈ toSchema.fields, g.optional = false → ∃ f ∈ fromSchema.fields, f.name = g.name ∧ f.typeName = g.typeName

def OptionalKept (fromSchema toSchema : TypeInfo) : Prop :=
  ∀ g ∈ toSchema.fields, g.optional = true → ∀ f ∈ fromSchema.fields, f.name = g.name → f.typeName = g.typeName

instance (fromSchema toSchema : TypeInfo) : Decidable (OptionalKept fromSchema toSchema) :=
  inferInstanceAs (Decidable (∀ g ∈ toSchema.fields, g.optional = true →
    ∀ f ∈ fromSchema.fields, f.name = g.name → f.typeName = g.typeName))

theorem isCompatibleWith_iff (hfrom : fromSchema.DistinctFields)
    (hhash : fromSchema.hash = toSchema.hash → fromSchema.hash = 0) :
    fromSchema.isCompatibleWith toSchema = true ↔ RequiredKept fromSchema toSchema := by
  unfold TypeInfo.isCompatibleWith
  rw [if_neg fun h => h.1 (hhash h.2), List.all_eq_true]
  refine forall₂_congr fun g _ => ?_
  rw [TypeInfo.getField_eq hfrom]
  cases g.optional with
  | true => exact iff_of_true rfl nofun
  | false =>
    cases hget : fromSchema.fieldMap.get g.name with
    | none =>
      refine iff_of_false nofun fun h => ?_
      obtain ⟨f, hf, hname, -⟩ := h rfl
      rw [← hname, TypeInfo.get_fieldMap hfrom hf] at hget
      cases hget
    | some f =>
      obtain ⟨hf, hname⟩ := TypeInfo.mem_of_get_fieldMap hget
      constructor
      · exact fun htype _ => ⟨f, hf, hname, of_decide_eq_true htype⟩
      · intro h
        obtain ⟨f', hf', hname', htype⟩ := h rfl
        rw [← hname', TypeInfo.get_fieldMap hfrom hf'] at hget
        cases hget
        exact decide_eq_true htype

/-- The matrix is the stricter of the two checks. -/
theorem requiredKept_of_keeps (hto : toSchema.DistinctFields) (h : Keeps fromSchema.fieldMap toSchema.fieldMap) :
    RequiredKept fromSchema toSchema := by
  intro g hg hopt
  have hget := TypeInfo.get_fieldMap hto hg
  cases hf : fromSchema.fieldMap.get g.name with
  | none => cases hopt.symm.trans (h.added g.name g hget hf)
  | some f =>
    obtain ⟨g', hg', htype, -⟩ := h.kept g.name f hf
    cases hget.symm.trans hg'
    obtain ⟨hmem, hname⟩ := TypeInfo.mem_of_get_fieldMap hf
    exact ⟨f, hmem, hname, htype⟩

theorem removedField_kind {toFields : FiniteMap String FieldInfo} {e : String × FieldInfo} {c : SchemaChange}
    (h : c ∈ removedField toFields e) : c.kind = .removeField := by
  unfold removedField at h
  split at h
  · cases h
  · rw [List.mem_singleton.mp h]
    rfl

theorem changesType_iff (fromFields : FiniteMap String FieldInfo) (name : String) (g : FieldInfo) :
    (∃ c ∈ addedOrModifiedField fromFields (name, g), c.kind = .changeFieldType) ↔
      ∃ f, fromFields.get name = some f ∧ f.typeName ≠ g.typeName := by
  cases hget : fromFields.get name with
  | none =>
    simp only [mem_addedField g hget, exists_eq_left]
    cases g.optional with
    | true => simp [SchemaChange.new, SchemaChange.withNewType]
    | false => simp [SchemaChange.new, SchemaChange.withNewType]
  | some f =>
    simp only [mem_modifiedField g hget]
    constructor
    · rintro ⟨c, ⟨htype, -⟩ | ⟨-, rfl⟩ | ⟨-, rfl⟩, hkind⟩
      · exact ⟨f, rfl, htype⟩
      · cases hkind
      · cases hkind
    · rintro ⟨f', ⟨⟩, htype⟩
      exact ⟨_, .inl ⟨htype, rfl⟩, rfl⟩

theorem addsRequired_iff (fromFields : FiniteMap String FieldInfo) (name : String) (g : FieldInfo) :
    (∃ c ∈ addedOrModifiedField fromFields (name, g), c.kind = .addRequiredField) ↔
      fromFields.get name = none ∧ g.optional = false := by
  cases hget : fromFields.get name with
  | none =>
    simp only [mem_addedField g hget, exists_eq_left]
    cases g.optional with
    | true => simp [SchemaChange.new, SchemaChange.withNewType]
    | false => simp [SchemaChange.new, SchemaChange.withNewType]
  | some f =>
    simp only [mem_modifiedField g hget]
    refine iff_of_false ?_ fun h => Option.some_ne_none f h.1
    rintro ⟨c, ⟨-, rfl⟩ | ⟨-, rfl⟩ | ⟨-, rfl⟩, hkind⟩
    · cases hkind
    · cases hkind
    · cases hkind

/-- The two checks of a pair of schemas agree. -/
structure ChecksAgree {Transform : Type} (matrix : CompatibilityMatrix Transform) (fromSchema toSchema : TypeInfo)
    (orders : FieldOrders fromSchema toSchema) : Prop where
  compatible : (matrix.check fromSchema toSchema orders).compatible = true →
    fromSchema.isCompatibleWith toSchema = true
  reported : fromSchema.isCompatibleWith toSchema = true →
    ∀ c ∈ detectChanges fromSchema toSchema orders, c.kind ≠ .changeFieldType ∧ c.kind ≠ .addRequiredField

/-- Where the required fields are kept, no change of type is reported if the optional ones are kept too. -/
theorem reported_iff (hfrom : fromSchema.DistinctFields) (hto : toSchema.DistinctFields)
    (orders : FieldOrders fromSchema toSchema) (hrequired : RequiredKept fromSchema toSchema) :
    (∀ c ∈ detectChanges fromSchema toSchema orders, c.kind ≠ .changeFieldType ∧ c.kind ≠ .addRequiredField) ↔
      OptionalKept fromSchema toSchema := by
  constructor
  · intro hall g hg _ f hf hname
    by_contra htype
    have hget := TypeInfo.get_fieldMap hfrom hf
    rw [hname] at hget
    obtain ⟨c, hc, hkind⟩ := (changesType_iff fromSchema.fieldMap g.name g).mpr ⟨f, hget, htype⟩
    have hchange := (mem_detectChanges orders c).mpr (.inr ⟨g.name, g, TypeInfo.get_fieldMap hto hg, hc⟩)
    exact (hall c hchange).1 hkind
  · intro hoptional c hc
    rcases (mem_detectChanges orders c).mp hc with ⟨name, f, -, hc⟩ | ⟨name, g, hg, hc⟩
    · rw [removedField_kind hc]
      exact ⟨nofun, nofun⟩
    · obtain ⟨hmem, rfl⟩ := TypeInfo.mem_of_get_fieldMap hg
      constructor
      · intro hkind
        obtain ⟨f, hf, htype⟩ := (changesType_iff _ _ g).mp ⟨c, hc, hkind⟩
        obtain ⟨hfmem, hname⟩ := TypeInfo.mem_of_get_fieldMap hf
        cases hopt : g.optional with
        | true => exact htype (hoptional g hmem hopt f hfmem hname)
        | false =>
          obtain ⟨f', hf', hname', htype'⟩ := hrequired g hmem hopt
          rw [← hname', TypeInfo.get_fieldMap hfrom hf'] at hf
          cases hf
          exact htype htype'
      · intro hkind
        obtain ⟨hnone, hopt⟩ := (addsRequired_iff _ _ g).mp ⟨c, hc, hkind⟩
        obtain ⟨f, hf, hname, -⟩ := hrequired g hmem hopt
        rw [← hname, TypeInfo.get_fieldMap hfrom hf] at hnone
        cases hnone

variable {Transform : Type}

/-- The two checks agree on schemas that the hashes do not decide if and only if, where the required
fields are kept, the optional fields that both schemas have are kept with their types. Without
hashes, the check of the matrix is reflexive and transitive. -/
theorem checks_agree_iff (matrix : CompatibilityMatrix Transform) :
    (∀ fromSchema toSchema : TypeInfo, fromSchema.DistinctFields → toSchema.DistinctFields →
      (fromSchema.hash = toSchema.hash → fromSchema.hash = 0) →
      ∀ orders, ChecksAgree matrix fromSchema toSchema orders ↔
        (RequiredKept fromSchema toSchema → OptionalKept fromSchema toSchema)) ∧
    (∀ schema : TypeInfo, schema.hash = 0 → ∀ orders, (matrix.check schema schema orders).compatible = true) ∧
    ∀ a b c : TypeInfo, a.hash = 0 → b.hash = 0 → c.hash = 0 → ∀ ab bc ac,
      (matrix.check a b ab).compatible = true → (matrix.check b c bc).compatible = true →
        (matrix.check a c ac).compatible = true := by
  refine ⟨?_, ?_, ?_⟩
  · intro fromSchema toSchema hfrom hto hhash orders
    have hcompat := isCompatibleWith_iff hfrom hhash
    constructor
    · intro h hrequired
      exact (reported_iff hfrom hto orders hrequired).mp (h.reported (hcompat.mpr hrequired))
    · intro h
      constructor
      · intro hcheck
        have hkeeps := (check_compatible_iff matrix orders hhash).mp hcheck
        exact hcompat.mpr (requiredKept_of_keeps hto hkeeps)
      · intro hchecked
        have hrequired := hcompat.mp hchecked
        exact (reported_iff hfrom hto orders hrequired).mpr (h hrequired)
  · intro schema hhash orders
    exact (check_compatible_iff matrix orders fun _ => hhash).mpr (.refl _)
  · intro a b c ha hb _ ab bc ac hab hbc
    have hkeepsab := (check_compatible_iff matrix ab fun _ => ha).mp hab
    have hkeepsbc := (check_compatible_iff matrix bc fun _ => hb).mp hbc
    exact (check_compatible_iff matrix ac fun _ => ha).mpr (hkeepsab.trans hkeepsbc)

def orderV1 : TypeInfo := { TypeInfo.new "Order" 1 with fields := [.new "amount" "i32"] }

def orderV2 : TypeInfo :=
  { TypeInfo.new "Order" 2 with fields := [.new "amount" "i32", { FieldInfo.new "note" "String" with optional := true }] }

def orderV3 : TypeInfo :=
  { TypeInfo.new "Order" 3 with fields := [{ FieldInfo.new "amount" "f64" with optional := true }] }

theorem orders_agree :
    ChecksAgree (⟨.new⟩ : CompatibilityMatrix Unit) orderV1 orderV2 (.declared (by decide) (by decide)) :=
  ((checks_agree_iff ⟨.new⟩).1 orderV1 orderV2 (by decide) (by decide) (fun _ => rfl) _).mpr fun _ => by decide

theorem optional_type_changes :
    ¬ ChecksAgree (⟨.new⟩ : CompatibilityMatrix Unit) orderV1 orderV3 (.declared (by decide) (by decide)) := by
  intro h
  exact (h.reported (by decide) _ List.mem_cons_self).1 rfl

end Schema
end Xerv
