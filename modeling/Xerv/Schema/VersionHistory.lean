import Mathlib.Order.Bounds.Basic
import Xerv.Lib.Table
import Xerv.Schema.Versioned

/-!
# The history of versions

What was registered is a table, the last schema for each family and version. The registry
is faithful to it where the version of a schema fits into 16 bits, has no minor number and
is the one in the schema's name.
-/

namespace Xerv.Schema
open Xerv.Lib

/-- Versions are pairs of any numbers here, the `u32` field of a schema being the major one. -/
abbrev History := Table (String × (ℕ ×ₗ ℕ)) TypeInfo

def Registration.version : Registration → ℕ ×ₗ ℕ
  | register info => toLex (info.version.toNat, 0)
  | registerVersioned _ version => version.key

def History.after (h : History) (c : Registration) : History := h.insert (c.info.shortName, c.version) c.info

def history (calls : List Registration) : History := calls.foldl History.after Table.empty

/-- The answers about versions are those of the history. -/
structure Faithful (r : VersionedSchemaRegistry) (h : History) : Prop where
  sorted : ∀ s, (r.getVersions s).Pairwise fun v w => v.cmp w = .lt
  versions : ∀ s k, (∃ v ∈ r.getVersions s, v.key = k) ↔ ∃ t, h (s, k) = some t
  version : ∀ s v, r.getVersion s v = h (s, v.key)
  latest : ∀ s k, IsGreatest {k | ∃ t, h (s, k) = some t} k → r.getLatest s = h (s, k)
  noLatest : ∀ s, (∀ k, h (s, k) = none) → r.getLatest s = none

/-- The version of the schema is a 16-bit major number, and the schema is named by it. -/
def Registration.Fits : Registration → Prop
  | register info => info.version.toNat < 2 ^ 16 ∧
      info.name = SchemaVersion.fullName info.shortName ⟨info.version.toUInt16, 0⟩
  | registerVersioned _ version => version.minor = 0

namespace Registration

/-- The version that goes into the history of the registry. -/
def recorded (c : Registration) : SchemaVersion := ⟨c.info.version.toUInt16, 0⟩

theorem fits_recorded {c : Registration} (h : c.Fits) :
    c.info.name = c.recorded.fullName c.info.shortName ∧ c.version = c.recorded.key := by
  cases c with
  | register info =>
    refine ⟨h.2, ?_⟩
    have hversion : info.version.toUInt16.toNat = info.version.toNat :=
      UInt32.toNat_toUInt16 info.version ▸ Nat.mod_eq_of_lt h.1
    rw [recorded, SchemaVersion.key, Registration.info, hversion]
    rfl
  | registerVersioned info version =>
    obtain ⟨major, minor⟩ := version
    obtain rfl : minor = 0 := h
    have hrecorded : recorded (registerVersioned info ⟨major, 0⟩) = ⟨major, 0⟩ := by
      simp [recorded, Registration.info, TypeInfo.versioned]
    rw [hrecorded]
    exact ⟨rfl, rfl⟩

end Registration

variable {r : VersionedSchemaRegistry} {h : History}

theorem faithful_of (hsorted : ∀ s, (r.getVersions s).Pairwise fun v w => v.cmp w = .lt)
    (hversions : ∀ s k, (∃ v ∈ r.getVersions s, v.key = k) ↔ ∃ t, h (s, k) = some t)
    (hversion : ∀ s v, r.getVersion s v = h (s, v.key)) : Faithful r h := by
  refine ⟨hsorted, hversions, hversion, ?_, ?_⟩
  · intro s k hk
    obtain ⟨v, hv, rfl⟩ := (hversions s k).mpr hk.1
    obtain ⟨w, hw⟩ := List.getLast?_isSome.mpr (List.ne_nil_of_mem hv) |> Option.isSome_iff_exists.mp
    have hlast : w.key ≤ v.key := hk.2 ((hversions s w.key).mp ⟨w, List.mem_of_getLast? hw, rfl⟩)
    have hvw : w = v := by
      obtain ⟨front, hfront⟩ := List.getLast?_eq_some_iff.mp hw
      have hordered := hsorted s
      rw [hfront] at hv hordered
      rcases List.mem_append.mp hv with hv | hv
      · have hlt := (List.pairwise_append.mp hordered).2.2 v hv w List.mem_cons_self
        rw [SchemaVersion.cmp_eq_lt] at hlt
        exact absurd hlast (not_le_of_gt hlt)
      · exact (List.mem_singleton.mp hv).symm
    rw [r.getLatest_eq, hw, Option.bind_some, hversion, hvw]
  · intro s hnone
    have hempty : r.getVersions s = [] := by
      refine List.eq_nil_iff_forall_not_mem.mpr fun v hv => ?_
      obtain ⟨t, ht⟩ := (hversions s v.key).mp ⟨v, hv, rfl⟩
      rw [hnone] at ht
      cases ht
    rw [r.getLatest_eq, hempty]
    rfl

/-- A registration that fits keeps the registry faithful. -/
theorem Faithful.register (hr : r.WellFormed) (hfaithful : Faithful r h) {c : Registration} (hfits : c.Fits) :
    Faithful (r.register c.info) (h.after c) := by
  obtain ⟨hname, hkey⟩ := Registration.fits_recorded hfits
  refine faithful_of (VersionedSchemaRegistry.wellFormed_register hr c.info).sorted ?_ ?_
  · intro s k
    unfold History.after Table.insert
    simp only [VersionedSchemaRegistry.mem_getVersions_register]
    split
    · rename_i heq
      obtain ⟨rfl, rfl⟩ := Prod.mk.inj heq
      exact iff_of_true ⟨c.recorded, .inr ⟨rfl, rfl⟩, hkey.symm⟩ ⟨c.info, rfl⟩
    · rename_i hne
      rw [← hfaithful.versions]
      refine exists_congr fun v => and_congr_left fun hv => or_iff_left ?_
      rintro ⟨rfl, rfl⟩
      exact hne (Prod.ext rfl (hv.symm.trans hkey.symm))
  · intro s v
    unfold VersionedSchemaRegistry.getVersion History.after Table.insert
    rw [VersionedSchemaRegistry.get_register, hname, hkey]
    by_cases heq : s = c.info.shortName ∧ v = c.recorded
    · obtain ⟨rfl, rfl⟩ := heq
      rw [if_pos rfl, if_pos rfl]
    · rw [if_neg fun h => heq (SchemaVersion.fullName_inj h), if_neg fun h => heq ?_]
      · exact hfaithful.version s v
      · obtain ⟨hs, hv⟩ := Prod.mk.inj h
        exact ⟨hs, SchemaVersion.key_inj hv⟩

theorem fits_of_faithful (hr : r.WellFormed) (c : Registration)
    (hfaithful : Faithful (r.register c.info) (h.after c)) : c.Fits := by
  have hr' := VersionedSchemaRegistry.wellFormed_register hr c.info
  have hfound : h.after c (c.info.shortName, c.version) = some c.info := Table.insert_self _ _ _
  obtain ⟨v, hv, hkey⟩ := (hfaithful.versions c.info.shortName c.version).mpr ⟨c.info, hfound⟩
  have hminor := hr'.minor c.info.shortName v hv
  have hget := hfaithful.version c.info.shortName v
  rw [hkey, hfound] at hget
  have hname := hr'.named _ _ hget
  cases c with
  | register info =>
    obtain ⟨major, minor⟩ := v
    obtain rfl : minor = 0 := hminor
    have hmajor : major.toNat = info.version.toNat := (Prod.mk.inj (toLex.injective hkey)).1
    have hlt : info.version.toNat < 2 ^ 16 := hmajor ▸ major.toNat_lt
    refine ⟨hlt, ?_⟩
    have hversion : info.version.toUInt16 = major := by
      refine UInt16.toNat_inj.mp ?_
      rw [UInt32.toNat_toUInt16, hmajor, Nat.mod_eq_of_lt hlt]
    rw [hversion]
    exact hname
  | registerVersioned info version =>
    obtain rfl : v = version := SchemaVersion.key_inj hkey
    exact hminor

/-- In every state of a run the registry is faithful to what was registered so far if and only if
all registrations fit. -/
theorem history_faithful_iff (path : Option String) (calls : List Registration) :
    (∀ before, before <+: calls → Faithful (.after path before) (history before)) ↔ ∀ c ∈ calls, c.Fits := by
  constructor
  · intro hall c hc
    obtain ⟨before, later, rfl⟩ := List.append_of_mem hc
    have hstate := hall (before ++ [c]) ⟨later, by simp⟩
    rw [VersionedSchemaRegistry.after_concat, history, Machine.foldl_concat] at hstate
    exact fits_of_faithful (VersionedSchemaRegistry.wellFormed_after path before) c hstate
  · intro hfits before hpre
    induction before using List.reverseRecOn with
    | nil => exact faithful_of (fun _ => .nil) (fun _ _ => iff_of_false nofun nofun) fun _ _ => rfl
    | append_singleton before c ih =>
      have hbefore := ih ((List.prefix_append before [c]).trans hpre)
      rw [VersionedSchemaRegistry.after_concat, history, Machine.foldl_concat]
      exact hbefore.register (VersionedSchemaRegistry.wellFormed_after path before)
        (hfits c (hpre.subset (List.mem_append_right before List.mem_cons_self)))

theorem minor_version_lost :
    ¬ Faithful (.after none [.registerVersioned (.new "Order" 1) ⟨1, 2⟩])
      (history [.registerVersioned (.new "Order" 1) ⟨1, 2⟩]) := by
  intro hfaithful
  obtain ⟨v, hv, hkey⟩ := (hfaithful.versions "Order" (toLex (1, 2))).mpr ⟨_, rfl⟩
  obtain rfl : v = ⟨1, 0⟩ := List.mem_singleton.mp hv
  cases hkey

end Xerv.Schema
