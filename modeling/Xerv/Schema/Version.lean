import Mathlib.Data.Prod.Lex
import Xerv.Core.Value
import Xerv.Lib.Positions
import Xerv.Schema.TypeInfo

/-!
# Schema versions (`xerv-core/src/schema/version.rs`)

A version is a pair of 16-bit numbers, ordered by the major one first. Its short form
leaves out a minor number that is zero, and is the suffix of the names of schemas. The
kinds of change between two versions are breaking or not.
-/

namespace Xerv.Schema
open Xerv.Lib

structure SchemaVersion where
  major : UInt16
  minor : UInt16
  deriving DecidableEq, Repr

namespace SchemaVersion

def parse (s : String) : Option SchemaVersion :=
  let cs := (stripPrefix ['v'] s.toList).getD s.toList
  match splitAtText ['.'] cs with
  | some (majorStr, minorStr) => do
    let major ← parseBelow UInt16.size majorStr
    let minor ← parseBelow UInt16.size minorStr
    return ⟨.ofNat major, .ofNat minor⟩
  | none => do
    let major ← parseBelow UInt16.size cs
    return ⟨.ofNat major, 0⟩

def default : SchemaVersion := ⟨1, 0⟩

def cmp (v w : SchemaVersion) : Ordering :=
  (compare v.major.toNat w.major.toNat).then (compare v.minor.toNat w.minor.toNat)

def toVersionString (v : SchemaVersion) : String :=
  "v" ++ decimalText v.major.toNat ++ "." ++ decimalText v.minor.toNat

def toShortString (v : SchemaVersion) : String :=
  if v.minor = 0 then "v" ++ decimalText v.major.toNat else v.toVersionString

/-- The two numbers, in lexicographic order. -/
def key (v : SchemaVersion) : ℕ ×ₗ ℕ := toLex (v.major.toNat, v.minor.toNat)

theorem key_inj {v w : SchemaVersion} (h : v.key = w.key) : v = w := by
  obtain ⟨hmajor, hminor⟩ := Prod.mk.inj (toLex.injective h)
  obtain ⟨major, minor⟩ := v
  obtain ⟨major', minor'⟩ := w
  obtain rfl : major = major' := UInt16.toNat_inj.mp hmajor
  obtain rfl : minor = minor' := UInt16.toNat_inj.mp hminor
  rfl

theorem cmp_eq_lt (v w : SchemaVersion) : v.cmp w = .lt ↔ v.key < w.key := by
  unfold cmp key
  rw [Ordering.then_eq_lt, Prod.Lex.toLex_lt_toLex, Nat.compare_eq_lt, Nat.compare_eq_eq, Nat.compare_eq_lt]

theorem cmp_ne_gt (v w : SchemaVersion) : v.cmp w ≠ .gt ↔ v.key ≤ w.key := by
  rw [← not_lt, not_iff_not]
  unfold cmp key
  rw [Ordering.then_eq_gt, Prod.Lex.toLex_lt_toLex, Nat.compare_eq_gt, Nat.compare_eq_eq, Nat.compare_eq_gt, eq_comm]

/-! ### The names of versions -/

theorem decimalText_inj {m n : ℕ} (h : decimalText m = decimalText n) : m = n := by
  have hpadded : padded 10 1 m = padded 10 1 n := String.ofList_injective h
  have hm := parseUnsigned_padded 10 1 m (by omega) (by omega) (by omega)
  rw [hpadded, parseUnsigned_padded 10 1 n (by omega) (by omega) (by omega)] at hm
  exact (Option.some.inj hm).symm

theorem notMem_decimalText {c : Char} (hc : c.isDigit = false) (n : ℕ) : c ∉ (decimalText n).toList := by
  intro h
  rw [decimalText, String.toList_ofList] at h
  rcases mem_padded 10 1 n (by omega) c h with rfl | ⟨d, hd, rfl⟩
  · cases hc
  · rw [Nat.isDigit_digitChar, decide_eq_true hd] at hc
    cases hc

theorem toList_toVersionString (v : SchemaVersion) :
    v.toVersionString.toList =
      ('v' :: (decimalText v.major.toNat).toList) ++ '.' :: (decimalText v.minor.toNat).toList := by
  simp [toVersionString]

theorem toList_toShortString {v : SchemaVersion} (h : v.minor = 0) :
    v.toShortString.toList = 'v' :: (decimalText v.major.toNat).toList := by
  rw [toShortString, if_pos h, String.toList_append]
  rfl

theorem notMem_toShortString {c : Char} (hc : c.isDigit = false) (hv : c ≠ 'v') (v : SchemaVersion)
    (hdot : c ≠ '.' ∨ v.minor = 0) : c ∉ v.toShortString.toList := by
  have hmajor := notMem_decimalText hc v.major.toNat
  have hminor := notMem_decimalText hc v.minor.toNat
  by_cases hzero : v.minor = 0
  · rw [toList_toShortString hzero]
    simp [hv, hmajor]
  · rw [toShortString, if_neg hzero, toList_toVersionString]
    simp [hv, hmajor, hdot.resolve_right hzero, hminor]

theorem dot_mem_toShortString {v : SchemaVersion} (h : v.minor ≠ 0) : '.' ∈ v.toShortString.toList := by
  rw [toShortString, if_neg h, toList_toVersionString]
  exact List.mem_append_right _ List.mem_cons_self

theorem toShortString_inj {v w : SchemaVersion} (h : v.toShortString = w.toShortString) : v = w := by
  have hlist := congrArg String.toList h
  have hdigit : ('.' : Char).isDigit = false := by decide
  by_cases hv : v.minor = 0
  · by_cases hw : w.minor = 0
    · rw [toList_toShortString hv, toList_toShortString hw] at hlist
      have hmajor := decimalText_inj (String.toList_injective (List.cons.inj hlist).2)
      exact key_inj (by rw [key, key, hmajor, hv, hw])
    · refine absurd (dot_mem_toShortString hw) ?_
      rw [← hlist]
      exact notMem_toShortString hdigit (by decide) v (.inr hv)
  · by_cases hw : w.minor = 0
    · refine absurd (dot_mem_toShortString hv) ?_
      rw [hlist]
      exact notMem_toShortString hdigit (by decide) w (.inr hw)
    · rw [toShortString, if_neg hv, toShortString, if_neg hw, toList_toVersionString, toList_toVersionString] at hlist
      have hhead : '.' ∉ 'v' :: (decimalText v.major.toNat).toList := by
        simp [notMem_decimalText hdigit]
      obtain ⟨hmajor, -, hminor⟩ :=
        (List.append_cons_inj_of_notMem hhead (notMem_decimalText hdigit v.minor.toNat)).mp hlist
      have hmajor := decimalText_inj (String.toList_injective (List.cons.inj hmajor).2)
      have hminor := decimalText_inj (String.toList_injective hminor)
      exact key_inj (by rw [key, key, hmajor, hminor])

/-- The full name of a version of a family. -/
def fullName (shortName : String) (v : SchemaVersion) : String := shortName ++ "@" ++ v.toShortString

theorem fullName_inj {s t : String} {v w : SchemaVersion} (h : v.fullName s = w.fullName t) : s = t ∧ v = w := by
  have hat : ('@' : Char).isDigit = false := by decide
  have hlist (s : String) (v : SchemaVersion) :
      (v.fullName s).toList.reverse = v.toShortString.toList.reverse ++ '@' :: s.toList.reverse := by
    simp [fullName]
  have hnot (v : SchemaVersion) : '@' ∉ v.toShortString.toList.reverse :=
    fun hmem => notMem_toShortString hat (by decide) v (.inl (by decide)) (List.mem_reverse.mp hmem)
  have heq : (v.fullName s).toList.reverse = (w.fullName t).toList.reverse := by rw [h]
  rw [hlist, hlist] at heq
  obtain ⟨hversion, hshort⟩ := Lib.append_cons_inj (hnot v) (hnot w) heq
  exact ⟨String.toList_injective (List.reverse_injective hshort),
    toShortString_inj (String.toList_injective (List.reverse_injective hversion))⟩

end SchemaVersion

inductive ChangeKind where
  | addOptionalField
  | addRequiredField
  | removeField
  | changeFieldType
  | renameField
  | deprecateField
  | changeDefault
  | makeOptional
  | makeRequired
  deriving DecidableEq, Repr

namespace ChangeKind

def isBreaking : ChangeKind → Bool
  | addRequiredField | removeField | changeFieldType | renameField | makeRequired => true
  | addOptionalField | deprecateField | changeDefault | makeOptional => false

def description : ChangeKind → String
  | addOptionalField => "Added optional field"
  | addRequiredField => "Added required field"
  | removeField => "Removed field"
  | changeFieldType => "Changed field type"
  | renameField => "Renamed field"
  | deprecateField => "Deprecated field"
  | changeDefault => "Changed default value"
  | makeOptional => "Made field optional"
  | makeRequired => "Made field required"

end ChangeKind

end Xerv.Schema
