import Xerv.Lib.Utf8Slice
import Xerv.Raft.Segment

/-!
# Names of Raft segments (`xerv-cluster/src/raft/storage/segment.rs`)

A name has twelve digits or more, and the parser reads exactly the bytes 4 to 16. An index with more digits is
read as its leading twelve, so segments can be listed under one number or in the wrong order. A name that does not
come from `segment_filename` can make the slice panic.
-/

namespace Xerv.Raft
open Xerv.Lib

def leadingTwelve (i : ℕ) : ℕ := i / 10 ^ ((Nat.digits 10 i).length - 12)

/-- A name with the right beginning and end of which no characters fill 16 bytes: it is shorter, or a character
lies across the end of the slice. -/
def SlicePanics (filename : String) : Prop :=
  segPrefix <+: filename.toList ∧ segSuffix <:+ filename.toList ∧
    ∀ front, front <+: filename.toList → (utf8 (String.ofList front)).length ≠ 16

/-- `list_segments` returns, and of two segments the one with the lower index comes first. -/
def ListedInOrder (d : FileDir) : Prop :=
  ∃ segments, listSegments d = .ok segments ∧
    ∀ i j : UInt64, segmentFilename i.toNat ∈ d → segmentFilename j.toNat ∈ d → i < j →
      [segmentFilename i.toNat, segmentFilename j.toNat].Sublist (segments.map Prod.snd)

/-! ### Round trips -/

theorem parseSegmentFilename_leading (i : ℕ) :
    parseSegmentFilename (segmentFilename i) = .ok (some (leadingTwelve i)) := by
  have hcut : (padded 10 12 i).length - 12 = (Nat.digits 10 i).length - 12 := by
    rw [padded, List.length_leftpad, List.length_map, List.length_reverse]
    omega
  rw [parseSegmentFilename_digits, parseUnsigned_take_padded 10 12 i 12 (by decide) (by decide) (by decide) le_rfl,
    hcut]
  rfl

theorem segmentIndex_leading (i : ℕ) : segmentIndex (segmentFilename i) = some (leadingTwelve i) := by
  rw [segmentIndex, parseSegmentFilename_leading]

theorem leadingTwelve_eq_iff (i : ℕ) : leadingTwelve i = i ↔ i < indexBound := by
  unfold leadingTwelve
  constructor
  · intro h
    by_contra hlarge
    have hlen : 12 < (Nat.digits 10 i).length := by
      rw [Nat.lt_digits_length_iff (by decide)]
      exact Nat.not_lt.mp hlarge
    have hpos : 0 < i := Nat.lt_of_lt_of_le (by decide) (Nat.not_lt.mp hlarge)
    have hpow : 1 < 10 ^ ((Nat.digits 10 i).length - 12) := Nat.one_lt_pow (by omega) (by decide)
    exact absurd h (Nat.ne_of_lt (Nat.div_lt_self hpos hpow))
  · intro h
    have hlen : (Nat.digits 10 i).length ≤ 12 := (Nat.digits_length_le_iff (by decide) i).mpr h
    rw [Nat.sub_eq_zero_of_le hlen, pow_zero, Nat.div_one]

/-! ### Panics -/

theorem slice_inside_iff (filename : String) :
    ((utf8 filename).length < 16 || isCont (byteAt (utf8 filename) 16)) = false ↔
      ∃ front, front <+: filename.toList ∧ (utf8 (String.ofList front)).length = 16 := by
  simp only [utf8_ofList, utf8_eq_flatMap filename, ← boundary_iff, Bool.or_eq_false_iff,
    decide_eq_false_iff_not, Nat.not_lt]

theorem parseSegmentFilename_panics_iff (filename : String) :
    parseSegmentFilename filename = .error .slicePanic ↔ SlicePanics filename := by
  have hshape : ((segPrefix.map charByte).isPrefixOf (utf8 filename) &&
      (segSuffix.map charByte).isSuffixOf (utf8 filename)) = true ↔
        segPrefix <+: filename.toList ∧ segSuffix <:+ filename.toList := by
    rw [Bool.and_eq_true, List.isPrefixOf_iff_prefix, List.isSuffixOf_iff_suffix, utf8_eq_flatMap,
      ascii_prefix_iff segPrefix_ascii, ascii_suffix_iff segSuffix_ascii]
  have hinside := slice_inside_iff filename
  unfold parseSegmentFilename SlicePanics
  dsimp only
  split
  · rename_i htrue
    obtain ⟨hfirst, hlast⟩ := hshape.mp htrue
    split
    · rename_i houtside
      refine iff_of_true rfl ⟨hfirst, hlast, fun front hfront hlength => ?_⟩
      rw [hinside.mpr ⟨front, hfront, hlength⟩] at houtside
      cases houtside
    · rename_i hin
      obtain ⟨front, hfront, hlength⟩ := hinside.mp (Bool.eq_false_of_not_eq_true hin)
      exact iff_of_false (fun h => by cases h) fun h => h.2.2 front hfront hlength
  · rename_i hfalse
    exact iff_of_false (fun h => by cases h) fun h => hfalse (hshape.mpr ⟨h.1, h.2.1⟩)

/-! ### The order of a directory -/

theorem listSegments_ok_iff (d : FileDir) (segments : List (ℕ × String)) :
    listSegments d = .ok segments ↔ (∀ name ∈ d, ¬ SlicePanics name) ∧ segments = listNumbered segmentIndex d := by
  have hany : (d.keys.any fun n => parseSegmentFilename n = .error .slicePanic) = true ↔
      ∃ name ∈ d, SlicePanics name := by
    simp only [List.any_eq_true, decide_eq_true_eq, parseSegmentFilename_panics_iff, AList.mem_keys]
  unfold listSegments
  split
  · rename_i hpanic
    obtain ⟨name, hname, hslice⟩ := hany.mp hpanic
    exact iff_of_false (fun h => by cases h) fun h => h.1 name hname hslice
  · rename_i hno
    have hnone : ∀ name ∈ d, ¬ SlicePanics name := fun name hname h => hno (hany.mpr ⟨name, hname, h⟩)
    constructor
    · intro h
      exact ⟨hnone, (Except.ok.inj h).symm⟩
    · rintro ⟨-, rfl⟩
      rfl

/-- Two segments are listed in the order of their leading digits, and the order of the directory decides between
equal ones. -/
theorem segments_before_iff (d : FileDir) {i j : ℕ} (hi : segmentFilename i ∈ d) (hj : segmentFilename j ∈ d)
    (hne : i ≠ j) :
    [segmentFilename i, segmentFilename j].Sublist ((listNumbered segmentIndex d).map Prod.snd) ↔
      leadingTwelve i < leadingTwelve j ∨
        leadingTwelve i = leadingTwelve j ∧ [segmentFilename i, segmentFilename j].Sublist d.keys :=
  listNumbered_before segmentIndex d hi hj (fun h => hne (segmentFilename_injective h)) (segmentIndex_leading i)
    (segmentIndex_leading j)

theorem listedInOrder_iff (d : FileDir) :
    ListedInOrder d ↔ (∀ name ∈ d, ¬ SlicePanics name) ∧
      ∀ i j : UInt64, segmentFilename i.toNat ∈ d → segmentFilename j.toNat ∈ d → i < j →
        leadingTwelve i.toNat < leadingTwelve j.toNat ∨ leadingTwelve i.toNat = leadingTwelve j.toNat ∧
          [segmentFilename i.toNat, segmentFilename j.toNat].Sublist d.keys := by
  have hne {i j : UInt64} (hlt : i < j) : i.toNat ≠ j.toNat := Nat.ne_of_lt (UInt64.lt_iff_toNat_lt.mp hlt)
  unfold ListedInOrder
  simp only [listSegments_ok_iff]
  constructor
  · rintro ⟨_, ⟨hslice, rfl⟩, horder⟩
    exact ⟨hslice, fun i j hi hj hlt => (segments_before_iff d hi hj (hne hlt)).mp (horder i j hi hj hlt)⟩
  · rintro ⟨hslice, horder⟩
    refine ⟨_, ⟨hslice, rfl⟩, fun i j hi hj hlt => ?_⟩
    exact (segments_before_iff d hi hj (hne hlt)).mpr (horder i j hi hj hlt)

/-- An index is read back exactly when it has at most twelve digits, a name panics exactly when no characters of
it end at byte 16, and a directory is listed in order exactly when the leading digits of its indices are. -/
theorem segmentNames_iff (i : UInt64) (filename : String) (d : FileDir) :
    (parseSegmentFilename (segmentFilename i.toNat) = .ok (some i.toNat) ↔ i.toNat < indexBound) ∧
      (parseSegmentFilename filename ≠ .error .slicePanic ↔ ¬ SlicePanics filename) ∧
      (ListedInOrder d ↔ (∀ name ∈ d, ¬ SlicePanics name) ∧
        ∀ i j : UInt64, segmentFilename i.toNat ∈ d → segmentFilename j.toNat ∈ d → i < j →
          leadingTwelve i.toNat < leadingTwelve j.toNat ∨ leadingTwelve i.toNat = leadingTwelve j.toNat ∧
            [segmentFilename i.toNat, segmentFilename j.toNat].Sublist d.keys) := by
  refine ⟨?_, not_congr (parseSegmentFilename_panics_iff filename), listedInOrder_iff d⟩
  rw [parseSegmentFilename_leading, Except.ok.injEq, Option.some.injEq, leadingTwelve_eq_iff]

/-- The thirteenth digit of an index is lost, which puts its segment before one with a lower index, and a name can
be too short for the slice. -/
theorem segmentNames_misread :
    parseSegmentFilename (segmentFilename (1000000000000 : UInt64).toNat) = .ok (some 100000000000) ∧
      ¬ ListedInOrder (AList.insert (segmentFilename 1000000000000) DiskFile.empty
        (AList.insert (segmentFilename 200000000000) DiskFile.empty ∅)) ∧
      parseSegmentFilename "seg_.log" = .error .slicePanic := by
  have hlong : leadingTwelve 1000000000000 = 100000000000 := by norm_num [leadingTwelve]
  have hshort : leadingTwelve 200000000000 = 200000000000 := by norm_num [leadingTwelve]
  refine ⟨?_, ?_, by decide⟩
  · exact (parseSegmentFilename_leading 1000000000000).trans (by rw [hlong])
  · intro h
    have horder := ((listedInOrder_iff _).mp h).2 200000000000 1000000000000
      ((AList.mem_insert _).mpr (.inr ((AList.mem_insert _).mpr (.inl rfl)))) ((AList.mem_insert _).mpr (.inl rfl))
      (by decide)
    change leadingTwelve 200000000000 < leadingTwelve 1000000000000 ∨
      leadingTwelve 200000000000 = leadingTwelve 1000000000000 ∧ _ at horder
    rw [hlong, hshort] at horder
    omega

end Xerv.Raft
