import Xerv.Lib.BufferedFile
import Xerv.Lib.Lines
import Xerv.Lib.Numeral
import Xerv.Lib.SortedMap
import Xerv.Lib.Utf8

/-!
# Raft log segments (`xerv-cluster/src/raft/storage/segment.rs`)

A segment file holds one JSON entry a line and is named after an index that is a
multiple of 1000. `serde_json` is not part of the repository: the codec of an
entry is a parameter whose fields state what the storage relies on, that an
entry decodes to itself and that its text fits on a line.
-/

namespace Xerv.Raft
open Xerv.Lib

-- `openraft::LogId` and `openraft::Entry`, over an arbitrary payload
structure LogId where
  term : ℕ
  nodeId : ℕ
  index : ℕ
  deriving DecidableEq, Repr

structure ClusterEntry (P : Type) where
  logId : LogId
  payload : P
  deriving DecidableEq, Repr

abbrev ClusterEntry.index {P : Type} (e : ClusterEntry P) : ℕ := e.logId.index

structure EntryCodec (P : Type) where
  toJson : ClusterEntry P → Bytes
  fromJson : Bytes → Option (ClusterEntry P)
  roundTrip : ∀ e, fromJson (toJson e) = some e
  isLine : ∀ e, IsLine (toJson e)

/-- The ways a storage operation stops: a panic of the slice `&filename[4..16]`, or an
`InvalidData` error from a line that does not decode. -/
inductive StorageError where
  | slicePanic
  | invalidData
  deriving DecidableEq, Repr

/-- `SEGMENT_MAX_ENTRIES`. -/
def segmentMaxEntries : ℕ := 1000

/-! ### File names -/

def segPrefix : List Char := ['s', 'e', 'g', '_']

def segSuffix : List Char := ['.', 'l', 'o', 'g']

/-- `format!("seg_{:012}.log", first_index)`. -/
def segmentFilename (firstIndex : ℕ) : String :=
  String.ofList (segPrefix ++ (padded 10 12 firstIndex ++ segSuffix))

/-- `parse_segment_filename`: the bytes 4 to 16 of a name of the right shape. The slice panics on a
shorter name, or when byte 16 is inside a character. -/
def parseSegmentFilename (filename : String) : Except StorageError (Option ℕ) :=
  let bs := utf8 filename
  if (segPrefix.map charByte).isPrefixOf bs && (segSuffix.map charByte).isSuffixOf bs then
    if bs.length < 16 || isCont (byteAt bs 16) then .error .slicePanic
    else .ok (parseUnsigned 10 (((bs.drop 4).take 12).map byteChar))
  else .ok none

/-- The index of a name that parses, `none` for every other name. -/
def segmentIndex (filename : String) : Option ℕ :=
  match parseSegmentFilename filename with
  | .ok i => i
  | .error _ => none

def listSegments (d : FileDir) : Except StorageError (List (ℕ × String)) :=
  if d.keys.any fun n => parseSegmentFilename n = .error .slicePanic then .error .slicePanic
  else .ok (listNumbered segmentIndex d)

/-- Indices whose numeral has at most twelve digits. -/
def indexBound : ℕ := 10 ^ 12

theorem segPrefix_ascii (c : Char) (h : c ∈ segPrefix) : c.toNat < 128 := by
  have hall : ∀ c ∈ segPrefix, c.toNat < 128 := by simp [segPrefix]
  exact hall c h

theorem segSuffix_ascii (c : Char) (h : c ∈ segSuffix) : c.toNat < 128 := by
  have hall : ∀ c ∈ segSuffix, c.toNat < 128 := by simp [segSuffix]
  exact hall c h

theorem segmentFilename_ascii (i : ℕ) (c : Char)
    (h : c ∈ segPrefix ++ (padded 10 12 i ++ segSuffix)) : c.toNat < 128 := by
  rcases List.mem_append.mp h with hc | hc
  · exact segPrefix_ascii c hc
  · rcases List.mem_append.mp hc with hc | hc
    · exact padded_ascii 10 12 i (by decide) (by decide) c hc
    · exact segSuffix_ascii c hc

theorem segmentFilename_bytes (i : ℕ) : utf8 (segmentFilename i) =
    segPrefix.map charByte ++ ((padded 10 12 i).map charByte ++ segSuffix.map charByte) := by
  unfold segmentFilename
  rw [utf8_ascii _ (segmentFilename_ascii i), List.map_append, List.map_append]

theorem isCont_segmentFilename (i k : ℕ) : isCont (byteAt (utf8 (segmentFilename i)) k) = false := by
  have hascii : (byteAt (utf8 (segmentFilename i)) k).toNat < 128 := by
    unfold byteAt segmentFilename
    rw [utf8_ascii _ (segmentFilename_ascii i), List.getD_eq_getElem?_getD, List.getElem?_map]
    cases hc : (segPrefix ++ (padded 10 12 i ++ segSuffix))[k]? with
    | none => exact Nat.zero_lt_succ _
    | some c =>
      have hlow := segmentFilename_ascii i c (List.mem_of_getElem? hc)
      show (charByte c).toNat < 128
      rwa [charByte_toNat c hlow]
  have hlow : ¬ (0x80 : UInt8) ≤ byteAt (utf8 (segmentFilename i)) k := by
    rw [UInt8.le_iff_toNat_le]
    exact Nat.not_le.mpr hascii
  unfold isCont
  rw [decide_eq_false hlow, Bool.false_and]

theorem parseSegmentFilename_digits (i : ℕ) : parseSegmentFilename (segmentFilename i) =
    .ok (parseUnsigned 10 ((padded 10 12 i).take 12)) := by
  have hlen : 12 ≤ ((padded 10 12 i).map charByte).length := by
    rw [List.length_map]
    exact padded_length_ge 10 12 i
  have hpre : ((segPrefix.map charByte).isPrefixOf (utf8 (segmentFilename i))) = true := by
    rw [segmentFilename_bytes, List.isPrefixOf_iff_prefix]
    exact List.prefix_append _ _
  have hsuf : ((segSuffix.map charByte).isSuffixOf (utf8 (segmentFilename i))) = true := by
    rw [segmentFilename_bytes, ← List.append_assoc, List.isSuffixOf_iff_suffix]
    exact List.suffix_append _ _
  have htotal : ¬ (utf8 (segmentFilename i)).length < 16 := by
    rw [segmentFilename_bytes, List.length_append, List.length_append]
    simp only [segPrefix, segSuffix, List.length_map, List.length_cons, List.length_nil] at hlen ⊢
    omega
  have hdigits : ((utf8 (segmentFilename i)).drop 4).take 12 = ((padded 10 12 i).take 12).map charByte := by
    rw [segmentFilename_bytes, List.drop_left' (by decide), List.take_append_of_le_length hlen,
      List.map_take]
  have hback : (((padded 10 12 i).take 12).map charByte).map byteChar = (padded 10 12 i).take 12 := by
    rw [List.map_map]
    refine (List.map_congr_left fun c hc => ?_).trans (List.map_id _)
    exact byteChar_charByte c (padded_ascii 10 12 i (by decide) (by decide) c (List.mem_of_mem_take hc))
  have hok : ((utf8 (segmentFilename i)).length < 16 ||
      isCont (byteAt (utf8 (segmentFilename i)) 16)) = false := by
    rw [isCont_segmentFilename, decide_eq_false htotal]
    rfl
  unfold parseSegmentFilename
  simp only [hpre, hsuf, hok, hdigits, hback, Bool.and_self, if_true, Bool.false_eq_true, if_false]

theorem parseSegmentFilename_segmentFilename (i : ℕ) (h : i < indexBound) :
    parseSegmentFilename (segmentFilename i) = .ok (some i) := by
  have hlen := padded_length 10 12 i (by decide) h
  rw [parseSegmentFilename_digits, List.take_of_length_le (Nat.le_of_eq hlen),
    parseUnsigned_padded 10 12 i (by decide) (by decide) (by decide)]

theorem segmentIndex_segmentFilename (i : ℕ) (h : i < indexBound) :
    segmentIndex (segmentFilename i) = some i := by
  unfold segmentIndex
  rw [parseSegmentFilename_segmentFilename i h]

theorem segmentFilename_injective : Function.Injective segmentFilename := by
  intro i j h
  have hchars := List.append_cancel_left (String.ofList_injective h)
  have hpadded := List.append_cancel_right hchars
  have hvalue := congrArg (parseUnsigned 10) hpadded
  rw [parseUnsigned_padded 10 12 i (by decide) (by decide) (by decide),
    parseUnsigned_padded 10 12 j (by decide) (by decide) (by decide)] at hvalue
  exact Option.some.inj hvalue

theorem listSegments_eq (d : FileDir) (idx : List ℕ) (hbound : ∀ i ∈ idx, i < indexBound)
    (hsorted : idx.Pairwise (· < ·)) (hmem : ∀ n, n ∈ d ↔ ∃ i ∈ idx, n = segmentFilename i) :
    listSegments d = .ok (idx.map fun i => (i, segmentFilename i)) := by
  have hno : (d.keys.any fun n => parseSegmentFilename n = .error .slicePanic) = false := by
    rw [List.any_eq_false]
    intro n hn
    obtain ⟨i, hi, rfl⟩ := (hmem n).mp (AList.mem_keys.mpr hn)
    simp [parseSegmentFilename_segmentFilename i (hbound i hi)]
  unfold listSegments
  rw [hno, listNumbered_eq segmentIndex segmentFilename d idx
    (fun i hi => segmentIndex_segmentFilename i (hbound i hi)) hsorted hmem]
  rfl

theorem listSegments_all (d : FileDir) (h : ∀ n ∈ d, ∃ i, n = segmentFilename i) :
    ∃ segments, listSegments d = .ok segments ∧ ∀ n, n ∈ d ↔ ∃ i, (i, n) ∈ segments := by
  have hparse : ∀ n ∈ d, ∃ m, parseSegmentFilename n = .ok (some m) := by
    intro n hn
    obtain ⟨i, rfl⟩ := h n hn
    exact ⟨_, by rw [parseSegmentFilename_digits,
      parseUnsigned_take_padded 10 12 i 12 (by decide) (by decide) (by decide) le_rfl]⟩
  have hno : (d.keys.any fun n => parseSegmentFilename n = .error .slicePanic) = false := by
    rw [List.any_eq_false]
    intro n hn
    obtain ⟨m, hm⟩ := hparse n (AList.mem_keys.mpr hn)
    simp [hm]
  refine ⟨listNumbered segmentIndex d, ?_, fun n => ?_⟩
  · unfold listSegments
    rw [hno]
    rfl
  · constructor
    · intro hn
      obtain ⟨m, hm⟩ := hparse n hn
      exact ⟨m, (mem_listNumbered segmentIndex d m n).mpr ⟨hn, by rw [segmentIndex, hm]⟩⟩
    · intro hex
      obtain ⟨i, hi⟩ := hex
      exact ((mem_listNumbered segmentIndex d i n).mp hi).1

/-! ### File contents -/

section Contents
variable {P : Type} (codec : EntryCodec P)

def entryLine (e : ClusterEntry P) : Bytes := codec.toJson e ++ [10]

def encodeEntries (es : List (ClusterEntry P)) : Bytes := es.flatMap (entryLine codec)

/-- The loop of `load_segment_file`: empty lines are skipped, a line that does not decode is an
error. -/
def loadLines : List Bytes → Except StorageError (List (ClusterEntry P))
  | [] => .ok []
  | line :: lines =>
    if line = [] then loadLines lines
    else
      match codec.fromJson line with
      | none => .error .invalidData
      | some e => (loadLines lines).map (e :: ·)

def loadEntries (data : Bytes) : Except StorageError (List (ClusterEntry P)) :=
  loadLines codec (splitLines data)

theorem encodeEntries_append (es fs : List (ClusterEntry P)) :
    encodeEntries codec (es ++ fs) = encodeEntries codec es ++ encodeEntries codec fs :=
  List.flatMap_append

theorem loadLines_append (es : List (ClusterEntry P)) (lines : List Bytes) :
    loadLines codec (es.map codec.toJson ++ lines) = (loadLines codec lines).map (es ++ ·) := by
  induction es with
  | nil =>
    show _ = (loadLines codec lines).map id
    rw [Except.map_id]
    rfl
  | cons e es ih =>
    rw [List.map_cons, List.cons_append, loadLines, if_neg (codec.isLine e).nonempty, codec.roundTrip, ih]
    cases loadLines codec lines with
    | error err => rfl
    | ok fs => rfl

theorem loadLines_map (es : List (ClusterEntry P)) :
    loadLines codec (es.map codec.toJson) = .ok es := by
  have happend := loadLines_append codec es []
  rw [List.append_nil] at happend
  rw [happend, loadLines, Except.map, List.append_nil]

theorem loadEntries_encodeEntries (es : List (ClusterEntry P)) :
    loadEntries codec (encodeEntries codec es) = .ok es := by
  unfold loadEntries encodeEntries entryLine
  rw [splitLines_flatMap codec.toJson es codec.isLine, loadLines_map]

/-- What is loaded from a file with an unfinished last line depends on whether that line decodes. -/
theorem loadEntries_unfinished (es : List (ClusterEntry P)) (tail : Bytes) (hne : tail ≠ [])
    (hline : 10 ∉ tail) : loadEntries codec (encodeEntries codec es ++ tail) =
      match codec.fromJson tail with
      | none => .error .invalidData
      | some e => .ok (es ++ [e]) := by
  unfold loadEntries encodeEntries entryLine
  rw [splitLines_flatMap_append codec.toJson es tail codec.isLine,
    splitLines_unfinished tail hne hline, loadLines_append, loadLines, if_neg hne]
  cases codec.fromJson tail with
  | none => rfl
  | some e => rfl

end Contents

/-! ### Blank entries

The JSON text of the entry with no payload that a new leader appends. -/

def jsonTerm : List Char := "\x7b\"log_id\":\x7b\"leader_id\":\x7b\"term\":".toList

def jsonNode : List Char := ",\"node_id\":".toList

def jsonIndex : List Char := "\x7d,\"index\":".toList

def jsonBlank : List Char := "\x7d,\"payload\":\"Blank\"\x7d".toList

def blankEntry (index : ℕ) : ClusterEntry Unit := ⟨⟨1, 1, index⟩, ()⟩

def blankText (e : ClusterEntry Unit) : List Char :=
  jsonTerm ++ (padded 10 1 e.logId.term ++ (jsonNode ++ (padded 10 1 e.logId.nodeId ++
    (jsonIndex ++ (padded 10 1 e.logId.index ++ jsonBlank)))))

def stripText (text cs : List Char) : Option (List Char) :=
  if text.isPrefixOf cs then some (cs.drop text.length) else none

def takeNumber (cs : List Char) : Option (ℕ × List Char) :=
  (parseUnsigned 10 (cs.takeWhile Char.isDigit)).map fun n => (n, cs.dropWhile Char.isDigit)

def parseBlank (cs : List Char) : Option (ClusterEntry Unit) := do
  let (term, cs) ← takeNumber (← stripText jsonTerm cs)
  let (nodeId, cs) ← takeNumber (← stripText jsonNode cs)
  let (index, cs) ← takeNumber (← stripText jsonIndex cs)
  if cs = jsonBlank then some ⟨⟨term, nodeId, index⟩, ()⟩ else none

theorem stripText_append (text cs : List Char) : stripText text (text ++ cs) = some cs := by
  have hpre : text.isPrefixOf (text ++ cs) = true :=
    List.isPrefixOf_iff_prefix.mpr (List.prefix_append _ _)
  rw [stripText, if_pos hpre, List.drop_left]

theorem digitChar_isDigit (d : ℕ) (h : d < 10) : (Nat.digitChar d).isDigit = true := by
  interval_cases d <;> decide

theorem padded_isDigit (width n : ℕ) (c : Char) (h : c ∈ padded 10 width n) : c.isDigit = true := by
  rcases mem_padded 10 width n (by decide) c h with hc | ⟨d, hd, hc⟩
  · rw [hc]
    decide
  · rw [hc]
    exact digitChar_isDigit d hd

theorem takeNumber_padded (n : ℕ) (c : Char) (cs : List Char) (hc : c.isDigit = false) :
    takeNumber (padded 10 1 n ++ c :: cs) = some (n, c :: cs) := by
  have htake : (padded 10 1 n ++ c :: cs).takeWhile Char.isDigit = padded 10 1 n := by
    rw [List.takeWhile_append_of_pos (padded_isDigit 1 n)]
    simp [hc]
  have hdrop : (padded 10 1 n ++ c :: cs).dropWhile Char.isDigit = c :: cs := by
    rw [List.dropWhile_append_of_pos (padded_isDigit 1 n)]
    simp [hc]
  rw [takeNumber, htake, hdrop, parseUnsigned_padded 10 1 n (by decide) (by decide) (by decide)]
  rfl

theorem parseBlank_blankText (e : ClusterEntry Unit) : parseBlank (blankText e) = some e := by
  have hnode (cs : List Char) : takeNumber (padded 10 1 e.logId.term ++ (jsonNode ++ cs)) =
      some (e.logId.term, jsonNode ++ cs) := takeNumber_padded _ ',' _ (by decide)
  have hindex (cs : List Char) : takeNumber (padded 10 1 e.logId.nodeId ++ (jsonIndex ++ cs)) =
      some (e.logId.nodeId, jsonIndex ++ cs) := takeNumber_padded _ '\x7d' _ (by decide)
  have hblank : takeNumber (padded 10 1 e.logId.index ++ jsonBlank) =
      some (e.logId.index, jsonBlank) := takeNumber_padded _ '\x7d' _ (by decide)
  unfold parseBlank blankText
  simp only [stripText_append, hnode, hindex, hblank, Option.bind_eq_bind, Option.bind_some, if_true]

theorem blankText_printable (e : ClusterEntry Unit) (c : Char) (h : c ∈ blankText e) :
    32 ≤ c.toNat ∧ c.toNat < 128 := by
  have hall : (jsonTerm ++ jsonNode ++ jsonIndex ++ jsonBlank).all
      (fun x => decide (32 ≤ x.toNat ∧ x.toNat < 128)) = true := by decide
  have hlit : ∀ x ∈ jsonTerm ++ jsonNode ++ jsonIndex ++ jsonBlank, 32 ≤ x.toNat ∧ x.toNat < 128 :=
    fun x hx => of_decide_eq_true (List.all_eq_true.mp hall x hx)
  have hnum : ∀ n, ∀ x ∈ padded 10 1 n, 32 ≤ x.toNat ∧ x.toNat < 128 := by
    intro n x hx
    have hdigit := padded_isDigit 1 n x hx
    refine ⟨?_, padded_ascii 10 1 n (by decide) (by decide) x hx⟩
    simp only [Char.isDigit, Bool.and_eq_true, decide_eq_true_eq] at hdigit
    have hge : 48 ≤ x.val.toNat := UInt32.le_iff_toNat_le.mp hdigit.1
    exact Nat.le_trans (by decide) hge
  simp only [blankText, List.mem_append] at h
  simp only [List.mem_append] at hlit
  rcases h with h | h | h | h | h | h | h
  · exact hlit c (.inl (.inl (.inl h)))
  · exact hnum _ c h
  · exact hlit c (.inl (.inl (.inr h)))
  · exact hnum _ c h
  · exact hlit c (.inl (.inr h))
  · exact hnum _ c h
  · exact hlit c (.inr h)

def blankCodec : EntryCodec Unit where
  toJson e := (blankText e).map charByte
  fromJson bs := parseBlank (bs.map byteChar)
  roundTrip e := by
    have hback : ((blankText e).map charByte).map byteChar = blankText e := by
      rw [List.map_map]
      refine (List.map_congr_left fun c hc => ?_).trans (List.map_id _)
      exact byteChar_charByte c (blankText_printable e c hc).2
    rw [hback, parseBlank_blankText]
  isLine e := by
    have hbyte : ∀ b ∈ (blankText e).map charByte, 32 ≤ b.toNat := by
      intro b hb
      obtain ⟨c, hc, rfl⟩ := List.mem_map.mp hb
      obtain ⟨hlow, hhigh⟩ := blankText_printable e c hc
      rw [charByte_toNat c hhigh]
      exact hlow
    refine ⟨fun hnil => ?_, fun hmem => ?_, fun hlast => ?_⟩
    · have htext := List.map_eq_nil_iff.mp hnil
      exact absurd (List.append_eq_nil_iff.mp htext).1 (by decide)
    · exact absurd (hbyte 10 hmem) (by decide)
    · exact absurd (hbyte 13 (List.mem_of_getLast? hlast)) (by decide)

end Xerv.Raft
