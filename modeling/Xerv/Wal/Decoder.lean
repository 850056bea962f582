import Xerv.Lib.Words
import Xerv.Wal.Damage
import Xerv.Wal.Reader

/-!
# The WAL record decoder on any bytes (`xerv-core/src/wal/record.rs`, `xerv-core/src/wal/writer/reader.rs`)

`from_bytes` slices the payload by the length word before it compares the word with the header size, and
panics where the word is smaller. The reader compares first, so that no directory makes it panic.
-/

namespace Xerv
open Xerv.Lib

/-- The length in the first word of a record. -/
def announcedLength (bytes : Bytes) : ℕ := leVal (bytes.take 4)

/-- `from_bytes` returns, and what it returns depends on the word and on the bytes that it announces alone. -/
def DecodesWithin (crc : Bytes → UInt32) (bytes : Bytes) : Prop :=
  (∀ e, WalRecord.fromBytes crc bytes = .error e → e.isPanic = false) ∧
    ∀ bytes' : Bytes, bytes'.length = bytes.length →
      bytes'.take (max 4 (announcedLength bytes)) = bytes.take (max 4 (announcedLength bytes)) →
        WalRecord.fromBytes crc bytes' = WalRecord.fromBytes crc bytes

def typeByte (bytes : Bytes) : UInt8 := byteAt bytes 8

/-- The bytes are too few for a header, or announce one, or stop at an unknown type that they announce. -/
def LengthChecked (bytes : Bytes) : Prop :=
  bytes.length < minRecordSize ∨ minRecordSize ≤ announcedLength bytes ∨
    (9 ≤ announcedLength bytes ∧ WalRecordType.ofU8 (typeByte bytes) = none)

section Agreement
variable {bytes bytes' : Bytes} {n : ℕ} (h : bytes'.take n = bytes.take n)
include h

theorem take_of_take {k : ℕ} (hk : k ≤ n) : bytes'.take k = bytes.take k := by
  rw [← Nat.min_eq_left hk, ← List.take_take, h, List.take_take]

theorem slice_of_take {i k : ℕ} (hk : i + k ≤ n) : (bytes'.drop i).take k = (bytes.drop i).take k := by
  rw [List.take_drop, List.take_drop, take_of_take h hk]

theorem byteAt_of_take {i : ℕ} (hi : i < n) : byteAt bytes' i = byteAt bytes i := by
  have hget := congrArg (fun bs => bs[i]?) h
  simp only [List.getElem?_take, if_pos hi] at hget
  unfold byteAt
  rw [List.getD_eq_getElem?_getD, List.getD_eq_getElem?_getD, hget]

end Agreement

section Decoder
variable (crc : Bytes → UInt32)

theorem decodePayload_fails (t : WalRecordType) (traceId : TraceId) (nodeId : NodeId) (payload : Bytes)
    {e : DecodeError} (he : decodePayload t traceId nodeId payload = .error e) : e = .unexpectedEof := by
  rw [decodePayload_eq] at he
  cases hread : readPayload t traceId nodeId payload with
  | ok p =>
    rw [hread] at he
    cases he
  | error e' =>
    rw [hread] at he
    cases he
    exact (CursorRead.ofPayload t traceId nodeId).fails payload e hread

/-- What `from_bytes` makes of bytes that have room for a header. -/
theorem fromBytes_cases (bytes : Bytes) (hlen : minRecordSize ≤ bytes.length) :
    (WalRecordType.ofU8 (typeByte bytes) = none ∧ WalRecord.fromBytes crc bytes = .error .unknownType) ∨
      (∃ t, WalRecordType.ofU8 (typeByte bytes) = some t ∧ announcedLength bytes < minRecordSize ∧
        WalRecord.fromBytes crc bytes = .error (.slicePanic minRecordSize (announcedLength bytes))) ∨
      (∃ t, WalRecordType.ofU8 (typeByte bytes) = some t ∧ minRecordSize ≤ announcedLength bytes ∧
        ∀ e, WalRecord.fromBytes crc bytes = .error e → e.isPanic = false) := by
  unfold WalRecord.fromBytes typeByte announcedLength
  rw [dif_pos hlen]
  dsimp only
  cases htype : WalRecordType.ofU8 (byteAt bytes 8) with
  | none => exact .inl ⟨rfl, rfl⟩
  | some t =>
    dsimp only
    refine .inr ?_
    by_cases hshort : leVal (bytes.take 4) < minRecordSize
    · rw [if_neg (by omega), if_pos hshort]
      exact .inl ⟨t, rfl, hshort, rfl⟩
    · refine .inr ⟨t, rfl, Nat.not_lt.mp hshort, fun e he => ?_⟩
      rw [if_neg hshort] at he
      split_ifs at he
      · cases he
        rfl
      · cases he
        rfl
      · rw [decodePayload_fails _ _ _ _ he]
        rfl

theorem fromBytes_congr {bytes bytes' : Bytes} (hlen : bytes'.length = bytes.length)
    (hheader : bytes'.take minRecordSize = bytes.take minRecordSize)
    (hwhole : bytes'.take (announcedLength bytes) = bytes.take (announcedLength bytes)) :
    WalRecord.fromBytes crc bytes' = WalRecord.fromBytes crc bytes := by
  by_cases hlong : minRecordSize ≤ bytes.length
  · have hlong' : minRecordSize ≤ bytes'.length := hlen.symm ▸ hlong
    have hword : bytes'.take 4 = bytes.take 4 := take_of_take hheader (by decide)
    have hcrc : (bytes'.drop 4).take 4 = (bytes.drop 4).take 4 := slice_of_take hheader (by decide)
    have hnode : (bytes'.drop 25).take 4 = (bytes.drop 25).take 4 := slice_of_take hheader (by decide)
    have htype : byteAt bytes' 8 = byteAt bytes 8 := byteAt_of_take hheader (by decide)
    have htrace : headerTraceId bytes' hlong' = headerTraceId bytes hlong := by
      unfold headerTraceId
      congr 1
      exact slice_of_take hheader (by decide)
    unfold announcedLength at hwhole
    unfold WalRecord.fromBytes
    rw [dif_pos hlong', dif_pos hlong]
    dsimp only
    rw [hword, hcrc, hnode, htype, htrace, hlen, hwhole]
  · unfold WalRecord.fromBytes
    rw [dif_neg hlong, dif_neg (hlen.symm ▸ hlong)]

theorem fromBytes_short {bytes : Bytes} (hshort : bytes.length < minRecordSize) :
    WalRecord.fromBytes crc bytes = .error .tooSmall := by
  unfold WalRecord.fromBytes
  rw [dif_neg (Nat.not_le.mpr hshort)]

theorem fromBytes_unknown {bytes : Bytes} (hlong : minRecordSize ≤ bytes.length)
    (htype : WalRecordType.ofU8 (typeByte bytes) = none) :
    WalRecord.fromBytes crc bytes = .error .unknownType := by
  unfold typeByte at htype
  unfold WalRecord.fromBytes
  rw [dif_pos hlong]
  dsimp only
  rw [htype]

/-- With another byte in the place of the type, a short announcement is a panic instead of an unknown type. -/
theorem decodesWithin_unknown {bytes : Bytes} (hlong : minRecordSize ≤ bytes.length)
    (hword : announcedLength bytes < 9) (htype : WalRecordType.ofU8 (typeByte bytes) = none) :
    ¬ DecodesWithin crc bytes := by
  rintro ⟨-, hsame⟩
  have hlen : (bytes.set 8 0).length = bytes.length := List.length_set
  have htake {k : ℕ} (hk : k ≤ 8) : (bytes.set 8 0).take k = bytes.take k := List.take_set_of_le hk
  have hannounced : announcedLength (bytes.set 8 0) = announcedLength bytes := by
    unfold announcedLength
    rw [htake (by decide)]
  have hstart : WalRecordType.ofU8 (typeByte (bytes.set 8 0)) = some .traceStart := by
    unfold minRecordSize at hlong
    unfold typeByte byteAt
    rw [List.getD_eq_getElem?_getD, List.getElem?_set_self (by omega)]
    rfl
  have hequal := hsame (bytes.set 8 0) hlen (htake (by omega))
  rw [fromBytes_unknown crc hlong htype] at hequal
  rcases fromBytes_cases crc (bytes.set 8 0) (hlen.symm ▸ hlong) with
    ⟨hnone, -⟩ | ⟨t, -, -, hpanic⟩ | ⟨t, -, hge, -⟩
  · rw [hstart] at hnone
    cases hnone
  · rw [hpanic] at hequal
    cases hequal
  · rw [hannounced] at hge
    unfold minRecordSize at hge
    omega

theorem decodesWithin_iff (bytes : Bytes) : DecodesWithin crc bytes ↔ LengthChecked bytes := by
  by_cases hlong : minRecordSize ≤ bytes.length
  case neg =>
    refine iff_of_true ⟨fun e he => ?_, fun bytes' hlen _ => ?_⟩ (.inl (Nat.not_le.mp hlong))
    · rw [fromBytes_short crc (Nat.not_le.mp hlong)] at he
      cases he
      rfl
    · rw [fromBytes_short crc (Nat.not_le.mp hlong), fromBytes_short crc (hlen ▸ Nat.not_le.mp hlong)]
  rcases fromBytes_cases crc bytes hlong with ⟨htype, hunknown⟩ | ⟨t, ht, hshort, hpanic⟩ | ⟨t, ht, hge, hreturns⟩
  · by_cases hword : 9 ≤ announcedLength bytes
    · refine iff_of_true ⟨fun e he => ?_, fun bytes' hlen htake => ?_⟩ (.inr (.inr ⟨hword, htype⟩))
      · rw [hunknown] at he
        cases he
        rfl
      · have hbyte : byteAt bytes' 8 = byteAt bytes 8 := byteAt_of_take htake (by omega)
        unfold typeByte at htype
        rw [hunknown, fromBytes_unknown crc (hlen.symm ▸ hlong) (by rw [typeByte, hbyte, htype])]
    · refine iff_of_false (decodesWithin_unknown crc hlong (by omega) htype) ?_
      unfold LengthChecked minRecordSize
      unfold minRecordSize at hlong
      omega
  · refine iff_of_false (fun h => Bool.noConfusion (h.1 _ hpanic)) ?_
    rintro (hfew | hge | ⟨-, hnone⟩)
    · omega
    · omega
    · rw [ht] at hnone
      cases hnone
  · refine iff_of_true ⟨hreturns, fun bytes' hlen htake => ?_⟩ (.inr (.inl hge))
    exact fromBytes_congr crc hlen (take_of_take htake (hge.trans (le_max_right _ _)))
      (take_of_take htake (le_max_right _ _))

end Decoder

/-! ### The reader -/

namespace WalReader

/-- The loop of `read_file_from`: a record that does not decode is skipped, but a panic ends the read. -/
def readRecords (crc : Bytes → UInt32) : ℕ → ℕ → Bytes → Except Panic (Except XervError (List WalRecord))
  | 0, _, _ => .ok (.ok [])
  | fuel + 1, pos, bs =>
    match readLe 4 bs with
    | none => .ok (.ok [])
    | some (length, _) =>
      if length < minRecordSize then
        .ok (.error (.walCorruption (pos + 4) s!"Invalid record length: {length}"))
      else
        match readBytes length bs with
        | none => .ok (.error (.walRead "Failed to read record: failed to fill whole buffer"))
        | some (buf, rest) =>
          match WalRecord.fromBytes crc buf with
          | .ok record => (readRecords crc fuel (pos + length) rest).map fun r => r.map (record :: ·)
          | .error e => if e.isPanic then .error .sliceIndex else readRecords crc fuel (pos + length) rest

def readFileFrom (crc : Bytes → UInt32) (data : Bytes) (startOffset : ℕ) :
    Except Panic (Except XervError (List WalRecord)) :=
  let bs := data.drop startOffset
  readRecords crc bs.length startOffset bs

def readFiles (crc : Bytes → UInt32) (d : FileDir) (start : WalPosition) :
    List (ℕ × String) → Except Panic (Except XervError (List WalRecord))
  | [] => .ok (.ok [])
  | (seq, path) :: files =>
    if seq < start.fileSequence then readFiles crc d start files
    else
      match d.get path with
      | none => .ok (.error (.walRead s!"Failed to open {path}: No such file or directory (os error 2)"))
      | some f =>
        match readFileFrom crc f.data (if seq = start.fileSequence then start.offset else 0) with
        | .error p => .error p
        | .ok (.error e) => .ok (.error e)
        | .ok (.ok records) => (readFiles crc d start files).map fun r => r.map (records ++ ·)

def readFrom (crc : Bytes → UInt32) (d : FileDir) (start : WalPosition) :
    Except Panic (Except XervError (List WalRecord)) :=
  readFiles crc d start (listNumbered parseWalFileName d)

def readAll (crc : Bytes → UInt32) (d : FileDir) : Except Panic (Except XervError (List WalRecord)) :=
  readFrom crc d ⟨0, 0⟩

variable (crc : Bytes → UInt32)

theorem announced_buffer {bs word buf rest : Bytes} {length : ℕ} (hword : readLe 4 bs = some (length, word))
    (hmin : minRecordSize ≤ length) (hread : readBytes length bs = some (buf, rest)) :
    buf.length = length ∧ announcedLength buf = length := by
  unfold minRecordSize at hmin
  unfold readBytes at hread
  unfold readLe at hword
  split_ifs at hread hword with hlen hfour
  · cases hread
    have hval : leVal (bs.take 4) = length := congrArg Prod.fst (Option.some.inj hword)
    refine ⟨List.length_take_of_le hlen, ?_⟩
    unfold announcedLength
    rw [List.take_take, Nat.min_eq_left (by omega), hval]

theorem readRecords_returns (fuel pos : ℕ) (bs : Bytes) :
    readRecords crc fuel pos bs = .ok (Xerv.readRecords crc fuel pos bs) := by
  induction fuel generalizing pos bs with
  | zero => rfl
  | succ fuel ih =>
    unfold readRecords Xerv.readRecords
    cases hword : readLe 4 bs with
    | none => rfl
    | some p =>
      obtain ⟨length, word⟩ := p
      dsimp only
      by_cases hmin : length < minRecordSize
      · rw [if_pos hmin, if_pos hmin]
      rw [if_neg hmin, if_neg hmin]
      cases hread : readBytes length bs with
      | none => rfl
      | some q =>
        obtain ⟨buf, rest⟩ := q
        dsimp only
        obtain ⟨hlen, hannounced⟩ := announced_buffer hword (Nat.not_lt.mp hmin) hread
        cases hdecode : WalRecord.fromBytes crc buf with
        | ok record =>
          dsimp only
          rw [ih]
          rfl
        | error e =>
          -- a length that the loop lets through is one that the decoder can slice by
          have hpanic : e.isPanic = false :=
            ((decodesWithin_iff crc buf).mpr (.inr (.inl (hannounced.symm ▸ Nat.not_lt.mp hmin)))).1 e hdecode
          dsimp only
          rw [hpanic, ih]
          rfl

theorem readFiles_returns (d : FileDir) (start : WalPosition) (files : List (ℕ × String)) :
    readFiles crc d start files = .ok (Xerv.readFiles crc d start files) := by
  induction files with
  | nil => rfl
  | cons file files ih =>
    obtain ⟨seq, path⟩ := file
    unfold readFiles Xerv.readFiles
    by_cases hseq : seq < start.fileSequence
    · rw [if_pos hseq, if_pos hseq, ih]
    rw [if_neg hseq, if_neg hseq]
    cases hfile : d.get path with
    | none => rfl
    | some f =>
      dsimp only
      unfold readFileFrom Xerv.readFileFrom
      dsimp only
      rw [readRecords_returns]
      cases Xerv.readRecords crc _ _ _ with
      | error e => rfl
      | ok records =>
        dsimp only
        rw [ih]
        rfl

theorem readAll_returns (d : FileDir) : readAll crc d = .ok (Xerv.readAll crc d) :=
  readFiles_returns crc d ⟨0, 0⟩ _

end WalReader

/-- For every byte string: the decoder returns, and reads no further than the first word announces, if and only if
the bytes are too few for a header, announce one, or stop at an unknown type that they announce. And whatever
the directory holds, `read_all` returns. -/
theorem decoder_total_iff (crc : Bytes → UInt32) :
    (∀ bytes, DecodesWithin crc bytes ↔ LengthChecked bytes) ∧
      ∀ d, ∃ r, WalReader.readAll crc d = .ok r :=
  ⟨decodesWithin_iff crc, fun d => ⟨_, WalReader.readAll_returns crc d⟩⟩

/-- Twenty-nine zeros: the first word announces nothing, and the type is a known one. -/
theorem zeros_panic :
    WalRecord.fromBytes crc32 (List.replicate 29 0) = .error (.slicePanic 29 0) ∧
      ¬ DecodesWithin crc32 (List.replicate 29 0) := by
  have hpanic : WalRecord.fromBytes crc32 (List.replicate 29 0) = .error (.slicePanic 29 0) := rfl
  exact ⟨hpanic, fun h => Bool.noConfusion (h.1 _ hpanic)⟩

end Xerv
