import Xerv.Lib.BitFlip
import Xerv.Wal.Record

/-!
# A flipped bit in a WAL record

`from_bytes` checks the type byte, the length word and the checksum, and the checksum is that
of the payload alone: a flipped bit of the trace id, of the node id or between two known types
is read as another record, and a length word below the header size is a slice panic.
-/

namespace Xerv
open Xerv.Lib

/-! ### Readers -/

/-- A cursor read: what it returns does not depend on the bytes after those it consumes, and it
fails only at the end of the input. -/
structure CursorRead {α : Type} (read : Bytes → Except DecodeError (α × Bytes)) : Prop where
  extend : ∀ bs rest more a, read bs = .ok (a, rest) → read (bs ++ more) = .ok (a, rest ++ more)
  fails : ∀ bs e, read bs = .error e → e = .unexpectedEof

namespace CursorRead

theorem bind {α β : Type} {read : Bytes → Except DecodeError (α × Bytes)}
    {next : α × Bytes → Except DecodeError (β × Bytes)} (hread : CursorRead read)
    (hnext : ∀ a, CursorRead fun bs => next (a, bs)) : CursorRead fun bs => read bs >>= next := by
  constructor
  · intro bs rest more b h
    have hbind : (read bs).bind next = .ok (b, rest) := h
    cases hfirst : read bs with
    | error e =>
      rw [hfirst] at hbind
      cases hbind
    | ok p =>
      rw [hfirst] at hbind
      change (read (bs ++ more)).bind next = _
      rw [hread.extend bs p.2 more p.1 hfirst]
      exact (hnext p.1).extend p.2 rest more b hbind
  · intro bs e h
    have hbind : (read bs).bind next = .error e := h
    cases hfirst : read bs with
    | error e' =>
      rw [hfirst] at hbind
      cases hbind
      exact hread.fails bs e hfirst
    | ok p =>
      rw [hfirst] at hbind
      exact (hnext p.1).fails p.2 e hbind

theorem pure {α : Type} (a : α) : CursorRead fun bs => .ok (a, bs) := by
  constructor
  · intro bs rest more b h
    cases h
    rfl
  · intro bs e h
    cases h

theorem ofOption {α : Type} {read : Bytes → Option (α × Bytes)}
    (h : ∀ bs rest more a, read bs = some (a, rest) → read (bs ++ more) = some (a, rest ++ more)) :
    CursorRead fun bs => orEof (read bs) := by
  constructor
  · intro bs rest more a hread
    cases hfirst : read bs with
    | none =>
      rw [hfirst] at hread
      cases hread
    | some p =>
      rw [hfirst] at hread
      cases hread
      rw [h bs rest more a hfirst]
      rfl
  · intro bs e hread
    cases hfirst : read bs with
    | none =>
      rw [hfirst] at hread
      cases hread
      rfl
    | some p =>
      rw [hfirst] at hread
      cases hread

theorem ofTake {α : Type} (n : ℕ) (value : Bytes → α) :
    CursorRead fun bs => orEof (if n ≤ bs.length then some (value (bs.take n), bs.drop n) else none) := by
  refine ofOption fun bs rest more a h => ?_
  by_cases hn : n ≤ bs.length
  · rw [if_pos hn] at h
    cases h
    rw [if_pos (by rw [List.length_append]; omega), List.take_append_of_le_length hn,
      List.drop_append_of_le_length hn]
  · rw [if_neg hn] at h
    cases h

theorem ofBytes (n : ℕ) : CursorRead fun bs => orEof (readBytes n bs) := ofTake n id

theorem ofLe (n : ℕ) : CursorRead fun bs => orEof (readLe n bs) := ofTake n leVal

theorem ofText : CursorRead decodeText := by
  refine bind (ofLe 4) fun len => ?_
  by_cases hlen : len > 0
  · simp only [if_pos hlen]
    exact bind (ofBytes len) fun buf => pure (some (fromUtf8Lossy buf))
  · simp only [if_neg hlen]
    exact pure _

theorem ofPayload (t : WalRecordType) (traceId : TraceId) (nodeId : NodeId) :
    CursorRead (readPayload t traceId nodeId) := by
  refine bind (ofLe 8) fun ts => ?_
  refine bind (ofLe 8) fun offset => ?_
  refine bind (ofLe 4) fun size => ?_
  refine bind (ofLe 8) fun hash => ?_
  refine bind (ofLe 4) fun iter => ?_
  refine bind ofText fun err => ?_
  exact bind ofText fun meta' => pure _

end CursorRead

theorem decodePayload_cut (r : WalRecord) (h : r.Encodable) (t : WalRecordType) (traceId : TraceId)
    (nodeId : NodeId) (n : ℕ) (hn : n < r.payload.length) :
    decodePayload t traceId nodeId (r.payload.take n) = .error .unexpectedEof := by
  have hcursor := CursorRead.ofPayload t traceId nodeId
  rw [decodePayload_eq]
  cases hread : readPayload t traceId nodeId (r.payload.take n) with
  | ok p =>
    have hwhole := hcursor.extend _ p.2 (r.payload.drop n) p.1 hread
    rw [List.take_append_drop, readPayload_payload _ _ _ r h] at hwhole
    have hlen := congrArg (fun q => q.2.length) (Except.ok.inj hwhole)
    simp only [List.length_nil, List.length_append, List.length_drop] at hlen
    omega
  | error e =>
    rw [hcursor.fails _ e hread]
    rfl

/-! ### Refused encodings -/

def DecodeError.isPanic : DecodeError → Bool
  | slicePanic _ _ => true
  | _ => false

/-- `from_bytes` returns `Err`. -/
def Refused (res : Except DecodeError WalRecord) : Prop := ∃ e, res = .error e ∧ e.isPanic = false

theorem not_refused_ok (r : WalRecord) : ¬ Refused (.ok r) := by
  rintro ⟨e, he, -⟩
  cases he

/-- The bits of an encoding that some check of `from_bytes` covers: those of the length word that do
not take it below the header size, the stored checksum, those of the type byte that lead to
no known type, and the payload. -/
def WalRecord.Checked (r : WalRecord) (i : ℕ) : Prop :=
  if i < 8 * 4 then minRecordSize ≤ r.serializedSize ^^^ 2 ^ i
  else if i < 8 * 8 then True
  else if i < 8 * 9 then
    WalRecordType.ofU8 (r.recordType.toU8 ^^^ UInt8.ofNat (2 ^ (i - 8 * 8))) = none
  else 8 * minRecordSize ≤ i

/-! ### What the checks make of the fields -/

section Fields
variable (crc : Bytes → UInt32) (r : WalRecord) (h : r.Encodable) (traceId : TraceId) (nodeId : NodeId)
include h

theorem decodeFields_type (b : UInt8) (t : WalRecordType) (ht : WalRecordType.ofU8 b = some t) :
    decodeFields crc r.serializedSize (crc r.payload) b traceId nodeId r.payload =
      .ok { r.readBack with recordType := t, traceId := traceId, nodeId := nodeId } := by
  have hpl := r.payload_length
  have htake : r.payload.take (r.serializedSize - minRecordSize) = r.payload :=
    List.take_of_length_le (by omega)
  unfold decodeFields
  simp only [ht, htake]
  rw [if_neg (by omega), if_neg (by omega), if_neg (by simp), decodePayload_eq,
    readPayload_payload _ _ _ r h]
  rfl

theorem refused_type_iff (b : UInt8) :
    Refused (decodeFields crc r.serializedSize (crc r.payload) b traceId nodeId r.payload) ↔
      WalRecordType.ofU8 b = none := by
  cases ht : WalRecordType.ofU8 b with
  | some t =>
    rw [decodeFields_type crc r h traceId nodeId b t ht]
    exact iff_of_false (not_refused_ok _) (by simp)
  | none =>
    unfold decodeFields
    rw [ht]
    exact iff_of_true ⟨.unknownType, rfl, rfl⟩ rfl

/-- A wrong length word: too long is truncated, too short fails the checksum or ends early. -/
theorem refused_length_iff (total : ℕ) (hne : total ≠ r.serializedSize) :
    Refused (decodeFields crc total (crc r.payload) r.recordType.toU8 traceId nodeId r.payload) ↔
      minRecordSize ≤ total := by
  have hpl := r.payload_length
  unfold decodeFields
  simp only [WalRecordType.ofU8_toU8]
  by_cases hlong : minRecordSize + r.payload.length < total
  · rw [if_pos hlong]
    exact iff_of_true ⟨_, rfl, rfl⟩ (by omega)
  rw [if_neg hlong]
  by_cases hshort : total < minRecordSize
  · rw [if_pos hshort]
    refine iff_of_false ?_ (by omega)
    rintro ⟨e, he, hpanic⟩
    cases he
    cases hpanic
  · rw [if_neg hshort]
    refine iff_of_true ?_ (by omega)
    by_cases hcrc : crc (r.payload.take (total - minRecordSize)) = crc r.payload
    · rw [if_neg (not_not_intro hcrc), decodePayload_cut r h _ _ _ _ (by omega)]
      exact ⟨_, rfl, rfl⟩
    · rw [if_pos hcrc]
      exact ⟨_, rfl, rfl⟩

end Fields

theorem refused_checksum (crc : Bytes → UInt32) (r : WalRecord) (stored : UInt32) (body : Bytes)
    (hlen : body.length = r.payload.length) (hcrc : crc body ≠ stored) :
    Refused (decodeFields crc r.serializedSize stored r.recordType.toU8 r.traceId r.nodeId body) := by
  have hpl := r.payload_length
  have htake : body.take (r.serializedSize - minRecordSize) = body :=
    List.take_of_length_le (by omega)
  unfold decodeFields
  simp only [WalRecordType.ofU8_toU8, htake]
  rw [if_neg (by omega), if_neg (by omega), if_pos hcrc]
  exact ⟨_, rfl, rfl⟩

/-! ### One flipped bit, region by region -/

section Regions
variable (crc : Bytes → UInt32) (r : WalRecord) (i : ℕ)

theorem flip_rest (fields : Bytes) :
    flipBit (leBytes 4 (minRecordSize + r.payload.length) ++
      (leBytes 4 (crc r.payload).toNat ++ fields)) (8 * 8 + i) =
      leBytes 4 (minRecordSize + r.payload.length) ++
        (leBytes 4 (crc r.payload).toNat ++ flipBit fields i) := by
  rw [flipBit_append_right _ _ _ (by rw [leBytes_length]; omega), leBytes_length,
    flipBit_append_right _ _ _ (by rw [leBytes_length]; omega), leBytes_length]
  congr 3
  omega

variable (h : r.Encodable)
include h

theorem flip_lengthWord (hi : i < 8 * 4) :
    WalRecord.fromBytes crc (flipBit (r.toBytes crc) i) =
      decodeFields crc (r.serializedSize ^^^ 2 ^ i) (crc r.payload) r.recordType.toU8 r.traceId
        r.nodeId r.payload := by
  have hword : i < 8 * (leBytes 4 (minRecordSize + r.payload.length)).length := by
    rwa [leBytes_length]
  rw [WalRecord.toBytes, flipBit_append_left _ _ _ hword,
    WalRecord.fromBytes_fields crc _ _ _ _ _ _ (by simp) (leBytes_length _ _) (leBytes_length _ _),
    leVal_flipBit _ _ hword, r.lengthWord h, uint32_leBytes, uint32_leBytes]

theorem flip_storedCrc (hi : i < 8 * 4) :
    WalRecord.fromBytes crc (flipBit (r.toBytes crc) (8 * 4 + i)) =
      decodeFields crc r.serializedSize (UInt32.ofNat ((crc r.payload).toNat ^^^ 2 ^ i))
        r.recordType.toU8 r.traceId r.nodeId r.payload := by
  have hword : i < 8 * (leBytes 4 (crc r.payload).toNat).length := by
    rwa [leBytes_length]
  have hlt : (crc r.payload).toNat < 256 ^ 4 := (crc r.payload).toNat_lt
  rw [WalRecord.toBytes, flipBit_append_right _ _ _ (by simp), leBytes_length,
    Nat.add_sub_cancel_left, flipBit_append_left _ _ _ hword,
    WalRecord.fromBytes_fields crc _ _ _ _ _ _ (leBytes_length _ _) (by simp) (leBytes_length _ _),
    leVal_flipBit _ _ hword, r.lengthWord h, uint32_leBytes, leVal_leBytes, Nat.mod_eq_of_lt hlt]

theorem flip_type (hi : i < 8) :
    WalRecord.fromBytes crc (flipBit (r.toBytes crc) (8 * 8 + i)) =
      decodeFields crc r.serializedSize (crc r.payload)
        (r.recordType.toU8 ^^^ UInt8.ofNat (2 ^ i)) r.traceId r.nodeId r.payload := by
  rw [WalRecord.toBytes, flip_rest crc r, flipBit, if_pos hi,
    WalRecord.fromBytes_fields crc _ _ _ _ _ _ (leBytes_length _ _) (leBytes_length _ _)
      (leBytes_length _ _), r.lengthWord h, uint32_leBytes, uint32_leBytes]

theorem flip_traceId (hi : i < 8 * 16) :
    WalRecord.fromBytes crc (flipBit (r.toBytes crc) (8 * 9 + i)) =
      decodeFields crc r.serializedSize (crc r.payload) r.recordType.toU8
        ⟨flipBit r.traceId.bytes i, by rw [flipBit_length]; exact r.traceId.size⟩ r.nodeId
        r.payload := by
  have hid : i < 8 * r.traceId.bytes.length := by
    rwa [r.traceId.size]
  rw [WalRecord.toBytes, show 8 * 9 + i = 8 * 8 + (8 + i) by omega, flip_rest crc r, flipBit,
    if_neg (by omega), Nat.add_sub_cancel_left, flipBit_append_left _ _ _ hid,
    WalRecord.fromBytes_fields crc _ _ _ _ _ ⟨flipBit r.traceId.bytes i, _⟩ (leBytes_length _ _)
      (leBytes_length _ _) (leBytes_length _ _), r.lengthWord h, uint32_leBytes, uint32_leBytes]

theorem flip_nodeId (hi : i < 8 * 4) :
    WalRecord.fromBytes crc (flipBit (r.toBytes crc) (8 * 25 + i)) =
      decodeFields crc r.serializedSize (crc r.payload) r.recordType.toU8 r.traceId
        (UInt32.ofNat (r.nodeId.toNat ^^^ 2 ^ i)) r.payload := by
  have hword : i < 8 * (leBytes 4 r.nodeId.toNat).length := by
    rwa [leBytes_length]
  have hlt : r.nodeId.toNat < 256 ^ 4 := r.nodeId.toNat_lt
  rw [WalRecord.toBytes, show 8 * 25 + i = 8 * 8 + (8 + (8 * 16 + i)) by omega, flip_rest crc r,
    flipBit, if_neg (by omega), Nat.add_sub_cancel_left,
    flipBit_append_right _ _ _ (by rw [r.traceId.size]; omega), r.traceId.size,
    Nat.add_sub_cancel_left, flipBit_append_left _ _ _ hword,
    WalRecord.fromBytes_fields crc _ _ _ _ _ _ (leBytes_length _ _) (leBytes_length _ _) (by simp),
    leVal_flipBit _ _ hword, r.lengthWord h, uint32_leBytes, leVal_leBytes, Nat.mod_eq_of_lt hlt]

theorem flip_payload :
    WalRecord.fromBytes crc (flipBit (r.toBytes crc) (8 * minRecordSize + i)) =
      decodeFields crc r.serializedSize (crc r.payload) r.recordType.toU8 r.traceId r.nodeId
        (flipBit r.payload i) := by
  rw [WalRecord.toBytes, show 8 * minRecordSize + i = 8 * 8 + (8 + (8 * 16 + (8 * 4 + i))) by
      unfold minRecordSize; omega, flip_rest crc r, flipBit, if_neg (by omega),
    Nat.add_sub_cancel_left, flipBit_append_right _ _ _ (by rw [r.traceId.size]; omega),
    r.traceId.size, Nat.add_sub_cancel_left,
    flipBit_append_right _ _ _ (by rw [leBytes_length]; omega), leBytes_length,
    Nat.add_sub_cancel_left,
    WalRecord.fromBytes_fields crc _ _ _ _ _ _ (leBytes_length _ _) (leBytes_length _ _)
      (leBytes_length _ _), r.lengthWord h, uint32_leBytes, uint32_leBytes]

end Regions

/-- A record that fits the length word, one bit of its encoding flipped: `from_bytes` returns `Err` if
and only if some check covers the bit. -/
theorem refused_flip_iff (crc : Bytes → UInt32)
    (hcrc : ∀ bs i, i < 8 * bs.length → crc (flipBit bs i) ≠ crc bs) (r : WalRecord)
    (h : (r.toBytes crc).length < 2 ^ 32) (i : ℕ) (hi : i < 8 * (r.toBytes crc).length) :
    Refused (WalRecord.fromBytes crc (flipBit (r.toBytes crc) i)) ↔ r.Checked i := by
  have hpl := r.payload_length
  rw [r.toBytes_length] at h hi
  have henc : r.Encodable := h
  unfold WalRecord.Checked
  by_cases hlength : i < 8 * 4
  · rw [if_pos hlength, flip_lengthWord crc r i henc hlength]
    exact refused_length_iff crc r henc _ _ _ (xor_two_pow_ne _ _)
  rw [if_neg hlength]
  by_cases hstored : i < 8 * 8
  · obtain ⟨j, rfl⟩ := Nat.exists_eq_add_of_le (not_lt.mp hlength)
    rw [if_pos hstored, flip_storedCrc crc r j henc (by omega)]
    refine iff_of_true (refused_checksum crc r _ _ rfl fun heq => ?_) trivial
    have hlt : (crc r.payload).toNat ^^^ 2 ^ j < 2 ^ 32 :=
      Nat.xor_lt_two_pow (crc r.payload).toNat_lt (Nat.pow_lt_pow_right (by norm_num) (by omega))
    have hn := congrArg UInt32.toNat heq
    rw [UInt32.toNat_ofNat_of_lt' hlt] at hn
    exact xor_two_pow_ne _ _ hn.symm
  rw [if_neg hstored]
  by_cases htype : i < 8 * 9
  · obtain ⟨j, rfl⟩ := Nat.exists_eq_add_of_le (not_lt.mp hstored)
    rw [if_pos htype, flip_type crc r j henc (by omega), Nat.add_sub_cancel_left]
    exact refused_type_iff crc r henc _ _ _
  rw [if_neg htype]
  have hknown (traceId : TraceId) (nodeId : NodeId) : ¬ Refused (decodeFields crc r.serializedSize
      (crc r.payload) r.recordType.toU8 traceId nodeId r.payload) := by
    rw [refused_type_iff crc r henc, WalRecordType.ofU8_toU8]
    exact Option.some_ne_none _
  by_cases htrace : i < 8 * 25
  · obtain ⟨j, rfl⟩ := Nat.exists_eq_add_of_le (not_lt.mp htype)
    rw [flip_traceId crc r j henc (by omega)]
    exact iff_of_false (hknown _ _) (by unfold minRecordSize; omega)
  by_cases hnode : i < 8 * minRecordSize
  · obtain ⟨j, rfl⟩ := Nat.exists_eq_add_of_le (not_lt.mp htrace)
    rw [flip_nodeId crc r j henc (by unfold minRecordSize at hnode; omega)]
    exact iff_of_false (hknown _ _) (by omega)
  · obtain ⟨j, rfl⟩ := Nat.exists_eq_add_of_le (not_lt.mp hnode)
    rw [flip_payload crc r j henc]
    exact iff_of_true (refused_checksum crc r _ _ (flipBit_length _ _) (hcrc _ _ (by omega))) (by omega)

theorem refused_flip_sample : Refused (WalRecord.fromBytes crc32
    (flipBit ((WalRecord.traceStart sampleTrace 0).toBytes crc32) 232)) := by
  refine (refused_flip_iff crc32 crc32_flipBit_ne _ (by decide) 232 (by decide)).mpr ?_
  simp [WalRecord.Checked, minRecordSize]

/-- A flipped bit of the trace id starts another trace; bit 6 turns the length 69 into 5. -/
theorem flip_replayed_or_panics :
    (∃ r, WalRecord.fromBytes crc32 (flipBit ((WalRecord.traceStart sampleTrace 0).toBytes crc32) 72) =
        .ok r ∧ r.traceId ≠ sampleTrace) ∧
      ¬ Refused (WalRecord.fromBytes crc32
        (flipBit ((WalRecord.traceStart sampleTrace 0).toBytes crc32) 6)) ∧
      ∀ bs i, i < 8 * bs.length → crc32 (flipBit bs i) ≠ crc32 bs := by
  have henc : (WalRecord.traceStart sampleTrace 0).Encodable := by decide
  refine ⟨⟨_, (flip_traceId crc32 _ 0 henc (by norm_num)).trans
    (decodeFields_type crc32 _ henc _ _ _ .traceStart rfl), by decide⟩, ?_, crc32_flipBit_ne⟩
  rw [flip_lengthWord crc32 _ 6 henc (by norm_num),
    refused_length_iff crc32 _ henc _ _ _ (xor_two_pow_ne _ _)]
  decide

end Xerv
