import Xerv.Core.Types
import Xerv.Lib.Utf8
import Xerv.Lib.Crc32

/-!
# WAL records and their byte encoding (`xerv-core/src/wal/record.rs`)

WalLayout: total length (u32), CRC32 of the payload (u32), record type (u8), trace
id (16 bytes), node id (u32), then the payload: timestamp, output offset, output
size, schema hash, iteration and two length-prefixed strings. An absent string
and an empty one both have length prefix zero.

The checksum (`crc32fast::hash`) is a parameter `crc`; the codec only relies on
its being a function of the payload.
-/

namespace Xerv
open Xerv.Lib

/-- `MIN_RECORD_SIZE`: the header without a payload. -/
def minRecordSize : ℕ := 29

inductive WalRecordType where
  | traceStart | nodeStart | nodeDone | nodeError | traceComplete | traceFailed
  | traceSuspended | traceResumed | checkpoint | loopIteration | loopExit
  deriving DecidableEq, Repr

def WalRecordType.toU8 : WalRecordType → UInt8
  | traceStart => 0
  | nodeStart => 1
  | nodeDone => 2
  | nodeError => 3
  | traceComplete => 4
  | traceFailed => 5
  | traceSuspended => 6
  | traceResumed => 7
  | checkpoint => 8
  | loopIteration => 9
  | loopExit => 10

/-- `TryFrom<u8>`. -/
def WalRecordType.ofU8 (b : UInt8) : Option WalRecordType :=
  match b.toNat with
  | 0 => some traceStart
  | 1 => some nodeStart
  | 2 => some nodeDone
  | 3 => some nodeError
  | 4 => some traceComplete
  | 5 => some traceFailed
  | 6 => some traceSuspended
  | 7 => some traceResumed
  | 8 => some checkpoint
  | 9 => some loopIteration
  | 10 => some loopExit
  | _ => none

theorem WalRecordType.ofU8_toU8 (t : WalRecordType) : ofU8 t.toU8 = some t := by
  cases t <;> rfl

structure WalRecord where
  recordType : WalRecordType
  traceId : TraceId
  nodeId : NodeId
  timestampNs : UInt64
  outputOffset : ArenaOffset
  outputSize : UInt32
  schemaHash : UInt64
  errorMessage : Option String
  iteration : UInt32
  metadata : Option String
  deriving DecidableEq

namespace WalRecord

/-- The fields every constructor of `record.rs` sets the same way. -/
def base (t : WalRecordType) (traceId : TraceId) (nodeId : NodeId) (now : UInt64) : WalRecord where
  recordType := t
  traceId := traceId
  nodeId := nodeId
  timestampNs := now
  outputOffset := 0
  outputSize := 0
  schemaHash := 0
  errorMessage := none
  iteration := 0
  metadata := none

def traceStart (traceId : TraceId) (now : UInt64) : WalRecord := base .traceStart traceId 0 now

def nodeStart (traceId : TraceId) (nodeId : NodeId) (now : UInt64) : WalRecord :=
  base .nodeStart traceId nodeId now

def nodeDone (traceId : TraceId) (nodeId : NodeId) (offset : ArenaOffset) (size : UInt32)
    (schemaHash : UInt64) (now : UInt64) : WalRecord :=
  { base .nodeDone traceId nodeId now with
    outputOffset := offset, outputSize := size, schemaHash := schemaHash }

def nodeError (traceId : TraceId) (nodeId : NodeId) (error : String) (now : UInt64) : WalRecord :=
  { base .nodeError traceId nodeId now with errorMessage := some error }

def traceComplete (traceId : TraceId) (now : UInt64) : WalRecord :=
  base .traceComplete traceId 0 now

def traceFailed (traceId : TraceId) (error : String) (now : UInt64) : WalRecord :=
  { base .traceFailed traceId 0 now with errorMessage := some error }

def traceSuspended (traceId : TraceId) (nodeId : NodeId) (now : UInt64) : WalRecord :=
  base .traceSuspended traceId nodeId now

def traceResumed (traceId : TraceId) (now : UInt64) : WalRecord :=
  base .traceResumed traceId 0 now

def withMetadata (r : WalRecord) (metadata : String) : WalRecord :=
  { r with metadata := some metadata }

end WalRecord

/-! ### Encoding -/

/-- A length-prefixed optional string; `None` is written as length zero. -/
def encodeText : Option String → Bytes
  | some s => leBytes 4 (utf8 s).length ++ utf8 s
  | none => leBytes 4 0

/-- The payload of `to_bytes` (`record.rs:242-268`). -/
def WalRecord.payload (r : WalRecord) : Bytes :=
  leBytes 8 r.timestampNs.toNat ++ (leBytes 8 r.outputOffset.toNat ++
    (leBytes 4 r.outputSize.toNat ++ (leBytes 8 r.schemaHash.toNat ++
      (leBytes 4 r.iteration.toNat ++ (encodeText r.errorMessage ++ encodeText r.metadata)))))

/-- `WalRecord::to_bytes` (`record.rs:241-286`). The length word keeps the low 32 bits. -/
def WalRecord.toBytes (crc : Bytes → UInt32) (r : WalRecord) : Bytes :=
  leBytes 4 (minRecordSize + r.payload.length) ++ (leBytes 4 (crc r.payload).toNat ++
    (r.recordType.toU8 :: (r.traceId.bytes ++ (leBytes 4 r.nodeId.toNat ++ r.payload))))

def WalRecord.serializedSize (r : WalRecord) : ℕ :=
  minRecordSize + (8 + 8 + 4 + 8 + 4) + 4 + (r.errorMessage.map fun s => (utf8 s).length).getD 0 +
    4 + (r.metadata.map fun s => (utf8 s).length).getD 0

/-! ### Decoding -/

/-- The ways `from_bytes` stops without a record. `slicePanic` is the panic of the
slice `bytes[payload_start..payload_end]` when the length word is below the header size. -/
inductive DecodeError where
  | tooSmall
  | unknownType
  | truncated (expected got : ℕ)
  | slicePanic (payloadStart payloadEnd : ℕ)
  | crcMismatch (stored computed : UInt32)
  | unexpectedEof
  deriving DecidableEq, Repr

/-- A failed cursor read (`read_exact`, `read_u32`, ...) is `UnexpectedEof`. -/
def orEof {α : Type} : Option α → Except DecodeError α
  | some a => .ok a
  | none => .error .unexpectedEof

/-- Read a length-prefixed string; length zero reads back as `None`. -/
def decodeText (bs : Bytes) : Except DecodeError (Option String × Bytes) := do
  let (len, bs) ← orEof (readLe 4 bs)
  if len > 0 then
    let (buf, bs) ← orEof (readBytes len bs)
    .ok (some (fromUtf8Lossy buf), bs)
  else
    .ok (none, bs)

/-- The payload part of `from_bytes` (`record.rs:340-380`). -/
def decodePayload (t : WalRecordType) (traceId : TraceId) (nodeId : NodeId) (payload : Bytes) :
    Except DecodeError WalRecord := do
  let (ts, bs) ← orEof (readLe 8 payload)
  let (offset, bs) ← orEof (readLe 8 bs)
  let (size, bs) ← orEof (readLe 4 bs)
  let (hash, bs) ← orEof (readLe 8 bs)
  let (iter, bs) ← orEof (readLe 4 bs)
  let (err, bs) ← decodeText bs
  let (meta', _) ← decodeText bs
  .ok ⟨t, traceId, nodeId, .ofNat ts, .ofNat offset, .ofNat size, .ofNat hash, err, .ofNat iter, meta'⟩

def headerTraceId (bytes : Bytes) (h : minRecordSize ≤ bytes.length) : TraceId where
  bytes := (bytes.drop 9).take 16
  size := by
    unfold minRecordSize at h
    simp only [List.length_take, List.length_drop]
    omega

def WalRecord.fromBytes (crc : Bytes → UInt32) (bytes : Bytes) : Except DecodeError WalRecord :=
  if h : minRecordSize ≤ bytes.length then
    let totalLen := leVal (bytes.take 4)
    let storedCrc := UInt32.ofNat (leVal ((bytes.drop 4).take 4))
    match WalRecordType.ofU8 (byteAt bytes 8) with
    | none => .error .unknownType
    | some t =>
      let nodeId := UInt32.ofNat (leVal ((bytes.drop 25).take 4))
      if bytes.length < totalLen then .error (.truncated totalLen bytes.length)
      else if totalLen < minRecordSize then .error (.slicePanic minRecordSize totalLen)
      else
        let payload := (bytes.take totalLen).drop minRecordSize
        if crc payload ≠ storedCrc then .error (.crcMismatch storedCrc (crc payload))
        else decodePayload t (headerTraceId bytes h) nodeId payload
  else .error .tooSmall

/-! ### Round trip -/

/-- A string field as it reads back: the empty string becomes `None`. -/
def readBackText (t : Option String) : Option String := t.filter fun s => s ≠ ""

def WalRecord.readBack (r : WalRecord) : WalRecord :=
  { r with errorMessage := readBackText r.errorMessage, metadata := readBackText r.metadata }

/-- The encoding fits the 32-bit length word. -/
def WalRecord.Encodable (r : WalRecord) : Prop := r.serializedSize < 2 ^ 32

instance (r : WalRecord) : Decidable r.Encodable :=
  inferInstanceAs (Decidable (r.serializedSize < 2 ^ 32))

/-- No string field is present and empty. -/
def WalRecord.NoEmptyText (r : WalRecord) : Prop :=
  r.errorMessage ≠ some "" ∧ r.metadata ≠ some ""

instance (r : WalRecord) : Decidable r.NoEmptyText :=
  inferInstanceAs (Decidable (_ ∧ _))

theorem readBackText_of_ne (t : Option String) (h : t ≠ some "") : readBackText t = t := by
  cases t with
  | none => rfl
  | some s =>
    have hs : s ≠ "" := fun he => h (by rw [he])
    simp [readBackText, hs]

theorem readBackText_ne_empty (t : Option String) : readBackText t ≠ some "" := by
  cases t with
  | none => simp [readBackText]
  | some s =>
    by_cases hs : s = ""
    · simp [readBackText, hs]
    · simp [readBackText, hs]

theorem WalRecord.readBack_eq_iff (r : WalRecord) : r.readBack = r ↔ r.NoEmptyText := by
  constructor
  · intro h
    have he : readBackText r.errorMessage = r.errorMessage := congrArg WalRecord.errorMessage h
    have hm : readBackText r.metadata = r.metadata := congrArg WalRecord.metadata h
    exact ⟨he ▸ readBackText_ne_empty _, hm ▸ readBackText_ne_empty _⟩
  · rintro ⟨he, hm⟩
    simp only [readBack, readBackText_of_ne _ he, readBackText_of_ne _ hm]

theorem encodeText_length (t : Option String) :
    (encodeText t).length = 4 + (t.map fun s => (utf8 s).length).getD 0 := by
  cases t with
  | none => simp [encodeText]
  | some s => simp [encodeText]

theorem WalRecord.payload_length (r : WalRecord) :
    minRecordSize + r.payload.length = r.serializedSize := by
  simp only [payload, serializedSize, List.length_append, leBytes_length, encodeText_length]
  omega

theorem WalRecord.toBytes_length (crc : Bytes → UInt32) (r : WalRecord) :
    (r.toBytes crc).length = r.serializedSize := by
  have hp := r.payload_length
  have hid := r.traceId.size
  simp only [toBytes, List.length_append, leBytes_length, List.length_cons, hid]
  unfold minRecordSize at hp
  omega

theorem WalRecord.serializedSize_ge (r : WalRecord) : minRecordSize ≤ r.serializedSize := by
  unfold serializedSize
  omega

theorem decodeText_encodeText (t : Option String) (rest : Bytes)
    (h : (encodeText t).length < 2 ^ 32) :
    decodeText (encodeText t ++ rest) = .ok (readBackText t, rest) := by
  cases t with
  | none =>
    have hr := readLe_append 4 0 rest (by norm_num)
    simp [encodeText, decodeText, hr, orEof, readBackText]
    rfl
  | some s =>
    have hlen : (utf8 s).length < 256 ^ 4 := by
      rw [encodeText_length] at h
      simp only [Option.map_some, Option.getD_some] at h
      omega
    have hr := readLe_append 4 (utf8 s).length (utf8 s ++ rest) hlen
    simp only [encodeText, List.append_assoc, decodeText, hr, orEof]
    by_cases hs : s = ""
    · subst hs
      rfl
    · have hne : utf8 s ≠ [] := fun he => hs ((utf8_eq_nil_iff s).mp he)
      have hpos : 0 < (utf8 s).length := List.length_pos_iff.mpr hne
      have hb := readBytes_append (utf8 s) rest _ rfl
      simp only [bind, Except.bind, hpos, ↓reduceIte, hb, fromUtf8Lossy_utf8]
      rw [readBackText_of_ne (some s) (by simpa using hs)]

/-- The payload reader with the bytes it leaves, which `from_bytes` drops. -/
def readPayload (t : WalRecordType) (traceId : TraceId) (nodeId : NodeId) (bs : Bytes) :
    Except DecodeError (WalRecord × Bytes) := do
  let (ts, bs) ← orEof (readLe 8 bs)
  let (offset, bs) ← orEof (readLe 8 bs)
  let (size, bs) ← orEof (readLe 4 bs)
  let (hash, bs) ← orEof (readLe 8 bs)
  let (iter, bs) ← orEof (readLe 4 bs)
  let (err, bs) ← decodeText bs
  let (meta', bs) ← decodeText bs
  .ok (⟨t, traceId, nodeId, .ofNat ts, .ofNat offset, .ofNat size, .ofNat hash, err, .ofNat iter,
    meta'⟩, bs)

theorem decodePayload_eq (t : WalRecordType) (traceId : TraceId) (nodeId : NodeId) (bs : Bytes) :
    decodePayload t traceId nodeId bs = Prod.fst <$> readPayload t traceId nodeId bs := by
  unfold decodePayload readPayload
  simp only [map_bind]
  rfl

theorem readPayload_payload (t : WalRecordType) (traceId : TraceId) (nodeId : NodeId)
    (r : WalRecord) (h : r.Encodable) :
    readPayload t traceId nodeId r.payload =
      .ok ({ r.readBack with recordType := t, traceId := traceId, nodeId := nodeId }, []) := by
  have hsize : minRecordSize + (8 + 8 + 4 + 8 + 4) + (encodeText r.errorMessage).length +
      (encodeText r.metadata).length = r.serializedSize := by
    simp only [encodeText_length, WalRecord.serializedSize]
    omega
  have hlt : r.serializedSize < 2 ^ 32 := h
  have h1 := fun rest => readLe_append 8 r.timestampNs.toNat rest r.timestampNs.toNat_lt
  have h2 := fun rest => readLe_append 8 r.outputOffset.toNat rest r.outputOffset.toNat_lt
  have h3 := fun rest => readLe_append 4 r.outputSize.toNat rest r.outputSize.toNat_lt
  have h4 := fun rest => readLe_append 8 r.schemaHash.toNat rest r.schemaHash.toNat_lt
  have h5 := fun rest => readLe_append 4 r.iteration.toNat rest r.iteration.toNat_lt
  have h6 := fun rest => decodeText_encodeText r.errorMessage rest (by omega)
  have h7 : decodeText (encodeText r.metadata) = .ok (readBackText r.metadata, []) := by
    have h := decodeText_encodeText r.metadata [] (by omega)
    rwa [List.append_nil] at h
  simp only [readPayload, WalRecord.payload, h1, h2, h3, h4, h5, h6, h7, orEof, bind,
    Except.bind, UInt64.ofNat_toNat, UInt32.ofNat_toNat]
  rfl

theorem decodePayload_payload (r : WalRecord) (h : r.Encodable) :
    decodePayload r.recordType r.traceId r.nodeId r.payload = .ok r.readBack := by
  rw [decodePayload_eq, readPayload_payload _ _ _ r h]
  rfl

/-- What `from_bytes` does with the fields of the header and the bytes after it. -/
def decodeFields (crc : Bytes → UInt32) (totalLen : ℕ) (storedCrc : UInt32) (typeByte : UInt8)
    (traceId : TraceId) (nodeId : NodeId) (body : Bytes) : Except DecodeError WalRecord :=
  match WalRecordType.ofU8 typeByte with
  | none => .error .unknownType
  | some t =>
    if minRecordSize + body.length < totalLen then
      .error (.truncated totalLen (minRecordSize + body.length))
    else if totalLen < minRecordSize then .error (.slicePanic minRecordSize totalLen)
    else
      let payload := body.take (totalLen - minRecordSize)
      if crc payload ≠ storedCrc then .error (.crcMismatch storedCrc (crc payload))
      else decodePayload t traceId nodeId payload

theorem WalRecord.fromBytes_fields (crc : Bytes → UInt32) (total stored node body : Bytes)
    (typeByte : UInt8) (traceId : TraceId) (htotal : total.length = 4) (hstored : stored.length = 4)
    (hnode : node.length = 4) :
    fromBytes crc (total ++ (stored ++ (typeByte :: (traceId.bytes ++ (node ++ body))))) =
      decodeFields crc (leVal total) (UInt32.ofNat (leVal stored)) typeByte traceId
        (UInt32.ofNat (leVal node)) body := by
  have hid := traceId.size
  generalize hbytes : total ++ (stored ++ (typeByte :: (traceId.bytes ++ (node ++ body)))) = bytes
  have hlen : bytes.length = minRecordSize + body.length := by
    rw [← hbytes]
    simp only [List.length_append, List.length_cons, htotal, hstored, hnode, hid, minRecordSize]
    omega
  have h4 : bytes.drop 4 = stored ++ (typeByte :: (traceId.bytes ++ (node ++ body))) := by
    rw [← hbytes]
    exact List.drop_left' htotal
  have h8 : bytes.drop 8 = typeByte :: (traceId.bytes ++ (node ++ body)) := by
    rw [show 8 = 4 + 4 by rfl, ← List.drop_drop, h4]
    exact List.drop_left' hstored
  have h9 : bytes.drop 9 = traceId.bytes ++ (node ++ body) := by
    rw [show 9 = 8 + 1 by rfl, ← List.drop_drop, h8]
    rfl
  have h25 : bytes.drop 25 = node ++ body := by
    rw [show 25 = 9 + 16 by rfl, ← List.drop_drop, h9]
    exact List.drop_left' hid
  have h29 : bytes.drop minRecordSize = body := by
    rw [show minRecordSize = 25 + 4 by rfl, ← List.drop_drop, h25]
    exact List.drop_left' hnode
  have hmin : minRecordSize ≤ bytes.length := by omega
  have htake : bytes.take 4 = total := by
    rw [← hbytes]
    exact List.take_left' htotal
  have htype : byteAt bytes 8 = typeByte := by
    rw [byteAt, List.getD_eq_getElem?_getD, ← List.head?_drop, h8]
    rfl
  have htrace : headerTraceId bytes hmin = traceId := by
    unfold headerTraceId
    simp only [h9, List.take_left' hid]
  unfold fromBytes decodeFields
  rw [dif_pos hmin]
  simp only [htake, h4, List.take_left' hstored, htype, h25, List.take_left' hnode, htrace, hlen,
    List.drop_take, h29]

theorem WalRecord.decodeFields_toBytes (crc : Bytes → UInt32) (r : WalRecord) (rest : Bytes)
    (h : r.Encodable) :
    decodeFields crc r.serializedSize (crc r.payload) r.recordType.toU8 r.traceId r.nodeId
      (r.payload ++ rest) = .ok r.readBack := by
  have hpl := r.payload_length
  have hge := r.serializedSize_ge
  have htake : (r.payload ++ rest).take (r.serializedSize - minRecordSize) = r.payload :=
    List.take_left' (by omega)
  unfold decodeFields
  simp only [WalRecordType.ofU8_toU8, htake]
  rw [if_neg (by rw [List.length_append]; omega), if_neg (by omega), if_neg (by simp)]
  exact decodePayload_payload r h

theorem uint32_leBytes (v : UInt32) : UInt32.ofNat (leVal (leBytes 4 v.toNat)) = v := by
  have hlt : v.toNat < 256 ^ 4 := v.toNat_lt
  rw [leVal_leBytes, Nat.mod_eq_of_lt hlt, UInt32.ofNat_toNat]

theorem WalRecord.lengthWord (r : WalRecord) (h : r.Encodable) :
    leVal (leBytes 4 (minRecordSize + r.payload.length)) = r.serializedSize := by
  rw [leVal_leBytes, r.payload_length]
  exact Nat.mod_eq_of_lt h

theorem WalRecord.fromBytes_toBytes_append (crc : Bytes → UInt32) (r : WalRecord) (rest : Bytes)
    (h : r.Encodable) : fromBytes crc (r.toBytes crc ++ rest) = .ok r.readBack := by
  simp only [toBytes, List.append_assoc, List.cons_append]
  rw [fromBytes_fields crc _ _ _ _ _ _ (leBytes_length _ _) (leBytes_length _ _)
    (leBytes_length _ _), r.lengthWord h, uint32_leBytes, uint32_leBytes]
  exact r.decodeFields_toBytes crc rest h

theorem WalRecord.fromBytes_toBytes (crc : Bytes → UInt32) (r : WalRecord) (h : r.Encodable) :
    fromBytes crc (r.toBytes crc) = .ok r.readBack := by
  have hr := r.fromBytes_toBytes_append crc [] h
  rwa [List.append_nil] at hr

/-- What the codec promises of one record: the encoding is as long as `serialized_size` and the length
word say, and it reads back, also when further bytes follow. -/
structure WalRecord.RoundTrips (crc : Bytes → UInt32) (r : WalRecord) : Prop where
  size : (r.toBytes crc).length = r.serializedSize
  lengthWord : leVal ((r.toBytes crc).take 4) = (r.toBytes crc).length
  reads : fromBytes crc (r.toBytes crc) = .ok r
  readsBefore : ∀ rest, fromBytes crc (r.toBytes crc ++ rest) = .ok r

/-- A record whose encoding fits the length word round trips if and only if no string field of it is
present and empty. -/
theorem WalRecord.roundTrips_iff (crc : Bytes → UInt32) (r : WalRecord)
    (h : (r.toBytes crc).length < 2 ^ 32) : r.RoundTrips crc ↔ r.NoEmptyText := by
  have henc : r.Encodable := by
    rwa [r.toBytes_length] at h
  rw [← r.readBack_eq_iff]
  constructor
  · intro hr
    have hread := hr.reads
    rw [r.fromBytes_toBytes crc henc] at hread
    exact Except.ok.inj hread
  · intro hr
    refine ⟨r.toBytes_length crc, ?_, ?_, fun rest => ?_⟩
    · rw [r.toBytes_length, ← r.lengthWord henc, toBytes, List.take_left' (leBytes_length _ _)]
    · rw [r.fromBytes_toBytes crc henc, hr]
    · rw [r.fromBytes_toBytes_append crc rest henc, hr]

theorem WalRecord.roundTrips_timeout :
    ((nodeError sampleTrace 1 "timeout" 0).withMetadata "attempt 2").RoundTrips crc32 :=
  (roundTrips_iff crc32 ((nodeError sampleTrace 1 "timeout" 0).withMetadata "attempt 2") (by decide)).mpr
    (by decide)

/-- `NodeOutput::error("")` makes the executor write such a record. -/
theorem WalRecord.empty_message_lost :
    ((nodeError sampleTrace 1 "" 0).toBytes crc32).length < 2 ^ 32 ∧
      ¬ (nodeError sampleTrace 1 "" 0).RoundTrips crc32 := by
  refine ⟨by decide, fun hr => ?_⟩
  have hread := hr.reads
  rw [fromBytes_toBytes crc32 _ (by decide)] at hread
  exact absurd (Except.ok.inj hread) (by decide)

end Xerv
