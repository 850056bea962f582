import Xerv.Arena.Compaction

/-!
# Arena files (`xerv-core/src/arena/{header,writer}.rs`)

An arena is a memory-mapped file: a header of 128 bytes and the data behind it. The position
of the next write is kept in memory; the header on the file has the position of the last
time it was written, by `create` or by `update_header`. `mmap` is the contents of the
mapping. A file length is an `i64`, so positions are natural numbers below `2^63`.
-/

namespace Xerv.Arena
open Xerv.Lib

def arenaMagic : UInt64 := 0x58455256_4152454E

def arenaVersion : UInt32 := 1

def headerSize : ℕ := 128

structure ArenaHeader where
  magic : UInt64
  version : UInt32
  flags : UInt32
  traceId : TraceId
  configOffset : ArenaOffset
  configSize : UInt32
  dataOffset : ArenaOffset
  writePos : ArenaOffset
  capacity : UInt64
  createdAt : UInt64
  schemaHash : UInt64
  pipelineVersion : UInt32
  reserved : Bytes
  reserved_size : reserved.length = 32

inductive ArenaError where
  | slicePanic
  | capacity (requested available : ℕ)
  | invalidOffset (offset : ℕ) (cause : String)
  | corruption (offset : ℕ) (cause : String)
  | write (offset : ℕ)
  deriving DecidableEq

namespace ArenaHeader

def new (traceId : TraceId) (capacity now : UInt64) : ArenaHeader where
  magic := arenaMagic
  version := arenaVersion
  flags := 0
  traceId := traceId
  configOffset := 128
  configSize := 0
  dataOffset := 128
  writePos := 128
  capacity := capacity
  createdAt := now
  schemaHash := 0
  pipelineVersion := 0
  reserved := List.replicate 32 0
  reserved_size := rfl

def validate (h : ArenaHeader) : Except String Unit :=
  if h.magic ≠ arenaMagic then .error "Invalid magic number"
  else if h.version ≠ arenaVersion then .error "Unsupported arena version"
  else if h.capacity < h.writePos then .error "Write position exceeds capacity"
  else .ok ()

/-- Two words of zeros pad the fields to multiples of eight bytes. -/
def toBytes (h : ArenaHeader) : Bytes :=
  leBytes 8 h.magic.toNat ++ (leBytes 4 h.version.toNat ++ (leBytes 4 h.flags.toNat ++
    (h.traceId.bytes ++ (leBytes 8 h.configOffset.toNat ++ (leBytes 4 h.configSize.toNat ++
      (leBytes 4 0 ++ (leBytes 8 h.dataOffset.toNat ++ (leBytes 8 h.writePos.toNat ++
        (leBytes 8 h.capacity.toNat ++ (leBytes 8 h.createdAt.toNat ++ (leBytes 8 h.schemaHash.toNat ++
          (leBytes 4 h.pipelineVersion.toNat ++ (leBytes 4 0 ++ h.reserved)))))))))))))

/-- `none` is the `InvalidData` or `UnexpectedEof` error of the cursor. -/
def fromBytes (bytes : Bytes) : Option ArenaHeader :=
  if bytes.length < headerSize then none
  else do
    let (magic, bs) ← readLe 8 bytes
    let (version, bs) ← readLe 4 bs
    let (flags, bs) ← readLe 4 bs
    let (uuid, bs) ← readBytes 16 bs
    let (configOffset, bs) ← readLe 8 bs
    let (configSize, bs) ← readLe 4 bs
    let (_, bs) ← readLe 4 bs
    let (dataOffset, bs) ← readLe 8 bs
    let (writePos, bs) ← readLe 8 bs
    let (capacity, bs) ← readLe 8 bs
    let (createdAt, bs) ← readLe 8 bs
    let (schemaHash, bs) ← readLe 8 bs
    let (pipelineVersion, bs) ← readLe 4 bs
    let (_, bs) ← readLe 4 bs
    let (reserved, _) ← readBytes 32 bs
    if hu : uuid.length = 16 then
      if hr : reserved.length = 32 then
        some ⟨.ofNat magic, .ofNat version, .ofNat flags, ⟨uuid, hu⟩, .ofNat configOffset,
          .ofNat configSize, .ofNat dataOffset, .ofNat writePos, .ofNat capacity, .ofNat createdAt,
          .ofNat schemaHash, .ofNat pipelineVersion, reserved, hr⟩
      else none
    else none

theorem toBytes_length (h : ArenaHeader) : h.toBytes.length = headerSize := by
  simp only [toBytes, List.length_append, leBytes_length, h.traceId.size, h.reserved_size]
  rfl

theorem readLe_u64 (v : UInt64) (rest : Bytes) : readLe 8 (leBytes 8 v.toNat ++ rest) = some (v.toNat, rest) :=
  readLe_append 8 v.toNat rest (lt_of_lt_of_eq v.toNat_lt (by norm_num))

theorem readLe_u32 (v : UInt32) (rest : Bytes) : readLe 4 (leBytes 4 v.toNat ++ rest) = some (v.toNat, rest) :=
  readLe_append 4 v.toNat rest (lt_of_lt_of_eq v.toNat_lt (by norm_num))

theorem readLe_zero (rest : Bytes) : readLe 4 (leBytes 4 0 ++ rest) = some (0, rest) :=
  readLe_append 4 0 rest (by norm_num)

theorem bind_read {α β : Type} {o : Option α} {a : α} {f : α → Option β} {r : Option β} (ho : o = some a)
    (hf : f a = r) : (o >>= f) = r := by
  rw [ho]
  exact hf

theorem fromBytes_toBytes (h : ArenaHeader) : fromBytes h.toBytes = some h := by
  have hlen : ¬ h.toBytes.length < headerSize := by
    rw [h.toBytes_length]
    omega
  have hreserved : readBytes 32 h.reserved = some (h.reserved, []) := by
    have hread := readBytes_append h.reserved [] 32 h.reserved_size
    rwa [List.append_nil] at hread
  unfold fromBytes
  rw [if_neg hlen]
  -- field by field, in the order of the file
  refine bind_read (readLe_u64 h.magic _) ?_
  refine bind_read (readLe_u32 h.version _) ?_
  refine bind_read (readLe_u32 h.flags _) ?_
  refine bind_read (readBytes_append h.traceId.bytes _ 16 h.traceId.size) ?_
  refine bind_read (readLe_u64 h.configOffset _) ?_
  refine bind_read (readLe_u32 h.configSize _) ?_
  refine bind_read (readLe_zero _) ?_
  refine bind_read (readLe_u64 h.dataOffset _) ?_
  refine bind_read (readLe_u64 h.writePos _) ?_
  refine bind_read (readLe_u64 h.capacity _) ?_
  refine bind_read (readLe_u64 h.createdAt _) ?_
  refine bind_read (readLe_u64 h.schemaHash _) ?_
  refine bind_read (readLe_u32 h.pipelineVersion _) ?_
  refine bind_read (readLe_zero _) ?_
  refine bind_read hreserved ?_
  dsimp only
  rw [dif_pos h.traceId.size, dif_pos h.reserved_size]
  simp only [UInt64.ofNat_toNat, UInt32.ofNat_toNat]

end ArenaHeader

/-! ### The arena -/

structure ArenaInner where
  mmap : Bytes
  writePos : ℕ
  header : ArenaHeader
  syncOnWrite : Bool
  capacity : ℕ

/-- `(size + ENTRY_ALIGNMENT - 1) & !(ENTRY_ALIGNMENT - 1)`. -/
def alignedSize (size : ℕ) : ℕ := (size + 7) / 8 * 8

def withPadding (bytes : Bytes) : Bytes :=
  bytes ++ List.replicate (alignedSize bytes.length - bytes.length) 0

namespace ArenaInner

/-- `Arena::create`. `set_len` refuses what is no file length, and a file shorter than the header panics. -/
def create (traceId : TraceId) (capacity : ℕ) (syncOnWrite : Bool) (now : UInt64) : Option ArenaInner :=
  if headerSize ≤ capacity ∧ capacity < 2 ^ 63 then
    let header := ArenaHeader.new traceId (.ofNat capacity) now
    let mmap := writeAt 0 header.toBytes (List.replicate capacity 0)
    some ⟨mmap, header.writePos.toNat, header, syncOnWrite, capacity⟩
  else none

/-- `Arena::open` of a file with these contents. -/
def openFile (file : Bytes) : Except ArenaError ArenaInner :=
  if file.length < headerSize then .error .slicePanic
  else
    match ArenaHeader.fromBytes (file.take headerSize) with
    | none => .error (.corruption 0 "Buffer too small for header")
    | some header =>
      match header.validate with
      | .error cause => .error (.corruption 0 cause)
      | .ok () => .ok ⟨file, header.writePos.toNat, header, false, file.length⟩

/-- `Arena::write_bytes` and `ArenaWriter::write_bytes`. The data is in place and the position moved when
the `msync` of `sync_on_write` fails. -/
def writeBytes (a : ArenaInner) (bytes : Bytes) (flushFails : Bool) :
    ArenaInner × Except ArenaError RelPtr :=
  let newPos := a.writePos + alignedSize bytes.length
  if a.capacity < newPos then
    (a, .error (.capacity (alignedSize bytes.length) (a.capacity - a.writePos)))
  else
    let a' := { a with mmap := writeAt a.writePos (withPadding bytes) a.mmap, writePos := newPos }
    if a.syncOnWrite && flushFails then (a', .error (.write a.writePos))
    else (a', .ok ⟨.ofNat a.writePos, .ofNat bytes.length⟩)

/-- `Arena::read_bytes` and `ArenaReader::read_bytes`. -/
def readBytes (a : ArenaInner) (offset size : ℕ) : Except ArenaError Bytes :=
  let writePos := a.writePos
  if writePos < offset + size then
    .error (.invalidOffset offset s!"Offset {offset} + size {size} exceeds write position {writePos}")
  else .ok (slice a.mmap offset size)

/-- `Arena::flush` and `ArenaWriter::flush`: what is mapped stays as it is. -/
def flush (a : ArenaInner) (fails : Bool) : Except ArenaError Unit :=
  if fails then .error (.write a.writePos) else .ok ()

/-- `update_header`, which only `Drop for Arena` calls. -/
def updateHeader (a : ArenaInner) : ArenaInner :=
  let header := { a.header with writePos := .ofNat a.writePos }
  { a with header := header, mmap := writeAt 0 header.toBytes a.mmap }

/-- The file of a process that dies in `write_bytes` when `n` bytes have been copied. -/
def tornFile (a : ArenaInner) (bytes : Bytes) (n : ℕ) : Bytes :=
  if a.capacity < a.writePos + alignedSize bytes.length then a.mmap
  else writeAt a.writePos ((withPadding bytes).take n) a.mmap

/-- What `create`, `open` and the writes keep: the header of the file is the one in memory, whose
position is one that the arena has been at. -/
structure WellFormed (a : ArenaInner) : Prop where
  size : a.mmap.length = a.capacity
  bound : a.capacity < 2 ^ 63
  onFile : a.mmap.take headerSize = a.header.toBytes
  valid : a.header.validate = .ok ()
  agrees : a.header.capacity.toNat = a.capacity
  start : headerSize ≤ a.header.writePos.toNat
  behind : a.header.writePos.toNat ≤ a.writePos
  inside : a.writePos ≤ a.capacity

/-- An arena as `create` or `open` hands it out, the latter on a file that an arena has left behind:
through `Drop`, or in the middle of a write. -/
inductive JustOpened : ArenaInner → Prop
  | created (traceId : TraceId) (capacity : ℕ) (syncOnWrite : Bool) (now : UInt64) (a : ArenaInner)
      (h : create traceId capacity syncOnWrite now = some a) : JustOpened a
  | dropped (b : ArenaInner) (hb : b.WellFormed) (a : ArenaInner)
      (h : openFile b.updateHeader.mmap = .ok a) : JustOpened a
  | crashed (b : ArenaInner) (hb : b.WellFormed) (bytes : Bytes) (n : ℕ) (a : ArenaInner)
      (h : openFile (b.tornFile bytes n) = .ok a) : JustOpened a

variable {a b : ArenaInner}

theorem le_alignedSize (n : ℕ) : n ≤ alignedSize n := by
  unfold alignedSize
  omega

theorem withPadding_length (bytes : Bytes) : (withPadding bytes).length = alignedSize bytes.length := by
  have hle := le_alignedSize bytes.length
  unfold withPadding
  rw [List.length_append, List.length_replicate]
  omega

theorem validate_ok (h : ArenaHeader) (hmagic : h.magic = arenaMagic) (hversion : h.version = arenaVersion)
    (hpos : h.writePos.toNat ≤ h.capacity.toNat) : h.validate = .ok () := by
  have hnot : ¬ h.capacity < h.writePos := by
    rw [UInt64.lt_iff_toNat_lt]
    omega
  unfold ArenaHeader.validate
  rw [if_neg (not_not.mpr hmagic), if_neg (not_not.mpr hversion), if_neg hnot]

theorem validate_cases (h : ArenaHeader) (hv : h.validate = .ok ()) :
    h.magic = arenaMagic ∧ h.version = arenaVersion := by
  unfold ArenaHeader.validate at hv
  split_ifs at hv with hmagic hversion
  exact ⟨not_not.mp hmagic, not_not.mp hversion⟩

theorem create_wellFormed {traceId : TraceId} {capacity : ℕ} {sync : Bool} {now : UInt64}
    (h : create traceId capacity sync now = some a) :
    a.WellFormed ∧ a.header.writePos.toNat = a.writePos := by
  unfold create at h
  split at h
  · rename_i hcap
    obtain ⟨hsize, hbound⟩ := hcap
    cases h
    have hlen := (ArenaHeader.new traceId (.ofNat capacity) now).toBytes_length
    have hcapacity : (UInt64.ofNat capacity).toNat = capacity := UInt64.toNat_ofNat_of_lt' (by
      unfold UInt64.size
      omega)
    unfold headerSize at hsize hlen
    refine ⟨⟨?_, hbound, ?_, ?_, hcapacity, le_rfl, le_rfl, hsize⟩, rfl⟩
    · rw [writeAt_length _ _ _ (by rw [hlen, List.length_replicate]; omega), List.length_replicate]
    · unfold writeAt
      exact List.take_left' hlen
    · refine validate_ok _ rfl rfl ?_
      show 128 ≤ (UInt64.ofNat capacity).toNat
      omega
  · cases h

theorem openFile_ok (file : Bytes) (header : ArenaHeader) (hfile : headerSize ≤ file.length)
    (hheader : file.take headerSize = header.toBytes) (hvalid : header.validate = .ok ()) :
    openFile file = .ok ⟨file, header.writePos.toNat, header, false, file.length⟩ := by
  unfold openFile
  rw [if_neg (by omega), hheader, ArenaHeader.fromBytes_toBytes]
  dsimp only
  rw [hvalid]

theorem WellFormed.headerSize_le (h : a.WellFormed) : headerSize ≤ a.mmap.length := by
  have h₁ := h.start
  have h₂ := h.behind
  have h₃ := h.inside
  rw [h.size]
  omega

theorem WellFormed.open_mmap (h : a.WellFormed) :
    openFile a.mmap = .ok ⟨a.mmap, a.header.writePos.toNat, a.header, false, a.mmap.length⟩ :=
  openFile_ok a.mmap a.header h.headerSize_le h.onFile h.valid

theorem WellFormed.reopened (h : b.WellFormed) (ho : openFile b.mmap = .ok a) :
    a.WellFormed ∧ a.header.writePos.toNat = a.writePos := by
  rw [h.open_mmap] at ho
  cases ho
  exact ⟨⟨rfl, h.size ▸ h.bound, h.onFile, h.valid, h.agrees.trans h.size.symm, h.start, le_rfl,
    h.size ▸ h.behind.trans h.inside⟩, rfl⟩

theorem WellFormed.written (h : a.WellFormed) (data : Bytes) (pos : ℕ)
    (hfits : a.writePos + data.length ≤ a.capacity) (hpos : a.writePos ≤ pos) (hcap : pos ≤ a.capacity) :
    ({ a with mmap := writeAt a.writePos data a.mmap, writePos := pos } : ArenaInner).WellFormed := by
  have hsize := h.size
  refine ⟨?_, h.bound, ?_, h.valid, h.agrees, h.start, h.behind.trans hpos, hcap⟩
  · show (writeAt a.writePos data a.mmap).length = a.capacity
    rw [writeAt_length _ _ _ (hsize ▸ hfits), hsize]
  · show (writeAt a.writePos data a.mmap).take headerSize = a.header.toBytes
    rw [take_writeAt _ _ _ _ (h.start.trans h.behind) (hsize ▸ h.inside), h.onFile]

theorem WellFormed.torn (h : a.WellFormed) (bytes : Bytes) (n : ℕ) :
    ({ a with mmap := a.tornFile bytes n } : ArenaInner).WellFormed := by
  unfold tornFile
  split
  · exact h
  · refine h.written _ a.writePos ?_ le_rfl h.inside
    have hlen := withPadding_length bytes
    rw [List.length_take]
    omega

theorem WellFormed.updateHeader (h : a.WellFormed) : a.updateHeader.WellFormed := by
  have hsize := h.size
  have hbound := h.bound
  have hinside := h.inside
  have hle := h.headerSize_le
  have hpos : (UInt64.ofNat a.writePos).toNat = a.writePos := UInt64.toNat_ofNat_of_lt' (by
    unfold UInt64.size
    omega)
  obtain ⟨hmagic, hversion⟩ := validate_cases a.header h.valid
  have hlen := ({ a.header with writePos := .ofNat a.writePos } : ArenaHeader).toBytes_length
  refine ⟨?_, hbound, ?_, validate_ok _ hmagic hversion ?_, h.agrees, ?_, ?_, hinside⟩
  · show (writeAt 0 _ a.mmap).length = a.capacity
    rw [writeAt_length _ _ _ (by rw [hlen]; omega), hsize]
  · show (writeAt 0 _ a.mmap).take headerSize = _
    unfold writeAt
    exact List.take_left' hlen
  · show (UInt64.ofNat a.writePos).toNat ≤ a.header.capacity.toNat
    rw [hpos, h.agrees]
    exact hinside
  · show headerSize ≤ (UInt64.ofNat a.writePos).toNat
    rw [hpos]
    exact h.start.trans h.behind
  · show (UInt64.ofNat a.writePos).toNat ≤ a.writePos
    rw [hpos]

theorem JustOpened.wellFormed (h : a.JustOpened) :
    a.WellFormed ∧ a.header.writePos.toNat = a.writePos := by
  cases h with
  | created traceId capacity sync now _ hc => exact create_wellFormed hc
  | dropped b hb _ ho => exact hb.updateHeader.reopened ho
  | crashed b hb bytes n _ ho => exact (hb.torn bytes n).reopened ho

/-- What `write_bytes` can do: refuse, or put the padded data at the position and move it. -/
theorem writeBytes_cases (a : ArenaInner) (bytes : Bytes) (flushFails : Bool) :
    (a.capacity < a.writePos + alignedSize bytes.length ∧
        a.writeBytes bytes flushFails =
          (a, .error (.capacity (alignedSize bytes.length) (a.capacity - a.writePos)))) ∨
      (a.writePos + alignedSize bytes.length ≤ a.capacity ∧
        a.writeBytes bytes flushFails =
          ({ a with
            mmap := writeAt a.writePos (withPadding bytes) a.mmap
            writePos := a.writePos + alignedSize bytes.length },
            if a.syncOnWrite && flushFails then .error (.write a.writePos)
            else .ok ⟨.ofNat a.writePos, .ofNat bytes.length⟩)) := by
  unfold writeBytes
  dsimp only
  split
  · rename_i h
    exact .inl ⟨h, rfl⟩
  · rename_i h
    refine .inr ⟨by omega, ?_⟩
    split
    · rfl
    · rfl

theorem WellFormed.writeBytes (h : a.WellFormed) (bytes : Bytes) (flushFails : Bool) :
    (a.writeBytes bytes flushFails).1.WellFormed := by
  rcases writeBytes_cases a bytes flushFails with ⟨-, heq⟩ | ⟨hfits, heq⟩
  · rw [heq]
    exact h
  · rw [heq]
    refine h.written (withPadding bytes) _ ?_ (Nat.le_add_right _ _) hfits
    rw [withPadding_length]
    exact hfits

end ArenaInner
end Xerv.Arena
