import Xerv.Arena.Crash
import Xerv.Lib.Words

/-!
# Access to arenas in machine words (`xerv-core/src/arena/writer.rs`, `xerv-executor/src/wasm`)

The accesses of `File`, which calculate with numbers, here with words of 64 bits: a sum may overflow,
which panics in a build that checks it and wraps in one that does not, and a range may lie outside the
mapping. On an arena whose position lies between its header and its end the two agree for every
write, and for every read whose end fits a word.
-/

namespace Xerv.Arena
open Xerv.Lib

/-- `(size + ENTRY_ALIGNMENT - 1) & !(ENTRY_ALIGNMENT - 1)`. -/
def alignWord (checks : Bool) (size : UInt64) : Except Panic UInt64 := do
  let up ← addWord checks size 8
  let up ← subWord checks up 1
  return up &&& ~~~ 7

/-- The slice is copied to the position, and zeros to what alignment adds. -/
def putPadded (checks : Bool) (mmap : Bytes) (writePos size aligned : UInt64) (bytes : Bytes) :
    Except Panic Bytes := do
  let stop ← addWord checks writePos size
  let mmap ← copyWord mmap writePos stop bytes
  if size < aligned then
    let start ← addWord checks writePos size
    let stop ← addWord checks writePos aligned
    copyWord mmap start stop (List.replicate (aligned.toNat - size.toNat) 0)
  else return mmap

/-- The body of both copies of `write_bytes`. -/
def writeWords (checks : Bool) (a : ArenaInner) (bytes : Bytes) (flushFails : Bool) :
    Except Panic (ArenaInner × Except ArenaError RelPtr) := do
  let size := UInt64.ofNat bytes.length
  let aligned ← alignWord checks size
  let capacity := UInt64.ofNat a.capacity
  let writePos := UInt64.ofNat a.writePos
  let newPos ← addWord checks writePos aligned
  if capacity < newPos then
    let available ← subWord checks capacity writePos
    return (a, .error (.capacity aligned.toNat available.toNat))
  let mmap ← putPadded checks a.mmap writePos size aligned bytes
  let a' := { a with mmap := mmap, writePos := newPos.toNat }
  if a.syncOnWrite && flushFails then
    return (a', .error (.write writePos.toNat))
  return (a', .ok ⟨writePos, .ofNat bytes.length⟩)

/-- The body of both copies of `read_bytes`. -/
def readWords (checks : Bool) (a : ArenaInner) (offset size : UInt64) :
    Except Panic (Except ArenaError Bytes) := do
  let writePos := UInt64.ofNat a.writePos
  let stop ← addWord checks offset size
  if writePos < stop then
    return .error (.invalidOffset offset.toNat
      s!"Offset {offset.toNat} + size {size.toNat} exceeds write position {writePos.toNat}")
  let stop ← addWord checks offset size
  let bytes ← sliceWord a.mmap offset stop
  return .ok bytes

/-! ### The handles -/

namespace ArenaHandle

def writeBytes (checks : Bool) (a : ArenaInner) (bytes : Bytes) (flushFails : Bool) :
    Except Panic (ArenaInner × Except ArenaError RelPtr) := writeWords checks a bytes flushFails

def readBytes (checks : Bool) (a : ArenaInner) (offset size : UInt64) :
    Except Panic (Except ArenaError Bytes) := readWords checks a offset size

/-- `capacity.saturating_sub(write_pos)`. -/
def availableSpace (a : ArenaInner) : ℕ := a.capacity - a.writePos

end ArenaHandle

def ArenaWriter.writeBytes (checks : Bool) (a : ArenaInner) (bytes : Bytes) (flushFails : Bool) :
    Except Panic (ArenaInner × Except ArenaError RelPtr) := writeWords checks a bytes flushFails

def ArenaReader.readBytes (checks : Bool) (a : ArenaInner) (offset size : UInt64) :
    Except Panic (Except ArenaError Bytes) := readWords checks a offset size

namespace Handle

def writeBytes (handle : Handle) (checks : Bool) (a : ArenaInner) (bytes : Bytes) (flushFails : Bool) :
    Except Panic (ArenaInner × Except ArenaError RelPtr) :=
  match handle with
  | .arena => ArenaHandle.writeBytes checks a bytes flushFails
  | .writer => ArenaWriter.writeBytes checks a bytes flushFails

end Handle

/-- The handles that read. -/
inductive ReadHandle where
  | arena
  | reader
  deriving DecidableEq

def ReadHandle.readBytes (handle : ReadHandle) (checks : Bool) (a : ArenaInner) (offset size : UInt64) :
    Except Panic (Except ArenaError Bytes) :=
  match handle with
  | .arena => ArenaHandle.readBytes checks a offset size
  | .reader => ArenaReader.readBytes checks a offset size

/-! ### What the accesses rely on -/

/-- The mapping is as long as the capacity and the position lies between the header and its end. -/
structure ArenaInner.Sound (a : ArenaInner) : Prop where
  size : a.mmap.length = a.capacity
  bound : a.capacity < 2 ^ 63
  start : headerSize ≤ a.writePos
  inside : a.writePos ≤ a.capacity

theorem ArenaInner.WellFormed.sound {a : ArenaInner} (h : a.WellFormed) : a.Sound where
  size := h.size
  bound := h.bound
  start := h.start.trans h.behind
  inside := h.inside

theorem alignWord_ofNat (checks : Bool) {n : ℕ} (h : n < 2 ^ 63) :
    alignWord checks (.ofNat n) = .ok (.ofNat (alignedSize n)) := by
  have hadd : addWord checks (.ofNat n) 8 = .ok (.ofNat (n + 8)) :=
    addWord_ofNat checks (m := n) (n := 8) (by omega)
  have hsub : subWord checks (.ofNat (n + 8)) 1 = .ok (.ofNat (n + 7)) :=
    subWord_ofNat checks (m := n + 8) (n := 1) (by omega) (by omega)
  have hmask : UInt64.ofNat (n + 7) &&& ~~~ 7 = UInt64.ofNat ((n + 7) / 8 * 8) := by
    apply UInt64.toNat_inj.mp
    rw [toNat_and_not_seven, toNat_ofNat_word (by omega), toNat_ofNat_word (by omega)]
  unfold alignWord alignedSize
  rw [← hmask]
  exact bind_of_ok hadd (bind_of_ok hsub rfl)

theorem putPadded_ok (checks : Bool) {a : ArenaInner} (ha : a.Sound) (bytes : Bytes)
    (hfits : a.writePos + alignedSize bytes.length ≤ a.capacity) :
    putPadded checks a.mmap (.ofNat a.writePos) (.ofNat bytes.length) (.ofNat (alignedSize bytes.length)) bytes =
      .ok (writeAt a.writePos (withPadding bytes) a.mmap) := by
  have hbound := ha.bound
  have hsize := ha.size
  have hle := ArenaInner.le_alignedSize bytes.length
  have hlen : a.writePos + bytes.length ≤ a.mmap.length := by omega
  have hstop := addWord_ofNat checks (show a.writePos + bytes.length < 2 ^ 64 by omega)
  have hend := addWord_ofNat checks (show a.writePos + alignedSize bytes.length < 2 ^ 64 by omega)
  unfold putPadded
  refine bind_of_ok hstop (bind_of_ok (copyWord_ofNat bytes (by omega) (by omega) hlen) ?_)
  unfold withPadding
  split_ifs with hpad
  · refine bind_of_ok hstop (bind_of_ok hend ?_)
    rw [toNat_ofNat_word (by omega), toNat_ofNat_word (by omega),
      copyWord_ofNat _ (by omega) (by omega) (by rw [writeAt_length _ _ _ hlen]; omega),
      writeAt_append _ _ _ _ (by omega)]
  · rw [ofNat_lt_ofNat (by omega) (by omega)] at hpad
    rw [show alignedSize bytes.length - bytes.length = 0 by omega, List.replicate_zero, List.append_nil]
    rfl

theorem writeWords_ok (checks : Bool) {a : ArenaInner} (ha : a.Sound) {bytes : Bytes}
    (hbytes : bytes.length < 2 ^ 63) (flushFails : Bool) :
    writeWords checks a bytes flushFails = .ok (a.writeBytes bytes flushFails) := by
  have hbound := ha.bound
  have hinside := ha.inside
  have halign : alignedSize bytes.length ≤ 2 ^ 63 := by
    unfold alignedSize
    omega
  have hpos := toNat_ofNat_word (show a.writePos < 2 ^ 64 by omega)
  have hnew := addWord_ofNat checks (show a.writePos + alignedSize bytes.length < 2 ^ 64 by omega)
  unfold writeWords
  refine bind_of_ok (alignWord_ofNat checks hbytes) (bind_of_ok hnew ?_)
  rcases ArenaInner.writeBytes_cases a bytes flushFails with ⟨hfull, heq⟩ | ⟨hfits, heq⟩
  · rw [if_pos ((ofNat_lt_ofNat (by omega) (by omega)).mpr hfull), heq]
    refine bind_of_ok (subWord_ofNat checks (by omega) hinside) ?_
    rw [toNat_ofNat_word (by omega), toNat_ofNat_word (by omega)]
    rfl
  · rw [if_neg (fun h => absurd ((ofNat_lt_ofNat (by omega) (by omega)).mp h) (by omega)), heq]
    refine bind_of_ok (putPadded_ok checks ha bytes hfits) ?_
    rw [hpos, toNat_ofNat_word (by omega)]
    split
    · rfl
    · rfl

theorem Handle.writeBytes_ok (handle : Handle) (checks : Bool) {a : ArenaInner} (ha : a.Sound) {bytes : Bytes}
    (hbytes : bytes.length < 2 ^ 63) (flushFails : Bool) :
    handle.writeBytes checks a bytes flushFails = .ok (a.writeBytes bytes flushFails) := by
  cases handle with
  | arena => exact writeWords_ok checks ha hbytes flushFails
  | writer => exact writeWords_ok checks ha hbytes flushFails

theorem readWords_ok (checks : Bool) {a : ArenaInner} (ha : a.Sound) {offset size : UInt64}
    (hfits : offset.toNat + size.toNat < 2 ^ 64) :
    readWords checks a offset size = .ok (a.readBytes offset.toNat size.toNat) := by
  have hbound := ha.bound
  have hinside := ha.inside
  have hsize := ha.size
  have hpos := toNat_ofNat_word (show a.writePos < 2 ^ 64 by omega)
  have hstop := addWord_ok checks hfits
  have hsum := toNat_add_word hfits
  have hlt : UInt64.ofNat a.writePos < offset + size ↔ a.writePos < offset.toNat + size.toNat := by
    rw [UInt64.lt_iff_toNat_lt, hpos, hsum]
  unfold readWords ArenaInner.readBytes
  refine bind_of_ok hstop ?_
  by_cases hbeyond : a.writePos < offset.toNat + size.toNat
  · rw [if_pos (hlt.mpr hbeyond), if_pos hbeyond, hpos]
    rfl
  · rw [if_neg (mt hlt.mp hbeyond), if_neg hbeyond]
    refine bind_of_ok hstop (bind_of_ok (sliceWord_ok ?_ ?_) ?_)
    · omega
    · omega
    · rw [hsum, Nat.add_sub_cancel_left]
      rfl

/-! ### Writes through any number of handles -/

/-- A call of `write_bytes`. No slice is longer than `isize::MAX`. -/
structure WriteCall where
  handle : Handle
  bytes : Bytes
  flushFails : Bool
  size : bytes.length < 2 ^ 63

/-- `none` is a panic. -/
def writeStep (checks : Bool) (x : ArenaRun) (call : WriteCall) : Option ArenaRun :=
  match call.handle.writeBytes checks x.arena call.bytes call.flushFails with
  | .ok (a, .ok ptr) => some ⟨a, x.returned ++ [(ptr, call.bytes)]⟩
  | .ok (a, .error _) => some ⟨a, x.returned⟩
  | .error _ => none

/-- A pointer and the slice it was returned for. -/
structure ArenaInner.Holds (a : ArenaInner) (ptr : RelPtr) (bytes : Bytes) : Prop where
  aligned : ptr.offset.toNat % 8 = 0
  start : headerSize ≤ ptr.offset.toNat
  stop : ptr.offset.toNat + bytes.length ≤ a.writePos
  size : ptr.size.toNat = bytes.length
  data : slice a.mmap ptr.offset.toNat bytes.length = bytes

/-- What the writes keep: the next position is a multiple of eight, and every slice lies before it, apart
from all others. -/
structure ArenaRun.Packed (x : ArenaRun) : Prop where
  sound : x.arena.Sound
  aligned : x.arena.writePos % 8 = 0
  holds : ∀ r ∈ x.returned, x.arena.Holds r.1 r.2
  disjoint : x.returned.Pairwise fun r r' =>
    rangesDisjoint r.1.offset.toNat r.2.length r'.1.offset.toNat r'.2.length

theorem writeStep_ok (checks : Bool) {x : ArenaRun} (hx : x.arena.Sound) (call : WriteCall) :
    writeStep checks x call = some (x.step (.writeBytes call.handle call.bytes call.flushFails)) := by
  unfold writeStep ArenaRun.step
  rw [call.handle.writeBytes_ok checks hx call.size call.flushFails]
  dsimp only
  rcases x.arena.writeBytes call.bytes call.flushFails with ⟨a, e | ptr⟩
  · rfl
  · rfl

theorem ArenaInner.Sound.writeBytes {a : ArenaInner} (ha : a.Sound) (bytes : Bytes) (flushFails : Bool) :
    (a.writeBytes bytes flushFails).1.Sound := by
  rcases writeBytes_cases a bytes flushFails with ⟨-, heq⟩ | ⟨hfits, heq⟩
  · rw [heq]
    exact ha
  · rw [heq]
    have hlen : a.writePos + (withPadding bytes).length ≤ a.mmap.length := by
      rw [withPadding_length, ha.size]
      exact hfits
    exact ⟨(writeAt_length _ _ _ hlen).trans ha.size, ha.bound, ha.start.trans (Nat.le_add_right _ _), hfits⟩

theorem ArenaInner.Holds.writeBytes {a : ArenaInner} (ha : a.Sound) {ptr : RelPtr} {data : Bytes}
    (h : a.Holds ptr data) (bytes : Bytes) (flushFails : Bool) :
    (a.writeBytes bytes flushFails).1.Holds ptr data := by
  rcases writeBytes_cases a bytes flushFails with ⟨-, heq⟩ | ⟨hfits, heq⟩
  · rw [heq]
    exact h
  · rw [heq]
    refine ⟨h.aligned, h.start, h.stop.trans (Nat.le_add_right _ _), h.size, ?_⟩
    exact (slice_writeAt_before _ _ _ _ _ h.stop (ha.size ▸ ha.inside)).trans h.data

theorem ArenaInner.Sound.holds_written {a : ArenaInner} (ha : a.Sound) (haligned : a.writePos % 8 = 0)
    {bytes : Bytes} (hshort : bytes.length < 2 ^ 32) :
    ({ a with
      mmap := writeAt a.writePos (withPadding bytes) a.mmap
      writePos := a.writePos + alignedSize bytes.length } : ArenaInner).Holds
        ⟨.ofNat a.writePos, .ofNat bytes.length⟩ bytes := by
  have hbound := ha.bound
  have hinside := ha.inside
  have hle := le_alignedSize bytes.length
  have hpad : bytes.length ≤ (withPadding bytes).length := by
    rw [withPadding_length]
    exact hle
  have hoffset : (UInt64.ofNat a.writePos).toNat = a.writePos := toNat_ofNat_word (by omega)
  constructor
  · exact hoffset.symm ▸ haligned
  · exact hoffset.symm ▸ ha.start
  · show (UInt64.ofNat a.writePos).toNat + bytes.length ≤ a.writePos + alignedSize bytes.length
    rw [hoffset]
    exact Nat.add_le_add_left hle _
  · exact UInt32.toNat_ofNat_of_lt' hshort
  · show slice _ (UInt64.ofNat a.writePos).toNat bytes.length = bytes
    rw [hoffset, slice_writeAt_self _ _ _ _ hpad (ha.size ▸ hinside)]
    exact List.take_left

theorem ArenaRun.Packed.step {x : ArenaRun} (h : x.Packed) (handle : Handle) {bytes : Bytes}
    (hshort : bytes.length < 2 ^ 32) (flushFails : Bool) :
    (x.step (.writeBytes handle bytes flushFails)).Packed := by
  have hsound := h.sound.writeBytes bytes flushFails
  have hholds := fun r hr => (h.holds r hr).writeBytes h.sound bytes flushFails
  have hnew := h.sound.holds_written h.aligned hshort
  have haligned := h.aligned
  unfold ArenaRun.step
  dsimp only
  rcases ArenaInner.writeBytes_cases x.arena bytes flushFails with ⟨-, heq⟩ | ⟨hfits, heq⟩
  · rw [heq]
    exact h
  · have hpos : (x.arena.writePos + alignedSize bytes.length) % 8 = 0 := by
      unfold alignedSize
      omega
    rw [heq] at hsound hholds ⊢
    dsimp only at hsound hholds ⊢
    split_ifs at hsound hholds ⊢
    · exact ⟨hsound, hpos, hholds, h.disjoint⟩
    · refine ⟨hsound, hpos, fun r hr => ?_, ?_⟩
      · rcases List.mem_append.mp hr with hold | hlast
        · exact hholds r hold
        · rw [List.mem_singleton.mp hlast]
          exact hnew
      · -- everything returned so far ends at or before the old position
        refine List.pairwise_append.mpr ⟨h.disjoint, List.pairwise_singleton _ _, fun r hr r' hr' => ?_⟩
        have hbound := h.sound.bound
        have hinside := h.sound.inside
        have hoffset : (UInt64.ofNat x.arena.writePos).toNat = x.arena.writePos := toNat_ofNat_word (by omega)
        rw [List.mem_singleton.mp hr']
        refine .inr (.inr (.inl ?_))
        show r.1.offset.toNat + r.2.length ≤ (UInt64.ofNat x.arena.writePos).toNat
        rw [hoffset]
        exact (h.holds r hr).stop

theorem ArenaRun.packed_created {traceId : TraceId} {capacity : ℕ} {sync : Bool} {now : UInt64} {a : ArenaInner}
    (h : ArenaInner.create traceId capacity sync now = some a) :
    (⟨a, []⟩ : ArenaRun).Packed ∧ a.capacity = capacity := by
  have hsound := (ArenaInner.create_wellFormed h).1.sound
  unfold ArenaInner.create at h
  split at h
  · cases h
    have haligned : UInt64.toNat 128 % 8 = 0 := rfl
    exact ⟨⟨hsound, haligned, fun r hr => absurd hr List.not_mem_nil, .nil⟩, rfl⟩
  · cases h

/-- The pointer is aligned, its bytes lie between the header and the end of the arena, and reading it through
any handle gives the slice it was returned for. -/
structure Returned (checks : Bool) (a : ArenaInner) (ptr : RelPtr) (bytes : Bytes) : Prop where
  aligned : ptr.offset.toNat % 8 = 0
  start : headerSize ≤ ptr.offset.toNat
  stop : ptr.offset.toNat + bytes.length ≤ a.capacity
  size : ptr.size.toNat = bytes.length
  read : ∀ handle : ReadHandle,
    handle.readBytes checks a ptr.offset ptr.size.toUInt64 = .ok (.ok bytes)

theorem ReadHandle.readBytes_eq (handle : ReadHandle) (checks : Bool) (a : ArenaInner) (offset size : UInt64) :
    handle.readBytes checks a offset size = readWords checks a offset size := by
  cases handle with
  | arena => rfl
  | reader => rfl

theorem ReadHandle.readBytes_ok (handle : ReadHandle) (checks : Bool) {a : ArenaInner} (ha : a.Sound)
    {offset size : UInt64} (hfits : offset.toNat + size.toNat < 2 ^ 64) :
    handle.readBytes checks a offset size = .ok (a.readBytes offset.toNat size.toNat) := by
  rw [handle.readBytes_eq]
  exact readWords_ok checks ha hfits

theorem ArenaInner.Holds.returned (checks : Bool) {a : ArenaInner} (ha : a.Sound) {ptr : RelPtr} {bytes : Bytes}
    (h : a.Holds ptr bytes) : Returned checks a ptr bytes := by
  have hbound := ha.bound
  have hinside := ha.inside
  have hstop := h.stop
  have hsize : ptr.size.toUInt64.toNat = bytes.length := (UInt32.toNat_toUInt64 _).trans h.size
  refine ⟨h.aligned, h.start, hstop.trans hinside, h.size, fun handle => ?_⟩
  rw [handle.readBytes_ok checks ha (by rw [hsize]; omega), hsize]
  unfold ArenaInner.readBytes
  dsimp only
  rw [if_neg (by omega), h.data]

theorem ArenaRun.step_capacity (x : ArenaRun) (op : ArenaOp) : (x.step op).arena.capacity = x.arena.capacity := by
  cases op with
  | flush handle fails => rfl
  | writeBytes handle bytes flushFails =>
    unfold step
    dsimp only
    rcases ArenaInner.writeBytes_cases x.arena bytes flushFails with ⟨-, heq⟩ | ⟨-, heq⟩
    · rw [heq]
    · rw [heq]
      split_ifs
      · rfl
      · rfl

theorem packed_run (checks : Bool) {x : ArenaRun} (hx : x.Packed) (calls : List WriteCall)
    (hshort : ∀ call ∈ calls, call.bytes.length < 2 ^ 32) :
    ∃ y, Machine.run (writeStep checks) x calls = some y ∧ y.Packed ∧ y.arena.capacity = x.arena.capacity := by
  refine Machine.run_total (fun y : ArenaRun => y.Packed ∧ y.arena.capacity = x.arena.capacity) calls ?_ ⟨hx, rfl⟩
  rintro y ⟨hy, hcap⟩ call hcall
  exact ⟨_, writeStep_ok checks hy.sound call, hy.step call.handle (hshort call hcall) call.flushFails,
    (y.step_capacity _).trans hcap⟩

def isCapacity : Except ArenaError RelPtr → Bool
  | .error (.capacity _ _) => true
  | _ => false

theorem ArenaInner.Sound.refused_iff {a : ArenaInner} (ha : a.Sound) (bytes : Bytes) (flushFails : Bool) :
    (isCapacity (a.writeBytes bytes flushFails).2 = true ↔
        ArenaHandle.availableSpace a < alignedSize bytes.length) ∧
      (isCapacity (a.writeBytes bytes flushFails).2 = true → (a.writeBytes bytes flushFails).1 = a) := by
  have hinside := ha.inside
  unfold ArenaHandle.availableSpace
  rcases writeBytes_cases a bytes flushFails with ⟨hfull, heq⟩ | ⟨hfits, heq⟩
  · rw [heq]
    exact ⟨iff_of_true rfl (by omega), fun _ => rfl⟩
  · have hnot : ¬ isCapacity (a.writeBytes bytes flushFails).2 = true := by
      rw [heq]
      dsimp only
      split_ifs
      · exact Bool.false_ne_true
      · exact Bool.false_ne_true
    exact ⟨iff_of_false hnot (by omega), fun h => absurd h hnot⟩

/-- For every arena that `create` makes and every interleaving of writes through its handles, in either kind
of build: no call panics; every pointer returned is a multiple of eight, its bytes lie between the header and the
end, apart from those of all earlier pointers, and read back as written; the next write is refused for lack of
space exactly when its aligned size exceeds what remains, and then the arena stays as it is. -/
theorem allocation_law (checks : Bool) (traceId : TraceId) (capacity : ℕ) (sync : Bool) (now : UInt64)
    (a : ArenaInner) (hcreate : ArenaInner.create traceId capacity sync now = some a) (calls : List WriteCall)
    (hshort : ∀ call ∈ calls, call.bytes.length < 2 ^ 32) :
    ∃ x, Machine.run (writeStep checks) ⟨a, []⟩ calls = some x ∧ x.arena.capacity = capacity ∧
      (∀ r ∈ x.returned, Returned checks x.arena r.1 r.2) ∧
      (x.returned.Pairwise fun r r' =>
        rangesDisjoint r.1.offset.toNat r.2.length r'.1.offset.toNat r'.2.length) ∧
      ∀ call : WriteCall, ∃ b r,
        call.handle.writeBytes checks x.arena call.bytes call.flushFails = .ok (b, r) ∧
          (isCapacity r = true ↔ ArenaHandle.availableSpace x.arena < alignedSize call.bytes.length) ∧
          (isCapacity r = true → b = x.arena) := by
  obtain ⟨hpacked, hcapacity⟩ := ArenaRun.packed_created hcreate
  obtain ⟨x, hrun, hx, hcap⟩ := packed_run checks hpacked calls hshort
  refine ⟨x, hrun, hcap.trans hcapacity, fun r hr => (hx.holds r hr).returned checks hx.sound, hx.disjoint,
    fun call => ⟨_, _, call.handle.writeBytes_ok checks hx.sound call.size call.flushFails, ?_⟩⟩
  exact hx.sound.refused_iff call.bytes call.flushFails

def mixedCalls : List WriteCall :=
  [⟨.arena, [1, 2, 3, 4, 5], false, by decide⟩, ⟨.writer, [], false, by decide⟩,
    ⟨.writer, List.replicate 200 1, false, by rw [List.length_replicate]; decide⟩]

theorem allocation_law_mixed :
    ∃ x, Machine.run (writeStep true) ⟨ArenaRun.smallArena, []⟩ mixedCalls = some x ∧
      x.arena.capacity = 256 ∧ ∀ r ∈ x.returned, Returned true x.arena r.1 r.2 := by
  have hshort : ∀ call ∈ mixedCalls, call.bytes.length < 2 ^ 32 := by
    unfold mixedCalls
    simp only [List.forall_mem_cons, List.length_cons, List.length_nil, List.length_replicate]
    exact ⟨by omega, by omega, by omega, fun call hcall => absurd hcall List.not_mem_nil⟩
  obtain ⟨x, hrun, hcap, hreturned, -⟩ :=
    allocation_law true sampleTrace 256 false 1700000000 ArenaRun.smallArena ArenaRun.smallArena_created
      mixedCalls hshort
  exact ⟨x, hrun, hcap, hreturned⟩

theorem ArenaInner.writeBytes_nil {a : ArenaInner} (hinside : a.writePos ≤ a.capacity) :
    a.writeBytes [] false = (a, .ok ⟨.ofNat a.writePos, 0⟩) := by
  have hmmap : writeAt a.writePos (withPadding []) a.mmap = a.mmap := List.take_append_drop a.writePos a.mmap
  have halign : alignedSize ([] : Bytes).length = 0 := rfl
  have hsync : ¬ (a.syncOnWrite && false) = true := by
    rw [Bool.and_false]
    exact Bool.false_ne_true
  unfold writeBytes
  dsimp only
  rw [halign, Nat.add_zero, if_neg (Nat.not_lt.mpr hinside), if_neg hsync, hmmap]
  rfl

def headerArena : ArenaInner :=
  let header := ArenaHeader.new sampleTrace 128 1700000000
  ⟨writeAt 0 header.toBytes (List.replicate 128 0), 128, header, false, 128⟩

theorem headerArena_created : ArenaInner.create sampleTrace 128 false 1700000000 = some headerArena := rfl

/-- A full arena returns a pointer for an empty slice, at its very end. -/
theorem empty_slice_at_end :
    ArenaInner.create sampleTrace 128 false 1700000000 = some headerArena ∧
      Handle.arena.writeBytes true headerArena [] false = .ok (headerArena, .ok ⟨128, 0⟩) ∧
      ¬ (headerSize ≤ UInt64.toNat 128 ∧ UInt64.toNat 128 < headerArena.capacity) := by
  refine ⟨headerArena_created, ?_, by decide⟩
  have hsound := (ArenaInner.create_wellFormed headerArena_created).1.sound
  rw [Handle.writeBytes_ok .arena true hsound (by decide) false, ArenaInner.writeBytes_nil le_rfl]
  rfl

/-! ### Reads at any offset -/

/-- `decode_arena_offset` of `xerv-executor/src/wasm/memory.rs`. -/
def decodeArenaOffset (lo hi : UInt32) : ArenaOffset := hi.toUInt64 <<< 32 ||| lo.toUInt64

def encodeArenaOffset (offset : ArenaOffset) : UInt32 × UInt32 := (offset.toUInt32, (offset >>> 32).toUInt32)

/-- The host function `__xerv_read_bytes`: the code it returns to the guest and the memory of the guest, which
may export none. -/
def xervReadBytes (checks : Bool) (a : ArenaInner) (memory : Option Bytes) (offsetLo offsetHi dest size : UInt32) :
    Except Panic (Int32 × Option Bytes) := do
  let offset := decodeArenaOffset offsetLo offsetHi
  match ← ArenaReader.readBytes checks a offset size.toUInt64 with
  | .error _ => return (-1, memory)
  | .ok bytes =>
    match memory with
    | none => return (-1, none)
    | some data =>
      if checks ∧ 2 ^ 32 ≤ dest.toNat + size.toNat then throw .overflow
      let stop := dest + size
      if dest ≤ stop ∧ stop.toNat ≤ data.length then return (0, some (writeAt dest.toNat bytes data))
      else return (-1, some data)

/-- The sum of the words is the sum of the numbers, and the read gives an error when the range passes the
position and the bytes of the range otherwise. -/
def ReadsExactly (checks : Bool) (handle : ReadHandle) (a : ArenaInner) (offset size : UInt64) : Prop :=
  (offset + size).toNat = offset.toNat + size.toNat ∧
    ∃ r, handle.readBytes checks a offset size = .ok r ∧
      (a.writePos < offset.toNat + size.toNat → ∃ e, r = .error e) ∧
      (offset.toNat + size.toNat ≤ a.writePos → r = .ok (slice a.mmap offset.toNat size.toNat))

/-- A sum that overflows panics, save where it goes unchecked and what is left of it passes the position. -/
theorem readWords_overflow (checks : Bool) {a : ArenaInner} (ha : a.Sound) {offset size : UInt64}
    (hover : 2 ^ 64 ≤ offset.toNat + size.toNat) :
    (checks = true ∨ offset.toNat + size.toNat - 2 ^ 64 ≤ a.writePos →
        ∃ p, readWords checks a offset size = .error p) ∧
      (checks = false → a.writePos < offset.toNat + size.toNat - 2 ^ 64 →
        ∃ e, readWords checks a offset size = .ok (.error e)) := by
  have hbound := ha.bound
  have hinside := ha.inside
  have hpos := toNat_ofNat_word (show a.writePos < 2 ^ 64 by omega)
  have hsum := toNat_add_wrapped hover
  have hsize := size.toNat_lt
  unfold readWords
  cases checks with
  | true =>
    exact ⟨fun _ => ⟨.overflow, bind_of_error (addWord_overflow hover)⟩, fun h => absurd h (by decide)⟩
  | false =>
    have hstop := addWord_unchecked offset size
    refine ⟨fun h => ⟨.sliceIndex, bind_of_ok hstop ?_⟩, fun _ h => ?_⟩
    · have hcovered : ¬ UInt64.ofNat a.writePos < offset + size := by
        rw [UInt64.lt_iff_toNat_lt, hpos, hsum]
        exact Nat.not_lt.mpr (h.resolve_left Bool.false_ne_true)
      rw [if_neg hcovered]
      -- the end of the range lies before its start
      exact bind_of_ok hstop (bind_of_error (sliceWord_panics (by omega)))
    · have hbeyond : UInt64.ofNat a.writePos < offset + size := by
        rw [UInt64.lt_iff_toNat_lt, hpos, hsum]
        exact h
      exact ⟨_, bind_of_ok hstop (if_pos hbeyond)⟩

theorem decode_encode (offset : ArenaOffset) :
    decodeArenaOffset (encodeArenaOffset offset).1 (encodeArenaOffset offset).2 = offset :=
  split_word offset

theorem readsExactly_iff (checks : Bool) (handle : ReadHandle) {a : ArenaInner} (ha : a.Sound)
    (offset size : UInt64) : ReadsExactly checks handle a offset size ↔ offset.toNat + size.toNat < 2 ^ 64 := by
  constructor
  · rintro ⟨hsum, -⟩
    rw [← hsum]
    exact (offset + size).toNat_lt
  · intro hfits
    refine ⟨toNat_add_word hfits, _, handle.readBytes_ok checks ha hfits, fun h => ?_, fun h => ?_⟩
    · unfold ArenaInner.readBytes
      exact ⟨_, if_pos h⟩
    · unfold ArenaInner.readBytes
      exact if_neg (Nat.not_lt.mpr h)

theorem sound_run (checks : Bool) {x : ArenaRun} (hx : x.arena.Sound) (calls : List WriteCall) :
    ∃ y, Machine.run (writeStep checks) x calls = some y ∧ y.arena.Sound := by
  refine Machine.run_total (fun y : ArenaRun => y.arena.Sound) calls (fun y hy call _ => ?_) hx
  refine ⟨_, writeStep_ok checks hy call, ?_⟩
  have hnext := hy.writeBytes call.bytes call.flushFails
  unfold ArenaRun.step
  dsimp only
  split
  · rename_i a ptr heq
    rw [heq] at hnext
    exact hnext
  · rename_i a e heq
    rw [heq] at hnext
    exact hnext

/-- In every state that `create` and writes lead to, in either kind of build and through either handle, a read
is exact if and only if the end of its range fits a word. -/
theorem arena_reads_iff (checks : Bool) (traceId : TraceId) (capacity : ℕ) (sync : Bool) (now : UInt64)
    (a : ArenaInner) (hcreate : ArenaInner.create traceId capacity sync now = some a) (calls : List WriteCall) :
    ∃ x, Machine.run (writeStep checks) ⟨a, []⟩ calls = some x ∧
      ∀ handle offset size, ReadsExactly checks handle x.arena offset size ↔
        offset.toNat + size.toNat < 2 ^ 64 := by
  obtain ⟨x, hrun, hx⟩ := sound_run checks (ArenaRun.packed_created hcreate).1.sound calls
  exact ⟨x, hrun, fun handle offset size => readsExactly_iff checks handle hx offset size⟩

theorem arena_reads_written :
    ∃ x, Machine.run (writeStep true) ⟨ArenaRun.smallArena, []⟩ mixedCalls = some x ∧
      ReadHandle.reader.readBytes true x.arena 128 5 = .ok (.ok [1, 2, 3, 4, 5]) := by
  obtain ⟨x, hrun, hreads⟩ :=
    arena_reads_iff true sampleTrace 256 false 1700000000 ArenaRun.smallArena ArenaRun.smallArena_created mixedCalls
  obtain ⟨-, r, hread, -, hwithin⟩ := (hreads .reader 128 5).mpr (by decide)
  have hend : (Machine.run (writeStep true) ⟨ArenaRun.smallArena, []⟩ mixedCalls).map (fun x =>
      (x.arena.writePos, slice x.arena.mmap 128 5)) = some (136, [1, 2, 3, 4, 5]) := by decide +kernel
  rw [hrun, Option.map_some] at hend
  obtain ⟨hpos, hslice⟩ := Prod.mk.inj (Option.some.inj hend)
  have hbytes := hwithin (by rw [hpos]; decide)
  refine ⟨x, hrun, ?_⟩
  rw [hread, hbytes]
  exact congrArg (fun bytes => Except.ok (Except.ok bytes)) hslice

theorem xervReadBytes_panics (checks : Bool) {a : ArenaInner} {p : Panic} {lo hi size : UInt32}
    (h : ArenaReader.readBytes checks a (decodeArenaOffset lo hi) size.toUInt64 = .error p)
    (memory : Option Bytes) (dest : UInt32) : xervReadBytes checks a memory lo hi dest size = .error p :=
  bind_of_error h

/-- A guest asks for one byte at the last offset there is: in both kinds of build the host panics. -/
theorem guest_read_panics :
    ArenaInner.create sampleTrace 128 false 1700000000 = some headerArena ∧
      ¬ ReadsExactly true .reader headerArena (decodeArenaOffset 0xFFFFFFFF 0xFFFFFFFF) 1 ∧
      xervReadBytes true headerArena (some []) 0xFFFFFFFF 0xFFFFFFFF 0 1 = .error .overflow ∧
      xervReadBytes false headerArena (some []) 0xFFFFFFFF 0xFFFFFFFF 0 1 = .error .sliceIndex := by
  have hsound := (ArenaInner.create_wellFormed headerArena_created).1.sound
  refine ⟨headerArena_created, ?_, ?_, ?_⟩
  · rw [readsExactly_iff true .reader hsound]
    decide
  · exact xervReadBytes_panics true rfl _ _
  · exact xervReadBytes_panics false rfl _ _

/-! ### Files that were not written by an arena -/

/-- The contents of a file, whose length is an `i64`. -/
structure FileContents where
  bytes : Bytes
  size : bytes.length < 2 ^ 63

inductive ArenaCall where
  | writeBytes (call : WriteCall)
  | availableSpace
  | readBytes (handle : ReadHandle) (offset size : UInt64)

def callStep (checks : Bool) (a : ArenaInner) : ArenaCall → Option ArenaInner
  | .writeBytes call => (call.handle.writeBytes checks a call.bytes call.flushFails).toOption.map Prod.fst
  | .availableSpace => some a
  | .readBytes handle offset size => (handle.readBytes checks a offset size).toOption.map fun _ => a

/-- A read whose end does not fit a word, where the build or the slice notices. -/
def overflows (checks : Bool) (a : ArenaInner) : ArenaCall → Bool
  | .readBytes _ offset size =>
    2 ^ 64 ≤ offset.toNat + size.toNat && (checks || offset.toNat + size.toNat - 2 ^ 64 ≤ a.writePos)
  | _ => false

/-- `open` refuses the file, or gives an arena whose position lies between the header and the end of the file
and on which the calls neither panic nor touch the header nor change the length. -/
def OpensSafely (checks : Bool) (file : FileContents) (calls : List ArenaCall) : Prop :=
  match ArenaInner.openFile file.bytes with
  | .error e => e ≠ .slicePanic
  | .ok a =>
    headerSize ≤ a.writePos ∧ a.writePos ≤ file.bytes.length ∧
      ∃ b, Machine.run (callStep checks) a calls = some b ∧
        b.mmap.take headerSize = file.bytes.take headerSize ∧ b.mmap.length = file.bytes.length

/-- The file has room for a header, and one that is accepted has its position between itself and the end. -/
def FileContents.Intact (file : FileContents) : Prop :=
  headerSize ≤ file.bytes.length ∧
    ∀ header, ArenaHeader.fromBytes (file.bytes.take headerSize) = some header → header.validate = .ok () →
      headerSize ≤ header.writePos.toNat ∧ header.writePos.toNat ≤ file.bytes.length

/-- What the calls on an opened file keep. -/
structure OpenedFrom (file : FileContents) (a : ArenaInner) : Prop where
  sound : a.Sound
  header : a.mmap.take headerSize = file.bytes.take headerSize
  length : a.mmap.length = file.bytes.length

theorem ArenaInner.Sound.header_writeBytes {a : ArenaInner} (ha : a.Sound) (bytes : Bytes) (flushFails : Bool) :
    (a.writeBytes bytes flushFails).1.mmap.take headerSize = a.mmap.take headerSize ∧
      (a.writeBytes bytes flushFails).1.mmap.length = a.mmap.length := by
  rcases writeBytes_cases a bytes flushFails with ⟨-, heq⟩ | ⟨hfits, heq⟩
  · rw [heq]
    exact ⟨rfl, rfl⟩
  · have hlen : a.writePos + (withPadding bytes).length ≤ a.mmap.length := by
      rw [withPadding_length, ha.size]
      exact hfits
    rw [heq]
    exact ⟨take_writeAt _ _ _ _ ha.start (ha.size ▸ ha.inside), writeAt_length _ _ _ hlen⟩

theorem OpenedFrom.step {checks : Bool} {file : FileContents} {a b : ArenaInner} (ha : OpenedFrom file a)
    (call : ArenaCall) (hstep : callStep checks a call = some b) : OpenedFrom file b := by
  cases call with
  | availableSpace =>
    cases hstep
    exact ha
  | writeBytes call =>
    obtain ⟨hheader, hlength⟩ := ha.sound.header_writeBytes call.bytes call.flushFails
    unfold callStep at hstep
    dsimp only at hstep
    rw [call.handle.writeBytes_ok checks ha.sound call.size] at hstep
    cases hstep
    exact ⟨ha.sound.writeBytes _ _, hheader.trans ha.header, hlength.trans ha.length⟩
  | readBytes handle offset size =>
    unfold callStep at hstep
    dsimp only at hstep
    obtain ⟨r, -, hr⟩ := Option.map_eq_some_iff.mp hstep
    exact hr ▸ ha

theorem OpenedFrom.possible_iff (checks : Bool) {file : FileContents} {a : ArenaInner} (ha : OpenedFrom file a)
    (call : ArenaCall) : (∃ b, callStep checks a call = some b) ↔ overflows checks a call = false := by
  cases call with
  | availableSpace => exact iff_of_true ⟨a, rfl⟩ rfl
  | writeBytes call =>
    refine iff_of_true ⟨(a.writeBytes call.bytes call.flushFails).1, ?_⟩ rfl
    unfold callStep
    dsimp only
    rw [call.handle.writeBytes_ok checks ha.sound call.size]
    rfl
  | readBytes handle offset size =>
    unfold callStep overflows
    dsimp only
    rw [handle.readBytes_eq]
    by_cases hover : 2 ^ 64 ≤ offset.toNat + size.toNat
    · obtain ⟨hpanics, hreturns⟩ := readWords_overflow checks ha.sound hover
      rw [decide_eq_true hover, Bool.true_and, Bool.or_eq_false_iff, decide_eq_false_iff_not, not_le]
      constructor
      · rintro ⟨b, hb⟩
        by_contra hnot
        rw [not_and_or, Bool.not_eq_false, not_lt] at hnot
        obtain ⟨p, hp⟩ := hpanics hnot
        rw [hp] at hb
        cases hb
      · rintro ⟨hchecks, hbeyond⟩
        obtain ⟨e, he⟩ := hreturns hchecks hbeyond
        rw [he]
        exact ⟨a, rfl⟩
    · rw [readWords_ok checks ha.sound (not_le.mp hover), decide_eq_false hover]
      exact iff_of_true ⟨a, rfl⟩ rfl

theorem openFile_cases (file : Bytes) :
    (file.length < headerSize ∧ ArenaInner.openFile file = .error .slicePanic) ∨
      (headerSize ≤ file.length ∧ ∃ cause, ArenaInner.openFile file = .error (.corruption 0 cause) ∧
        ∀ header, ArenaHeader.fromBytes (file.take headerSize) = some header → header.validate ≠ .ok ()) ∨
      (headerSize ≤ file.length ∧ ∃ header, ArenaHeader.fromBytes (file.take headerSize) = some header ∧
        header.validate = .ok () ∧
        ArenaInner.openFile file = .ok ⟨file, header.writePos.toNat, header, false, file.length⟩) := by
  by_cases hshort : file.length < headerSize
  · exact .inl ⟨hshort, if_pos hshort⟩
  · have hlong : headerSize ≤ file.length := Nat.not_lt.mp hshort
    refine .inr ?_
    unfold ArenaInner.openFile
    rw [if_neg hshort]
    cases hheader : ArenaHeader.fromBytes (file.take headerSize) with
    | none => exact .inl ⟨hlong, _, rfl, fun header h => by cases h⟩
    | some header =>
      dsimp only
      cases hvalid : header.validate with
      | error cause =>
        refine .inl ⟨hlong, cause, rfl, fun header' h => ?_⟩
        cases h
        rw [hvalid]
        exact fun h => by cases h
      | ok u => exact .inr ⟨hlong, header, rfl, hvalid, rfl⟩

theorem OpensSafely.intact {checks : Bool} {file : FileContents} {calls : List ArenaCall}
    (h : OpensSafely checks file calls) : file.Intact := by
  unfold OpensSafely at h
  rcases openFile_cases file.bytes with ⟨-, heq⟩ | ⟨hlong, -, -, hrefused⟩ | ⟨hlong, header, hread, -, heq⟩
  · rw [heq] at h
    exact absurd rfl h
  · exact ⟨hlong, fun header h hv => absurd hv (hrefused header h)⟩
  · rw [heq] at h
    obtain ⟨hstart, hinside, -⟩ := h
    refine ⟨hlong, fun header' hread' _ => ?_⟩
    rw [hread] at hread'
    cases hread'
    exact ⟨hstart, hinside⟩

theorem FileContents.Intact.opened {file : FileContents} (hfile : file.Intact) {a : ArenaInner}
    (ha : ArenaInner.openFile file.bytes = .ok a) :
    OpenedFrom file a ∧ headerSize ≤ a.writePos ∧ a.writePos ≤ file.bytes.length := by
  rcases openFile_cases file.bytes with ⟨-, heq⟩ | ⟨-, cause, heq, -⟩ | ⟨-, header, hread, hvalid, heq⟩
  · rw [heq] at ha
    cases ha
  · rw [heq] at ha
    cases ha
  · rw [heq] at ha
    cases ha
    have hpos := hfile.2 header hread hvalid
    exact ⟨⟨⟨rfl, file.size, hpos.1, hpos.2⟩, rfl, rfl⟩, hpos⟩

/-- For every file, every sequence of calls and either kind of build: the file is opened safely if and only if it
is intact and, where an arena is opened, no call of the sequence reads a range whose end overflows. -/
theorem open_safe_iff (checks : Bool) (file : FileContents) (calls : List ArenaCall) :
    OpensSafely checks file calls ↔
      file.Intact ∧ ∀ a, ArenaInner.openFile file.bytes = .ok a → ∀ before call b,
        before ++ [call] <+: calls → Machine.run (callStep checks) a before = some b →
          overflows checks b call = false := by
  have hruns {a : ArenaInner} (ha : OpenedFrom file a) := Machine.run_total_iff (overflows checks)
    (OpenedFrom file) (fun a call b ha => ha.step call) (fun a call ha => ha.possible_iff checks call) calls ha
  constructor
  · intro h
    refine ⟨h.intact, fun a ha => (hruns (h.intact.opened ha).1).mp ?_⟩
    unfold OpensSafely at h
    rw [ha] at h
    obtain ⟨-, -, b, hrun, -, -⟩ := h
    exact ⟨b, hrun⟩
  · rintro ⟨hintact, hnone⟩
    unfold OpensSafely
    cases hopen : ArenaInner.openFile file.bytes with
    | error e =>
      rcases openFile_cases file.bytes with ⟨hshort, -⟩ | ⟨-, cause, heq, -⟩ | ⟨-, header, -, -, heq⟩
      · exact absurd hintact.1 (Nat.not_le.mpr hshort)
      · rw [heq] at hopen
        cases hopen
        exact fun h => by cases h
      · rw [heq] at hopen
        cases hopen
    | ok a =>
      obtain ⟨ha, hstart, hinside⟩ := hintact.opened hopen
      obtain ⟨b, hrun⟩ := (hruns ha).mpr (hnone a hopen)
      have hb := Machine.run_invariant (OpenedFrom file) (fun a call b ha => ha.step call) calls ha hrun
      exact ⟨hstart, hinside, b, hrun, hb.header, hb.length⟩

/-- An arena of 256 bytes with its position at 200, of which the file has kept 136. -/
def cutHeader : ArenaHeader := { ArenaHeader.new sampleTrace 256 1700000000 with writePos := 200 }

def cutFile : FileContents where
  bytes := cutHeader.toBytes ++ List.replicate 8 0
  size := by
    rw [List.length_append, cutHeader.toBytes_length]
    decide

/-- A file of five bytes makes `open` panic. The cut file is accepted, with its position behind its end. -/
theorem malformed_files_accepted :
    ArenaInner.openFile [1, 2, 3, 4, 5] = .error .slicePanic ∧
      ¬ OpensSafely true ⟨[1, 2, 3, 4, 5], by decide⟩ [] ∧ ¬ OpensSafely true cutFile [] := by
  have hlength : cutFile.bytes.length = 136 := by
    show (cutHeader.toBytes ++ List.replicate 8 0).length = 136
    rw [List.length_append, cutHeader.toBytes_length]
    rfl
  have hheader : cutFile.bytes.take headerSize = cutHeader.toBytes := List.take_left' cutHeader.toBytes_length
  have hvalid : cutHeader.validate = .ok () := ArenaInner.validate_ok cutHeader rfl rfl (by decide)
  refine ⟨rfl, fun h => h rfl, mt OpensSafely.intact fun hintact => ?_⟩
  have hpos := (hintact.2 cutHeader (by rw [hheader]; exact cutHeader.fromBytes_toBytes) hvalid).2
  rw [hlength] at hpos
  exact absurd hpos (by decide)

end Xerv.Arena
