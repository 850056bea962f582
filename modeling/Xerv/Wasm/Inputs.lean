import Xerv.Lib.Positions
import Xerv.Wasm.Memory

/-!
# The inputs of a guest (`xerv-executor/src/wasm/node.rs`)

`prepare_inputs` builds a table with an entry for each input in guest memory, and copies the names and the small
payloads beside it, all in one loop. When the regions that the allocator hands out are fresh, the
guest reads back from the table what the host put there.
-/

namespace Xerv.Wasm
open Xerv.Lib Xerv.Arena

/-- A connected input: the port and where the data lies in the arena. -/
structure InputPort where
  name : String
  ptr : RelPtr

def entrySize : ℕ := 20

section Prepare
variable {G : Type}

def entryBytes (nameWasm : WasmPtr) (ptr : RelPtr) : Bytes :=
  let (offsetLo, offsetHi) := encodeArenaOffset ptr.offset
  leBytes 4 nameWasm.offset.toNat ++ leBytes 4 nameWasm.size.toNat ++ leBytes 4 offsetLo.toNat ++
    leBytes 4 offsetHi.toNat ++ leBytes 4 ptr.size.toNat

/-- `reader.read_bytes(ptr.offset(), ptr.size())`. -/
def readInput (arena : ArenaInner) (ptr : RelPtr) : BridgeM G Bytes := fun s =>
  match ArenaReader.readBytes false arena ptr.offset ptr.size.toUInt64 with
  | .ok (.ok data) => .ok data s
  | .ok (.error e) => .error (.failed (.arena e)) s
  | .error p => .error (.panic p) s

/-- The copy of a payload for the `SliceCopy` strategy. -/
def copyPayload (alloc : AllocFn G) (arena : ArenaInner) (ptr : RelPtr) : BridgeM G Unit :=
  let strategy := TransferStrategy.select ptr.size.toNat
  if strategy.requiresCopy && 0 < ptr.size then do
    let data ← readInput arena ptr
    let _dataWasm ← copyToWasm alloc data
    return ()
  else return ()

/-- The loop of `prepare_inputs`, whose next entry goes to `offset`. -/
def prepareEntries (alloc : AllocFn G) (arena : ArenaInner) : UInt32 → List InputPort → BridgeM G Unit
  | _, [] => return ()
  | offset, input :: rest => do
    let nameWasm ← copyToWasm alloc (utf8 input.name)
    writeBytesAt offset (entryBytes nameWasm input.ptr)
    copyPayload alloc arena input.ptr
    prepareEntries alloc arena (offset + .ofNat entrySize) rest

/-- The allocation of the table reports the size it was computed from. -/
def allocateTable (alloc : AllocFn G) (arraySize : ℕ) : BridgeM G UInt32 := fun s =>
  match allocate alloc (.ofNat arraySize) s with
  | .ok offset s' => .ok offset s'
  | .error (.failed _) s' => .error (.failed (.memoryAlloc arraySize)) s'
  | .error e s' => .error e s'

def prepareInputs (alloc : AllocFn G) (arena : ArenaInner) (inputs : List InputPort) :
    BridgeM G (UInt32 × UInt32) :=
  if inputs.isEmpty then return (0, 0)
  else do
    let count := inputs.length
    let arrayPtr ← allocateTable alloc (count * entrySize)
    prepareEntries alloc arena arrayPtr inputs
    return (arrayPtr, .ofNat count)

end Prepare

/-! ### How the guest reads the table -/

def readWord (memory : Bytes) (start : ℕ) : Option UInt32 :=
  (getSpan memory start (start + 4)).map fun bytes => .ofNat (leVal bytes)

structure GuestInput where
  name : Bytes
  offset : ArenaOffset
  size : UInt32
  deriving DecidableEq

def decodeEntry (memory : Bytes) (start : ℕ) : Option GuestInput := do
  let namePtr ← readWord memory start
  let nameLen ← readWord memory (start + 4)
  let offsetLo ← readWord memory (start + 8)
  let offsetHi ← readWord memory (start + 12)
  let size ← readWord memory (start + 16)
  let name ← (readAt memory namePtr nameLen).toOption
  return ⟨name, decodeArenaOffset offsetLo offsetHi, size⟩

def decodeTable (memory : Bytes) (start : ℕ) : ℕ → Option (List GuestInput)
  | 0 => some []
  | count + 1 => do
    let first ← decodeEntry memory start
    let rest ← decodeTable memory (start + entrySize) count
    return first :: rest

/-- What the guest should find. -/
def InputPort.seen (input : InputPort) : GuestInput := ⟨utf8 input.name, input.ptr.offset, input.ptr.size⟩

/-! ### What the allocator is trusted with -/

/-- A region in range, apart from the regions handed out before, whose contents the call left alone, in a
memory that has not shrunk and that an address reaches the whole of. -/
structure Allocation.Fresh (earlier : List Allocation) (a : Allocation) : Prop where
  inside : a.region.Inside a.after.length
  addressable : a.after.length ≤ 2 ^ 32
  grows : a.before.length ≤ a.after.length
  apart : ∀ e ∈ earlier, rangesDisjoint e.region.start e.region.len a.region.start a.region.len
  kept : ∀ e ∈ earlier, slice a.after e.region.start e.region.len = slice a.before e.region.start e.region.len

def FreshAllocations (allocations : List Allocation) : Prop :=
  ∀ earlier a later, allocations = earlier ++ a :: later → a.Fresh earlier

theorem FreshAllocations.of_grown {allocations more : List Allocation} (h : FreshAllocations more)
    (hgrown : allocations <+: more) : FreshAllocations allocations := by
  obtain ⟨rest, rfl⟩ := hgrown
  intro earlier a later heq
  refine h earlier a (later ++ rest) ?_
  rw [heq, List.append_assoc, List.cons_append]

theorem FreshAllocations.last {allocations : List Allocation} {a : Allocation}
    (h : FreshAllocations (allocations ++ [a])) : a.Fresh allocations := h allocations a [] rfl

theorem Allocation.fresh_iff {earlier : List Allocation} {a : Allocation} :
    a.Fresh earlier ↔ a.region.Inside a.after.length ∧ a.after.length ≤ 2 ^ 32 ∧ a.before.length ≤ a.after.length ∧
      (∀ e ∈ earlier, rangesDisjoint e.region.start e.region.len a.region.start a.region.len) ∧
      ∀ e ∈ earlier, slice a.after e.region.start e.region.len = slice a.before e.region.start e.region.len :=
  ⟨fun ⟨hinside, haddressable, hgrows, hapart, hkept⟩ => ⟨hinside, haddressable, hgrows, hapart, hkept⟩,
    fun ⟨hinside, haddressable, hgrows, hapart, hkept⟩ => ⟨hinside, haddressable, hgrows, hapart, hkept⟩⟩

instance (earlier : List Allocation) (a : Allocation) : Decidable (a.Fresh earlier) :=
  decidable_of_iff _ Allocation.fresh_iff.symm

theorem freshAllocations_iff {allocations : List Allocation} :
    FreshAllocations allocations ↔ ∀ i : Fin allocations.length, (allocations.get i).Fresh (allocations.take i) := by
  constructor
  · intro h i
    refine h _ _ (allocations.drop (i + 1)) ?_
    rw [List.get_eq_getElem, List.getElem_cons_drop, List.take_append_drop]
  · intro h earlier a later heq
    subst heq
    have hfresh := h ⟨earlier.length, by simp⟩
    simpa using hfresh

instance (allocations : List Allocation) : Decidable (FreshAllocations allocations) :=
  decidable_of_iff _ freshAllocations_iff.symm

/-! ### Reading entries back -/

theorem slice_slice {buf data : Bytes} {start len i n : ℕ} (h : slice buf start len = data) (hfits : i + n ≤ len) :
    slice buf (start + i) n = slice data i n := by
  subst h
  unfold slice
  rw [List.drop_take, List.drop_drop, List.take_take, Nat.min_eq_left (by omega)]

theorem readWord_eq {memory : Bytes} {start : ℕ} {w : UInt32} (hinside : start + 4 ≤ memory.length)
    (h : slice memory start 4 = leBytes 4 w.toNat) : readWord memory start = some w := by
  have hspan : getSpan memory start (start + 4) = some (leBytes 4 w.toNat) :=
    getSpan_eq_some.mpr ⟨Nat.le_add_right _ _, hinside, by rw [Nat.add_sub_cancel_left, h]⟩
  unfold readWord
  rw [hspan, Option.map_some, leVal_leBytes, Nat.mod_eq_of_lt (show w.toNat < 256 ^ 4 from w.toNat_lt),
    UInt32.ofNat_toNat]

theorem entryBytes_length (nameWasm : WasmPtr) (ptr : RelPtr) : (entryBytes nameWasm ptr).length = entrySize := by
  unfold entryBytes entrySize
  simp only [List.length_append, leBytes_length]

theorem decodeEntry_eq {memory name : Bytes} {start : ℕ} {nameWasm : WasmPtr} {ptr : RelPtr}
    (hinside : start + entrySize ≤ memory.length) (h : slice memory start entrySize = entryBytes nameWasm ptr)
    (hname : readAt memory nameWasm.offset nameWasm.size = .ok name) :
    decodeEntry memory start = some ⟨name, ptr.offset, ptr.size⟩ := by
  unfold entrySize at hinside h
  have hword : ∀ i (w : UInt32), i + 4 ≤ 20 → slice (entryBytes nameWasm ptr) i 4 = leBytes 4 w.toNat →
      readWord memory (start + i) = some w := fun i w hi hw =>
    readWord_eq (by omega) ((slice_slice h hi).trans hw)
  have hptr := hword 0 nameWasm.offset (by omega) rfl
  have hlen := hword 4 nameWasm.size (by omega) rfl
  have hlo := hword 8 (encodeArenaOffset ptr.offset).1 (by omega) rfl
  have hhi := hword 12 (encodeArenaOffset ptr.offset).2 (by omega) rfl
  have hsize := hword 16 ptr.size (by omega) rfl
  rw [Nat.add_zero] at hptr
  unfold decodeEntry
  rw [hptr, hlen, hlo, hhi, hsize]
  show (readAt memory nameWasm.offset nameWasm.size).toOption.bind _ = _
  rw [hname]
  show some (GuestInput.mk name (decodeArenaOffset _ _) ptr.size) = _
  rw [decode_encode]

/-- The name lies in guest memory: nowhere if it has no bytes, and else in a region apart from the table. -/
def NameAt {G : Type} (table : Span) (s : Store G) (ptr : WasmPtr) (bytes : Bytes) : Prop :=
  (bytes = [] ∧ ptr = .null) ∨
    (bytes ≠ [] ∧ ptr.size.toNat = bytes.length ∧ ptr.offset.toNat + bytes.length < 2 ^ 32 ∧
      slice s.memory ptr.offset.toNat bytes.length = bytes ∧
      ∃ a ∈ s.allocations, a.region = ⟨ptr.offset.toNat, bytes.length⟩ ∧
        rangesDisjoint table.start table.len a.region.start a.region.len)

section Loop
variable {G : Type} {table : Span} {s s' : Store G}

def Store.Sane (s : Store G) : Prop := ∀ a ∈ s.allocations, a.region.Inside s.memory.length

theorem NameAt.read (hs : s.Sane) {ptr : WasmPtr} {bytes : Bytes} (h : NameAt table s ptr bytes) :
    readAt s.memory ptr.offset ptr.size = .ok bytes := by
  unfold readAt copyFromWasm
  rcases h with ⟨rfl, rfl⟩ | ⟨hne, hsize, hfits, hslice, a, ha, hregion, -⟩
  · rfl
  · have hpos : 0 < ptr.size.toNat := hsize ▸ List.length_pos_iff.mpr hne
    have hnull : ¬ (WasmPtr.mk ptr.offset ptr.size).isNull = true := by
      unfold WasmPtr.isNull
      intro hnull
      rw [Bool.and_eq_true, beq_iff_eq, beq_iff_eq] at hnull
      rw [hnull.2] at hpos
      exact absurd hpos (by decide)
    have hstop : (WasmPtr.mk ptr.offset ptr.size).stop.toNat = ptr.offset.toNat + bytes.length := by
      unfold WasmPtr.stop
      rw [toNat_add_32 (le_add_iff_32.mpr (hsize ▸ hfits)), hsize]
    have hinside := hs a ha
    rw [hregion] at hinside
    have hspan : getSpan s.memory ptr.offset.toNat (ptr.offset.toNat + bytes.length) = some bytes :=
      getSpan_eq_some.mpr ⟨Nat.le_add_right _ _, hinside, by rw [Nat.add_sub_cancel_left, hslice]⟩
    rw [if_neg hnull, hstop, hspan]

/-! ### The answers of the allocator only grow -/

theorem copyToWasm_grows {alloc : AllocFn G} {data : Bytes} {ptr : WasmPtr}
    (h : copyToWasm alloc data s = .ok ptr s') : s.allocations <+: s'.allocations := by
  rcases copyToWasm_ok h with ⟨-, -, rfl⟩ | ⟨-, -, -, memory, -, -, hallocations⟩
  · exact List.prefix_refl _
  · exact ⟨_, hallocations.symm⟩

theorem writeBytesAt_ok {offset : UInt32} {data : Bytes} (h : writeBytesAt offset data s = .ok () s') :
    offset.toNat + data.length ≤ s.memory.length ∧
      s' = { s with memory := writeAt offset.toNat data s.memory } := by
  obtain ⟨-, hstop, -, heq⟩ := putRange_ok.mp h
  exact ⟨hstop, heq⟩

theorem readInput_ok {arena : ArenaInner} {ptr : RelPtr} {data : Bytes}
    (h : readInput arena ptr s = .ok data s') : s' = s := by
  unfold readInput at h
  split at h
  · cases h
    rfl
  · cases h
  · cases h

theorem copyPayload_ok {alloc : AllocFn G} {arena : ArenaInner} {ptr : RelPtr}
    (h : copyPayload alloc arena ptr s = .ok () s') :
    s' = s ∨ ∃ data dataWasm, copyToWasm alloc data s = .ok dataWasm s' := by
  unfold copyPayload at h
  split_ifs at h
  · obtain ⟨data, s₁, hread, hcopy⟩ := bind_eq_ok.mp h
    obtain ⟨dataWasm, s₂, hcopied, hreturn⟩ := bind_eq_ok.mp hcopy
    cases hreturn
    cases readInput_ok hread
    exact .inr ⟨data, dataWasm, hcopied⟩
  · cases h
    exact .inl rfl

theorem copyPayload_grows {alloc : AllocFn G} {arena : ArenaInner} {ptr : RelPtr}
    (h : copyPayload alloc arena ptr s = .ok () s') : s.allocations <+: s'.allocations := by
  rcases copyPayload_ok h with rfl | ⟨data, dataWasm, hcopy⟩
  · exact List.prefix_refl _
  · exact copyToWasm_grows hcopy

theorem prepareEntries_cons {alloc : AllocFn G} {arena : ArenaInner} {offset : UInt32} {input : InputPort}
    {rest : List InputPort} (h : prepareEntries alloc arena offset (input :: rest) s = .ok () s') :
    ∃ nameWasm s₁ s₂ s₃, copyToWasm alloc (utf8 input.name) s = .ok nameWasm s₁ ∧
      writeBytesAt offset (entryBytes nameWasm input.ptr) s₁ = .ok () s₂ ∧
        copyPayload alloc arena input.ptr s₂ = .ok () s₃ ∧
          prepareEntries alloc arena (offset + .ofNat entrySize) rest s₃ = .ok () s' := by
  rw [prepareEntries] at h
  obtain ⟨nameWasm, s₁, hname, hafter⟩ := bind_eq_ok.mp h
  obtain ⟨u, s₂, hentry, hafter⟩ := bind_eq_ok.mp hafter
  obtain ⟨v, s₃, hpayload, hrest⟩ := bind_eq_ok.mp hafter
  exact ⟨nameWasm, s₁, s₂, s₃, hname, hentry, hpayload, hrest⟩

theorem prepareEntries_grows {alloc : AllocFn G} {arena : ArenaInner} (inputs : List InputPort) :
    ∀ {offset : UInt32} {s s' : Store G}, prepareEntries alloc arena offset inputs s = .ok () s' →
      s.allocations <+: s'.allocations := by
  induction inputs with
  | nil =>
    intro offset s s' h
    cases h
    exact List.prefix_refl _
  | cons input rest ih =>
    intro offset s s' h
    obtain ⟨nameWasm, s₁, s₂, s₃, hname, hentry, hpayload, hrest⟩ := prepareEntries_cons h
    obtain ⟨-, rfl⟩ := writeBytesAt_ok hentry
    exact (copyToWasm_grows hname).trans ((copyPayload_grows hpayload).trans (ih hrest))

/-! ### What a step leaves alone -/

/-- The regions apart from the table and the first `count` entries of the table are as before. -/
structure Continues (table : Span) (count : ℕ) (s s' : Store G) : Prop where
  sane : s'.Sane
  grown : s.allocations <+: s'.allocations
  apart : ∀ a ∈ s.allocations, rangesDisjoint table.start table.len a.region.start a.region.len →
    slice s'.memory a.region.start a.region.len = slice s.memory a.region.start a.region.len
  done : slice s'.memory table.start (count * entrySize) = slice s.memory table.start (count * entrySize)

namespace Continues
variable {s'' : Store G} {count : ℕ}

theorem refl (hs : s.Sane) : Continues table count s s :=
  ⟨hs, List.prefix_refl _, fun _ _ _ => rfl, rfl⟩

theorem trans (h : Continues table count s s') (h' : Continues table count s' s'') : Continues table count s s'' :=
  ⟨h'.sane, h.grown.trans h'.grown,
    fun a ha hapart => (h'.apart a (h.grown.subset ha) hapart).trans (h.apart a ha hapart),
    h'.done.trans h.done⟩

theorem mono {more : ℕ} (h : Continues table more s s') (hle : count ≤ more) : Continues table count s s' := by
  refine ⟨h.sane, h.grown, h.apart, ?_⟩
  have hfits : 0 + count * entrySize ≤ more * entrySize := by
    rw [Nat.zero_add]
    exact Nat.mul_le_mul_right _ hle
  exact (slice_slice h.done hfits).trans (slice_slice rfl hfits).symm

theorem nameAt (h : Continues table count s s') {ptr : WasmPtr} {bytes : Bytes} (hname : NameAt table s ptr bytes) :
    NameAt table s' ptr bytes := by
  rcases hname with hnull | ⟨hne, hsize, hfits, hslice, a, ha, hregion, hapart⟩
  · exact .inl hnull
  · have hkept := h.apart a ha hapart
    rw [hregion] at hkept
    exact .inr ⟨hne, hsize, hfits, hkept.trans hslice, a, h.grown.subset ha, hregion, hapart⟩

end Continues

theorem copyToWasm_continues {alloc : AllocFn G} {data : Bytes} {ptr : WasmPtr} {count : ℕ}
    (h : copyToWasm alloc data s = .ok ptr s') (hfresh : FreshAllocations s'.allocations) (hs : s.Sane)
    (htable : ∃ a ∈ s.allocations, a.region = table) (hcount : count * entrySize ≤ table.len) :
    Continues table count s s' ∧ NameAt table s' ptr data := by
  rcases copyToWasm_ok h with ⟨rfl, rfl, rfl⟩ | ⟨hne, hsize, hfits, memory, hinside, hmemory, hallocations⟩
  · exact ⟨.refl hs, .inl ⟨rfl, rfl⟩⟩
  · rw [hallocations] at hfresh
    have hlast := hfresh.last
    have hlength := writeAt_length ptr.offset.toNat data memory hinside
    -- what the call keeps, and the write into the new region
    have hkept : ∀ a ∈ s.allocations,
        slice s'.memory a.region.start a.region.len = slice s.memory a.region.start a.region.len := by
      intro a ha
      have hagree : AgreeOutside [⟨ptr.offset.toNat, data.length⟩] memory s'.memory := by
        rw [hmemory]
        exact .writeAt List.mem_cons_self (.refl _) hinside
      refine (hagree.slice_eq fun r hr => ?_).trans (hlast.kept a ha)
      rw [List.mem_singleton.mp hr]
      exact (rangesDisjoint_comm _ _ _ _).mp (hlast.apart a ha)
    obtain ⟨t, ht, rfl⟩ := htable
    refine ⟨⟨?_, ⟨_, hallocations.symm⟩, fun a ha _ => hkept a ha, ?_⟩, .inr ⟨hne, hsize, hfits, ?_, ?_⟩⟩
    · intro a ha
      rw [hallocations] at ha
      unfold Span.Inside
      rw [hmemory, hlength]
      rcases List.mem_append.mp ha with hold | hnew
      · exact (hs a hold).trans hlast.grows
      · rw [List.mem_singleton.mp hnew]
        exact hinside
    · have hpart : 0 + count * entrySize ≤ t.region.len := by
        rw [Nat.zero_add]
        exact hcount
      exact (slice_slice (hkept t ht) hpart).trans (slice_slice rfl hpart).symm
    · rw [hmemory, slice_writeAt_self _ _ _ _ le_rfl (by omega), List.take_length]
    · refine ⟨_, hallocations ▸ List.mem_append_right _ (List.mem_singleton_self _), rfl, ?_⟩
      exact hlast.apart t ht

theorem writeEntry_continues {offset : UInt32} {nameWasm : WasmPtr} {ptr : RelPtr} {count : ℕ}
    (h : writeBytesAt offset (entryBytes nameWasm ptr) s = .ok () s') (hs : s.Sane)
    (hoffset : offset.toNat = table.start + count * entrySize) (hcount : (count + 1) * entrySize ≤ table.len) :
    Continues table count s s' ∧ s'.allocations = s.allocations ∧ s'.memory.length = s.memory.length ∧
      slice s'.memory offset.toNat entrySize = entryBytes nameWasm ptr := by
  obtain ⟨hinside, rfl⟩ := writeBytesAt_ok h
  have hlength := writeAt_length offset.toNat (entryBytes nameWasm ptr) s.memory hinside
  have hentry := entryBytes_length nameWasm ptr
  rw [Nat.add_one_mul] at hcount
  have hagree : AgreeOutside [⟨offset.toNat, entrySize⟩] s.memory
      (writeAt offset.toNat (entryBytes nameWasm ptr) s.memory) :=
    .writeAt List.mem_cons_self (hentry ▸ .refl _) hinside
  refine ⟨⟨fun a ha => ?_, List.prefix_refl _, fun a ha hapart => ?_, ?_⟩, rfl, hlength, ?_⟩
  · unfold Span.Inside
    rw [hlength]
    exact hs a ha
  · refine hagree.slice_eq fun r hr => ?_
    rw [List.mem_singleton.mp hr]
    unfold rangesDisjoint at hapart ⊢
    dsimp only
    omega
  · refine hagree.slice_eq fun r hr => ?_
    rw [List.mem_singleton.mp hr]
    unfold rangesDisjoint
    dsimp only
    omega
  · dsimp only
    rw [slice_writeAt_self _ _ _ _ hentry.ge (by omega), ← hentry, List.take_length]

theorem round_continues {alloc : AllocFn G} {arena : ArenaInner} {input : InputPort} {offset : UInt32}
    {nameWasm : WasmPtr} {count : ℕ} {s₁ s₂ s₃ : Store G}
    (hname : copyToWasm alloc (utf8 input.name) s = .ok nameWasm s₁)
    (hentry : writeBytesAt offset (entryBytes nameWasm input.ptr) s₁ = .ok () s₂)
    (hpayload : copyPayload alloc arena input.ptr s₂ = .ok () s₃) (hfresh : FreshAllocations s₃.allocations)
    (hs : s.Sane) (htable : ∃ a ∈ s.allocations, a.region = table)
    (hoffset : offset.toNat = table.start + count * entrySize) (hcount : (count + 1) * entrySize ≤ table.len) :
    Continues table count s s₂ ∧ Continues table (count + 1) s₂ s₃ ∧
      NameAt table s₂ nameWasm (utf8 input.name) ∧
      slice s₂.memory (table.start + count * entrySize) entrySize = entryBytes nameWasm input.ptr := by
  have hfresh₂ := hfresh.of_grown (copyPayload_grows hpayload)
  have hpart : count * entrySize ≤ table.len := by
    unfold entrySize at hcount ⊢
    omega
  obtain ⟨-, hs₂⟩ := writeBytesAt_ok hentry
  have hsame : s₂.allocations = s₁.allocations := by rw [hs₂]
  obtain ⟨hcont₁, hnameAt₁⟩ := copyToWasm_continues hname (hsame ▸ hfresh₂) hs htable hpart
  obtain ⟨hcont₂, -, -, hslice₂⟩ := writeEntry_continues hentry hcont₁.sane hoffset hcount
  have hcont := hcont₁.trans hcont₂
  have htable₂ : ∃ a ∈ s₂.allocations, a.region = table :=
    htable.imp fun t ht => ⟨hcont.grown.subset ht.1, ht.2⟩
  have hcont₃ : Continues table (count + 1) s₂ s₃ := by
    rcases copyPayload_ok hpayload with rfl | ⟨data, dataWasm, hcopy⟩
    · exact .refl hcont₂.sane
    · exact (copyToWasm_continues hcopy hfresh hcont₂.sane htable₂ hcount).1
  exact ⟨hcont, hcont₃, hcont₂.nameAt hnameAt₁, hoffset ▸ hslice₂⟩

theorem prepareEntries_continues {alloc : AllocFn G} {arena : ArenaInner} (inputs : List InputPort) :
    ∀ {offset : UInt32} {count : ℕ} {s s' : Store G}, prepareEntries alloc arena offset inputs s = .ok () s' →
      FreshAllocations s'.allocations → s.Sane → (∃ a ∈ s.allocations, a.region = table) →
      (inputs ≠ [] → offset.toNat = table.start + count * entrySize) →
      (count + inputs.length) * entrySize = table.len → table.start + table.len ≤ 2 ^ 32 →
        Continues table count s s' ∧
          decodeTable s'.memory (table.start + count * entrySize) inputs.length = some (inputs.map (·.seen)) := by
  induction inputs with
  | nil =>
    intro offset count s s' h _ hs _ _ _ _
    cases h
    exact ⟨.refl hs, rfl⟩
  | cons input rest ih =>
    intro offset count s s' h hfresh hs htable hoffset hlen hbound
    obtain ⟨nameWasm, s₁, s₂, s₃, hname, hentry, hpayload, hrest⟩ := prepareEntries_cons h
    rw [List.length_cons] at hlen
    have hcount : (count + 1) * entrySize ≤ table.len := by
      rw [← hlen]
      exact Nat.mul_le_mul_right _ (by omega)
    have hstart := hoffset (List.cons_ne_nil _ _)
    obtain ⟨hround, hpaid, hnameAt, hslice₂⟩ := round_continues hname hentry hpayload
      (hfresh.of_grown (prepareEntries_grows rest hrest)) hs htable hstart hcount
    have hnext : rest ≠ [] → (offset + .ofNat entrySize).toNat = table.start + (count + 1) * entrySize := by
      intro hne
      have hpos := List.length_pos_iff.mpr hne
      have hentry : (UInt32.ofNat entrySize).toNat = entrySize := rfl
      unfold entrySize at *
      rw [UInt32.toNat_add, hentry, hstart]
      omega
    have htable₃ : ∃ a ∈ s₃.allocations, a.region = table :=
      htable.imp fun t ht => ⟨hpaid.grown.subset (hround.grown.subset ht.1), ht.2⟩
    obtain ⟨hcont, hdecoded⟩ := ih hrest hfresh hpaid.sane htable₃ hnext (by rw [← hlen]; congr 1; omega) hbound
    have hlater : Continues table (count + 1) s₂ s' := hpaid.trans hcont
    have hall := hround.trans (hlater.mono (Nat.le_succ _))
    refine ⟨hall, ?_⟩
    have hinside : table.start + count * entrySize + entrySize ≤ s'.memory.length := by
      obtain ⟨t, ht, htregion⟩ := htable
      have htinside := hall.sane t (hall.grown.subset ht)
      rw [htregion] at htinside
      rw [Nat.add_one_mul] at hcount
      unfold Span.Inside at htinside
      omega
    have hwithin : count * entrySize + entrySize ≤ (count + 1) * entrySize := (Nat.add_one_mul _ _).ge
    have hslice : slice s'.memory (table.start + count * entrySize) entrySize =
        entryBytes nameWasm input.ptr :=
      (slice_slice hlater.done hwithin).trans ((slice_slice rfl hwithin).symm.trans hslice₂)
    have hread := (hlater.nameAt hnameAt).read hlater.sane
    rw [List.length_cons, decodeTable, decodeEntry_eq hinside hslice hread, Nat.add_assoc, ← Nat.add_one_mul,
      hdecoded]
    rfl

theorem allocateTable_ok {alloc : AllocFn G} {arraySize : ℕ} {offset : UInt32}
    (h : allocateTable alloc arraySize s = .ok offset s') : allocate alloc (.ofNat arraySize) s = .ok offset s' := by
  unfold allocateTable at h
  split at h
  · cases h
    assumption
  · cases h
  · cases h

end Loop

/-- For every map of inputs, in every order of its entries, every allocator whose answers in the run are fresh
and every arena: when `prepare_inputs` returns, it returns the number of inputs, and the table that the guest
reads back has every port name exactly once, with the offset and the size of its pointer. -/
theorem input_table_faithful {G : Type} (alloc : AllocFn G) (arena : ArenaInner) (inputs order : List InputPort)
    (hnames : (inputs.map (·.name)).Nodup) (hcount : inputs.length * entrySize < 2 ^ 32)
    (horder : order.Perm inputs) (s s' : Store G) (hstart : s.allocations = []) (p n : UInt32)
    (hrun : prepareInputs alloc arena order s = .ok (p, n) s') (hfresh : FreshAllocations s'.allocations) :
    n.toNat = inputs.length ∧
      ∃ entries, decodeTable s'.memory p.toNat n.toNat = some entries ∧
        entries.Perm (inputs.map (·.seen)) ∧ (entries.map (·.name)).Nodup := by
  have hnodup : ((order.map (·.seen)).map (·.name)).Nodup := by
    have hmap : (order.map (·.seen)).map (·.name) = (order.map (·.name)).map utf8 := by
      rw [List.map_map, List.map_map]
      rfl
    rw [hmap]
    exact ((horder.map (·.name)).nodup_iff.mpr hnames).map utf8_injective
  have hseen : (order.map (·.seen)).Perm (inputs.map (·.seen)) := horder.map _
  have hlength : order.length = inputs.length := horder.length_eq
  unfold prepareInputs at hrun
  split_ifs at hrun with hempty
  · cases hrun
    rw [List.isEmpty_iff] at hempty
    subst hempty
    exact ⟨hlength, [], rfl, hseen, hnodup⟩
  · obtain ⟨arrayPtr, s₁, htable, hrest⟩ := bind_eq_ok.mp hrun
    obtain ⟨u, s₂, hentries, hreturn⟩ := bind_eq_ok.mp hrest
    cases hreturn
    have hallocate := allocateTable_ok htable
    have hsize : (UInt32.ofNat (order.length * entrySize)).toNat = order.length * entrySize :=
      UInt32.toNat_ofNat_of_lt' (hlength ▸ hcount)
    have hshort : order.length < 2 ^ 32 := by
      unfold entrySize at hcount
      omega
    have hn : (UInt32.ofNat order.length).toNat = order.length := UInt32.toNat_ofNat_of_lt' hshort
    have hregions := allocate_ok hallocate
    rw [hstart, List.nil_append, hsize] at hregions
    have hfresh₁ := hfresh.of_grown (prepareEntries_grows order hentries)
    rw [hregions] at hfresh₁
    have hfirst : Allocation.Fresh [] _ := hfresh₁.last
    have hsane : s₁.Sane := by
      intro a ha
      rw [hregions, List.mem_singleton] at ha
      rw [ha]
      exact hfirst.inside
    have htable₁ : ∃ a ∈ s₁.allocations, a.region = ⟨p.toNat, order.length * entrySize⟩ := by
      rw [hregions]
      exact ⟨_, List.mem_singleton_self _, rfl⟩
    have hoffset : order ≠ [] → p.toNat = p.toNat + 0 * entrySize := fun _ => by rw [Nat.zero_mul, Nat.add_zero]
    obtain ⟨-, hdecoded⟩ := prepareEntries_continues order hentries hfresh hsane htable₁ hoffset
      (by rw [Nat.zero_add]) (hfirst.inside.trans hfirst.addressable)
    rw [Nat.zero_mul, Nat.add_zero] at hdecoded
    rw [hn]
    exact ⟨hlength, _, hdecoded, hseen, hnodup⟩

def bumpAlloc : AllocFn ℕ := fun size next memory =>
  if next + size.toNat ≤ memory.length then some (.ofNat next, next + size.toNat, memory) else none

def payloadArena : ArenaInner := (ArenaRun.smallArena.writeBytes [10, 20, 30] false).1

def mixedInputs : List InputPort := [⟨"in", ⟨128, 3⟩⟩, ⟨"b", ⟨0xABCD12345678, 0⟩⟩]

theorem bump_run :
    ∃ s, prepareInputs bumpAlloc payloadArena mixedInputs ⟨List.replicate 64 0, 8, []⟩ = .ok (8, 2) s ∧
      FreshAllocations s.allocations ∧ slice s.memory 50 3 = [10, 20, 30] := by
  have hchecked : (match prepareInputs bumpAlloc payloadArena mixedInputs ⟨List.replicate 64 0, 8, []⟩ with
      | .ok table s =>
        decide (table = (8, 2) ∧ FreshAllocations s.allocations ∧ slice s.memory 50 3 = [10, 20, 30])
      | .error _ _ => false) = true := by decide +kernel
  split at hchecked
  · rename_i table s hrun
    obtain ⟨rfl, hfresh, hpayload⟩ := of_decide_eq_true hchecked
    exact ⟨s, hrun, hfresh, hpayload⟩
  · cases hchecked

/-- The second input first; the payload of the other is copied behind its name. -/
theorem input_table_payload :
    ∃ s, prepareInputs bumpAlloc payloadArena mixedInputs ⟨List.replicate 64 0, 8, []⟩ = .ok (8, 2) s ∧
      slice s.memory 50 3 = [10, 20, 30] ∧ ∃ entries, decodeTable s.memory 8 2 = some entries ∧
        entries.Perm (mixedInputs.reverse.map (·.seen)) ∧ (entries.map (·.name)).Nodup := by
  obtain ⟨s, hrun, hfresh, hpayload⟩ := bump_run
  obtain ⟨-, hentries⟩ :=
    input_table_faithful bumpAlloc payloadArena mixedInputs.reverse mixedInputs (by decide) (by decide)
      (List.reverse_perm mixedInputs).symm ⟨List.replicate 64 0, 8, []⟩ s rfl 8 2 hrun hfresh
  exact ⟨s, hrun, hpayload, hentries⟩

end Xerv.Wasm
