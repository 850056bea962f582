import Xerv.Arena.Access
import Xerv.Lib.Fallible
import Xerv.Lib.Spans
import Xerv.Lib.Utf8

/-!
# The memory bridge (`xerv-executor/src/wasm/memory.rs`, `strategy.rs`)

Data of the host is copied into memory that the guest hands out. The allocator is code of the guest: it may
trap, keep a state of its own and write to the memory. What it answered is recorded.
-/

namespace Xerv.Wasm
open Xerv.Lib Xerv.Arena

/-- A pointer within WASM linear memory. -/
structure WasmPtr where
  offset : UInt32
  size : UInt32
  deriving DecidableEq, Repr

namespace WasmPtr

def null : WasmPtr := ⟨0, 0⟩

def isNull (ptr : WasmPtr) : Bool := ptr.offset == 0 && ptr.size == 0

/-- `WasmPtr::end`. -/
def stop (ptr : WasmPtr) : UInt32 := ptr.offset + ptr.size

end WasmPtr

/-- Strategy for transferring data between host and WASM. -/
inductive TransferStrategy where
  | sliceCopy
  | hostApi
  deriving DecidableEq, Repr

namespace TransferStrategy

def hostApiThreshold : ℕ := 1024 * 1024

def select (size : ℕ) : TransferStrategy := if size < hostApiThreshold then .sliceCopy else .hostApi

def requiresCopy : TransferStrategy → Bool
  | sliceCopy => true
  | hostApi => false

end TransferStrategy

inductive BridgeError where
  | memoryAlloc (requested : ℕ)
  | execution (cause : String)
  | arena (e : ArenaError)

inductive BridgeExit where
  | failed (e : BridgeError)
  | panic (cause : Panic)
  | lengthMismatch

/-- An answer of the allocator: the region, and the memory before and after the call. -/
structure Allocation where
  region : Span
  before : Bytes
  after : Bytes

/-- The memory, what the guest keeps beside it, and the answers of its allocator so far. -/
structure Store (G : Type) where
  memory : Bytes
  guest : G
  allocations : List Allocation

/-- `__xerv_alloc`; none is a trap. -/
abbrev AllocFn (G : Type) := UInt32 → G → Bytes → Option (UInt32 × G × Bytes)

section Bridge
variable {G : Type}

abbrev BridgeM (G : Type) := EStateM BridgeExit (Store G)

def allocate (alloc : AllocFn G) (size : UInt32) : BridgeM G UInt32 := fun s =>
  match alloc size s.guest s.memory with
  | some (offset, guest, memory) =>
    .ok offset ⟨memory, guest, s.allocations ++ [⟨⟨offset.toNat, size.toNat⟩, s.memory, memory⟩]⟩
  | none => .error (.failed (.memoryAlloc size.toNat)) s

/-- `mem_data.get_mut(start..stop)`, with this error where there is no such range, and `copy_from_slice(data)`. -/
def putRange (e : BridgeError) (start stop : ℕ) (data : Bytes) : BridgeM G Unit := fun s =>
  match getSpan s.memory start stop with
  | some dest =>
    if dest.length = data.length then .ok () { s with memory := writeAt start data s.memory }
    else .error .lengthMismatch s
  | none => .error (.failed e) s

def copyToWasm (alloc : AllocFn G) (data : Bytes) : BridgeM G WasmPtr :=
  if data.isEmpty then return .null
  else do
    let size := UInt32.ofNat data.length
    let offset ← allocate alloc size
    putRange (.memoryAlloc size.toNat) offset.toNat (offset + size).toNat data
    return ⟨offset, size⟩

/-- `write_at`. The end is a sum of `usize`. -/
def writeBytesAt (offset : UInt32) (data : Bytes) : BridgeM G Unit :=
  putRange (.execution s!"Invalid WASM memory write: offset={offset.toNat}, size={data.length}")
    offset.toNat (offset.toNat + data.length) data

def copyFromWasm (memory : Bytes) (ptr : WasmPtr) : Except BridgeError Bytes :=
  if ptr.isNull then .ok []
  else
    match getSpan memory ptr.offset.toNat ptr.stop.toNat with
    | some src => .ok src
    | none =>
      .error (.execution s!"Invalid WASM memory access: offset={ptr.offset.toNat}, size={ptr.size.toNat}")

def readAt (memory : Bytes) (offset size : UInt32) : Except BridgeError Bytes :=
  copyFromWasm memory ⟨offset, size⟩

/-! ### What the functions of the bridge do -/

theorem putRange_ok {e : BridgeError} {start stop : ℕ} {data : Bytes} {s s' : Store G} :
    putRange e start stop data s = .ok () s' ↔
      start ≤ stop ∧ stop ≤ s.memory.length ∧ stop - start = data.length ∧
        s' = { s with memory := writeAt start data s.memory } := by
  unfold putRange
  cases hspan : getSpan s.memory start stop with
  | none =>
    have hout := getSpan_eq_none.mp hspan
    exact iff_of_false (fun h => by cases h) fun h => hout ⟨h.1, h.2.1⟩
  | some dest =>
    obtain ⟨hle, hstop, -⟩ := getSpan_eq_some.mp hspan
    dsimp only
    rw [getSpan_length hspan]
    split_ifs with hlength
    · constructor
      · intro h
        cases h
        exact ⟨hle, hstop, hlength, rfl⟩
      · rintro ⟨-, -, -, rfl⟩
        rfl
    · exact iff_of_false (fun h => by cases h) fun h => hlength h.2.2.1

theorem allocate_ok {alloc : AllocFn G} {size offset : UInt32} {s s' : Store G}
    (h : allocate alloc size s = .ok offset s') :
    s'.allocations = s.allocations ++ [⟨⟨offset.toNat, size.toNat⟩, s.memory, s'.memory⟩] := by
  unfold allocate at h
  cases hcall : alloc size s.guest s.memory with
  | none =>
    rw [hcall] at h
    cases h
  | some answer =>
    rw [hcall] at h
    cases h
    rfl

theorem copyToWasm_ok {alloc : AllocFn G} {data : Bytes} {ptr : WasmPtr} {s s' : Store G}
    (h : copyToWasm alloc data s = .ok ptr s') :
    (data = [] ∧ ptr = .null ∧ s' = s) ∨
      (data ≠ [] ∧ ptr.size.toNat = data.length ∧ ptr.offset.toNat + data.length < 2 ^ 32 ∧
        ∃ memory, ptr.offset.toNat + data.length ≤ memory.length ∧
          s'.memory = writeAt ptr.offset.toNat data memory ∧
          s'.allocations = s.allocations ++ [⟨⟨ptr.offset.toNat, data.length⟩, s.memory, memory⟩]) := by
  unfold copyToWasm at h
  split_ifs at h with hempty
  · cases h
    exact .inl ⟨List.isEmpty_iff.mp hempty, rfl, rfl⟩
  · dsimp only at h
    obtain ⟨offset, s₁, halloc, hrest⟩ := bind_eq_ok.mp h
    obtain ⟨u, s₂, hput, hreturn⟩ := bind_eq_ok.mp hrest
    obtain ⟨hle, hstop, hlength, rfl⟩ := putRange_ok.mp hput
    cases hreturn
    have hsum := toNat_add_32 hle
    have hfits := le_add_iff_32.mp hle
    rw [hsum, Nat.add_sub_cancel_left] at hlength
    have hallocations := allocate_ok halloc
    rw [hlength] at hsum hfits hallocations
    refine .inr ⟨fun hnil => hempty (List.isEmpty_iff.mpr hnil), hlength, hfits, s₁.memory, ?_, rfl, hallocations⟩
    exact hsum.ge.trans hstop

end Bridge

end Xerv.Wasm
