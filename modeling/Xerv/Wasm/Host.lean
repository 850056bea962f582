import Xerv.Core.Types
import Xerv.Arena.Access
import Xerv.Lib.Fallible
import Xerv.Lib.Spans
import Xerv.Lib.Utf8

/-!
# The host functions that take guest pointers (`xerv-executor/src/wasm/host.rs`)

The functions of the `xerv` namespace, in a build that does not check for overflow: sums of `u32` are
taken modulo `2 ^ 32`. A guest range is taken by `get` or `get_mut` of its start and its end; what is
taken is recorded. All of them keep to the ranges that the guest passed and to its memory, save that
`__xerv_read_bytes` panics inside the arena where the offset and the size wrap around.
-/

namespace Xerv.Wasm
open Xerv.Lib Xerv.Arena

/-- Log level for `__xerv_log`. -/
inductive LogLevel where
  | trace
  | debug
  | info
  | warn
  | error
  deriving DecidableEq, Repr

/-- `LogLevel::from`. -/
def LogLevel.ofWord (val : UInt32) : LogLevel :=
  if val = 0 then .trace
  else if val = 1 then .debug
  else if val = 2 then .info
  else if val = 3 then .warn
  else .error

structure LogRecord where
  level : LogLevel
  traceId : TraceId
  nodeId : NodeId
  msg : String

/-- What the host functions change and log. -/
structure HostState where
  traceId : TraceId
  nodeId : NodeId
  arena : ArenaInner
  resultPort : Option String
  resultPtr : Option RelPtr
  errorMessage : Option String
  logged : List LogRecord

/-- The answers of the providers, and whether the `msync` of a write fails. -/
structure Providers where
  newV4 : Bytes
  newV4_length : newV4.length = 16
  var : String → Option String
  secret : String → Option String
  flushFails : Bool

/-- A slice of guest memory that a host function takes. -/
inductive Access where
  | read (range : Span)
  | write (range : Span)
  deriving DecidableEq, Repr

/-- The calling instance: its memory, where it exports one, and what was taken of it so far. -/
structure Caller where
  memory : Option Bytes
  host : HostState
  accesses : List Access

inductive Refusal where
  | noMemory
  | invalidRange
  | notUtf8
  | notFound
  | arenaFailed
  deriving DecidableEq, Repr

/-- How a host function ends early: it returns -1, or it panics. -/
inductive Exit where
  | refused (cause : Refusal)
  | panic (cause : Panic)
  | lengthMismatch
  deriving DecidableEq, Repr

abbrev HostM := EStateM Exit Caller

/-- The contents of the memory; none where there is no memory. -/
def Caller.data (c : Caller) : Bytes := c.memory.getD []

/-! ### What the functions are made of -/

/-- `caller.get_export("memory")`. -/
def getMemory : HostM Unit := fun c =>
  match c.memory with
  | some _ => .ok () c
  | none => .error (.refused .noMemory) c

/-- `mem_data.get(start..stop)`. -/
def readRange (start stop : ℕ) : HostM Bytes := fun c =>
  match getSpan c.data start stop with
  | some bytes => .ok bytes { c with accesses := c.accesses ++ [.read ⟨start, stop - start⟩] }
  | none => .error (.refused .invalidRange) c

/-- `mem_data.get_mut(start..stop)` and `copy_from_slice(bytes)`. -/
def writeRange (start stop : ℕ) (bytes : Bytes) : HostM Unit := fun c =>
  match getSpan c.data start stop with
  | some out =>
    if out.length = bytes.length then
      .ok () { c with
        memory := c.memory.map (writeAt start bytes)
        accesses := c.accesses ++ [.write ⟨start, stop - start⟩] }
    else .error .lengthMismatch c
  | none => .error (.refused .invalidRange) c

/-- `std::str::from_utf8(slice)`. -/
def fromUtf8 (bytes : Bytes) : HostM String := fun c =>
  match String.fromUTF8? bytes.toByteArray with
  | some s => .ok s c
  | none => .error (.refused .notUtf8) c

def lookup (provider : String → Option String) (key : String) : HostM String := fun c =>
  match provider key with
  | some value => .ok value c
  | none => .error (.refused .notFound) c

/-- `state.reader.read_bytes(offset, size)`. -/
def readArena (offset : ArenaOffset) (size : UInt32) : HostM Bytes := fun c =>
  match ArenaReader.readBytes false c.host.arena offset size.toUInt64 with
  | .ok (.ok bytes) => .ok bytes c
  | .ok (.error _) => .error (.refused .arenaFailed) c
  | .error p => .error (.panic p) c

/-- `state.writer.write_bytes(&bytes)`. -/
def writeArena (bytes : Bytes) (flushFails : Bool) : HostM RelPtr := fun c =>
  match ArenaWriter.writeBytes false c.host.arena bytes flushFails with
  | .ok (a, .ok ptr) => .ok ptr { c with host := { c.host with arena := a } }
  | .ok (a, .error _) => .error (.refused .arenaFailed) { c with host := { c.host with arena := a } }
  | .error p => .error (.panic p) c

def changeHost (f : HostState → HostState) : HostM Unit := modify fun c => { c with host := f c.host }

section Equations
variable {c : Caller} {memory : Bytes} {start stop : ℕ} {bytes : Bytes}

theorem Caller.data_eq (h : c.memory = some memory) : c.data = memory := by
  unfold data
  rw [h]
  rfl

theorem getMemory_some (h : c.memory = some memory) : getMemory c = .ok () c := by
  unfold getMemory
  rw [h]

theorem getMemory_none (h : c.memory = none) : getMemory c = .error (.refused .noMemory) c := by
  unfold getMemory
  rw [h]

theorem readRange_some (h : getSpan c.data start stop = some bytes) :
    readRange start stop c = .ok bytes { c with accesses := c.accesses ++ [.read ⟨start, stop - start⟩] } := by
  unfold readRange
  rw [h]

theorem readRange_none (h : getSpan c.data start stop = none) :
    readRange start stop c = .error (.refused .invalidRange) c := by
  unfold readRange
  rw [h]

theorem writeRange_some {out : Bytes} (hmemory : c.memory = some memory) (h : getSpan memory start stop = some out)
    (hlength : stop - start = bytes.length) :
    writeRange start stop bytes c = .ok () { c with
      memory := some (writeAt start bytes memory)
      accesses := c.accesses ++ [.write ⟨start, stop - start⟩] } := by
  unfold writeRange
  rw [Caller.data_eq hmemory, h]
  dsimp only
  rw [if_pos ((getSpan_length h).trans hlength), hmemory]
  rfl

theorem writeRange_none (h : getSpan c.data start stop = none) :
    writeRange start stop bytes c = .error (.refused .invalidRange) c := by
  unfold writeRange
  rw [h]

theorem fromUtf8_some {text : String} (h : String.fromUTF8? bytes.toByteArray = some text) :
    fromUtf8 bytes c = .ok text c := by
  unfold fromUtf8
  rw [h]

theorem fromUtf8_none (h : String.fromUTF8? bytes.toByteArray = none) :
    fromUtf8 bytes c = .error (.refused .notUtf8) c := by
  unfold fromUtf8
  rw [h]

theorem lookup_some {provider : String → Option String} {key value : String} (h : provider key = some value) :
    lookup provider key c = .ok value c := by
  unfold lookup
  rw [h]

theorem lookup_none {provider : String → Option String} {key : String} (h : provider key = none) :
    lookup provider key c = .error (.refused .notFound) c := by
  unfold lookup
  rw [h]

end Equations

/-! ### The functions -/

def xervReadBytes (offsetLo offsetHi dest size : UInt32) : HostM Int32 := do
  let offset := decodeArenaOffset offsetLo offsetHi
  let bytes ← readArena offset size
  getMemory
  writeRange dest.toNat (dest + size).toNat bytes
  return 0

def xervWriteBytes (env : Providers) (src size outLo outHi : UInt32) : HostM Int32 := do
  getMemory
  let bytes ← readRange src.toNat (src + size).toNat
  let ptr ← writeArena bytes env.flushFails
  let (lo, hi) := encodeArenaOffset ptr.offset
  writeRange outLo.toNat (outLo + 4).toNat (leBytes 4 lo.toNat)
  writeRange outHi.toNat (outHi + 4).toNat (leBytes 4 hi.toNat)
  return ptr.size.toInt32

def xervUuidNewV4 (env : Providers) (dest : UInt32) : HostM Int32 := do
  getMemory
  writeRange dest.toNat (dest + 16).toNat env.newV4
  return 0

/-- The body of `__xerv_env_get` and `__xerv_secret_get`. The end of the value's range is a sum of `usize`. -/
def getText (provider : String → Option String) (keyPtr keyLen valPtr valCap : UInt32) : HostM Int32 := do
  getMemory
  let keySlice ← readRange keyPtr.toNat (keyPtr + keyLen).toNat
  let key ← fromUtf8 keySlice
  let value ← lookup provider key
  let len := min (utf8 value).length valCap.toNat
  writeRange valPtr.toNat (valPtr.toNat + len) ((utf8 value).take len)
  return .ofNat len

def xervEnvGet (env : Providers) (keyPtr keyLen valPtr valCap : UInt32) : HostM Int32 :=
  getText env.var keyPtr keyLen valPtr valCap

def xervSecretGet (env : Providers) (keyPtr keyLen valPtr valCap : UInt32) : HostM Int32 :=
  getText env.secret keyPtr keyLen valPtr valCap

def xervSetResult (env : Providers) (portPtr portLen dataPtr dataSize : UInt32) : HostM Int32 := do
  getMemory
  let portSlice ← readRange portPtr.toNat (portPtr + portLen).toNat
  let port ← fromUtf8 portSlice
  let data ← readRange dataPtr.toNat (dataPtr + dataSize).toNat
  let ptr ← writeArena data env.flushFails
  changeHost fun h => { h with resultPort := some port, resultPtr := some ptr }
  return 0

def xervSetError (msgPtr msgLen : UInt32) : HostM Int32 := do
  getMemory
  let msgSlice ← readRange msgPtr.toNat (msgPtr + msgLen).toNat
  let msg ← fromUtf8 msgSlice
  changeHost fun h => { h with errorMessage := some msg }
  return 0

def xervLog (level msgPtr msgLen : UInt32) : HostM Int32 := do
  getMemory
  let msgSlice ← readRange msgPtr.toNat (msgPtr + msgLen).toNat
  let msg ← fromUtf8 msgSlice
  changeHost fun h => { h with logged := h.logged ++ [⟨.ofWord level, h.traceId, h.nodeId, msg⟩] }
  return 0

/-- A call of a host function that takes guest pointers. -/
inductive HostCall where
  | readBytes (offsetLo offsetHi dest size : UInt32)
  | writeBytes (src size outLo outHi : UInt32)
  | uuidNewV4 (dest : UInt32)
  | envGet (keyPtr keyLen valPtr valCap : UInt32)
  | secretGet (keyPtr keyLen valPtr valCap : UInt32)
  | setResult (portPtr portLen dataPtr dataSize : UInt32)
  | setError (msgPtr msgLen : UInt32)
  | log (level msgPtr msgLen : UInt32)

namespace HostCall

def run (env : Providers) : HostCall → HostM Int32
  | readBytes offsetLo offsetHi dest size => xervReadBytes offsetLo offsetHi dest size
  | writeBytes src size outLo outHi => xervWriteBytes env src size outLo outHi
  | uuidNewV4 dest => xervUuidNewV4 env dest
  | envGet keyPtr keyLen valPtr valCap => xervEnvGet env keyPtr keyLen valPtr valCap
  | secretGet keyPtr keyLen valPtr valCap => xervSecretGet env keyPtr keyLen valPtr valCap
  | setResult portPtr portLen dataPtr dataSize => xervSetResult env portPtr portLen dataPtr dataSize
  | setError msgPtr msgLen => xervSetError msgPtr msgLen
  | log level msgPtr msgLen => xervLog level msgPtr msgLen

/-- The ranges that the call reads. -/
def sources : HostCall → List Span
  | writeBytes src size _ _ => [⟨src.toNat, size.toNat⟩]
  | envGet keyPtr keyLen _ _ => [⟨keyPtr.toNat, keyLen.toNat⟩]
  | secretGet keyPtr keyLen _ _ => [⟨keyPtr.toNat, keyLen.toNat⟩]
  | setResult portPtr portLen dataPtr dataSize =>
    [⟨portPtr.toNat, portLen.toNat⟩, ⟨dataPtr.toNat, dataSize.toNat⟩]
  | setError msgPtr msgLen => [⟨msgPtr.toNat, msgLen.toNat⟩]
  | log _ msgPtr msgLen => [⟨msgPtr.toNat, msgLen.toNat⟩]
  | _ => []

/-- The ranges that the call writes. -/
def destinations : HostCall → List Span
  | readBytes _ _ dest size => [⟨dest.toNat, size.toNat⟩]
  | writeBytes _ _ outLo outHi => [⟨outLo.toNat, 4⟩, ⟨outHi.toNat, 4⟩]
  | uuidNewV4 dest => [⟨dest.toNat, 16⟩]
  | envGet _ _ valPtr valCap => [⟨valPtr.toNat, valCap.toNat⟩]
  | secretGet _ _ valPtr valCap => [⟨valPtr.toNat, valCap.toNat⟩]
  | _ => []

end HostCall

/-! ### Confinement -/

/-- A range that the guest passed, or a part of it, and inside the memory. -/
def Access.Allowed (call : HostCall) (size : ℕ) : Access → Prop
  | read r => r ∈ call.sources ∧ r.Inside size
  | write r => (∃ t ∈ call.destinations, r.Within t) ∧ r.Inside size

/-- What a call may do on the way from `c` to `c'`. -/
structure Confines (call : HostCall) (c c' : Caller) : Prop where
  exported : c'.memory.isSome = c.memory.isSome
  unchanged : AgreeOutside call.destinations c.data c'.data
  accesses : ∃ more, c'.accesses = c.accesses ++ more ∧ ∀ a ∈ more, a.Allowed call c.data.length

/-- The call panics nowhere, whether it returns a value or -1, takes no slice but what the guest passed
and what lies inside the memory, and changes nothing outside its destinations. -/
def Confined (env : Providers) (call : HostCall) (c : Caller) : Prop :=
  Meets (call.run env) c (fun _ c' => Confines call c c') fun e c' => Confines call c c' ∧ ∃ r, e = .refused r

/-- What the parts of a call keep. -/
structure Keeping (call : HostCall) (c c' : Caller) : Prop where
  confines : Confines call c c'
  sound : c'.host.arena.Sound

def isRefused (e : Exit) : Prop := ∃ r, e = .refused r

theorem Keeping.refl (call : HostCall) {c : Caller} (h : c.host.arena.Sound) : Keeping call c c :=
  ⟨⟨rfl, .refl _ _, [], (List.append_nil _).symm, fun _ ha => absurd ha List.not_mem_nil⟩, h⟩

theorem Keeping.touch {call : HostCall} {c c' : Caller} (h : Keeping call c c') {memory : Option Bytes}
    {a : Access} (hexported : memory.isSome = c'.memory.isSome)
    (hunchanged : AgreeOutside call.destinations c'.data (memory.getD [])) (ha : a.Allowed call c'.data.length) :
    Keeping call c { c' with memory := memory, accesses := c'.accesses ++ [a] } := by
  obtain ⟨⟨hexp, hsame, more, hmore, hallowed⟩, hsound⟩ := h
  refine ⟨⟨hexported.trans hexp, hsame.trans hunchanged, more ++ [a], ?_, ?_⟩, hsound⟩
  · show c'.accesses ++ [a] = c.accesses ++ (more ++ [a])
    rw [hmore, List.append_assoc]
  · intro b hb
    rcases List.mem_append.mp hb with hold | hlast
    · exact hallowed b hold
    · rw [List.mem_singleton.mp hlast, ← hsame.length]
      exact ha

theorem Keeping.changeHost {call : HostCall} {c c' : Caller} (h : Keeping call c c') {host : HostState}
    (hsound : host.arena.Sound) : Keeping call c { c' with host := host } :=
  ⟨⟨h.confines.exported, h.confines.unchanged, h.confines.accesses⟩, hsound⟩

section Parts
variable {call : HostCall} {c : Caller}

theorem preserves_getMemory : Preserves (Keeping call c) isRefused getMemory fun _ => True := by
  intro s hs
  unfold Meets getMemory
  cases s.memory with
  | some data => exact ⟨hs, trivial⟩
  | none => exact ⟨hs, .noMemory, rfl⟩

theorem preserves_readRange {ptr len : UInt32} (hsource : Span.mk ptr.toNat len.toNat ∈ call.sources) :
    Preserves (Keeping call c) isRefused (readRange ptr.toNat (ptr + len).toNat)
      fun bytes => bytes.length = len.toNat := by
  intro s hs
  unfold Meets readRange
  cases hspan : getSpan s.data ptr.toNat (ptr + len).toNat with
  | none => exact ⟨hs, .invalidRange, rfl⟩
  | some bytes =>
    have hlength := getSpan_length hspan
    obtain ⟨hle, hstop, -⟩ := getSpan_eq_some.mp hspan
    have hsum := toNat_add_32 hle
    rw [hsum, Nat.add_sub_cancel_left] at hlength
    rw [hsum, Nat.add_sub_cancel_left]
    exact ⟨hs.touch rfl (.refl _ _) ⟨hsource, hsum.ge.trans hstop⟩, hlength⟩

theorem preserves_writeRange {start stop : ℕ} {bytes : Bytes} {t : Span} (ht : t ∈ call.destinations)
    (hrange : start ≤ stop → stop - start = bytes.length ∧ (Span.mk start bytes.length).Within t) :
    Preserves (Keeping call c) isRefused (writeRange start stop bytes) fun _ => True := by
  intro s hs
  unfold Meets writeRange
  cases hspan : getSpan s.data start stop with
  | none => exact ⟨hs, .invalidRange, rfl⟩
  | some out =>
    have hlength := getSpan_length hspan
    obtain ⟨hle, hstop, -⟩ := getSpan_eq_some.mp hspan
    obtain ⟨hsize, hwithin⟩ := hrange hle
    have hlen : start + bytes.length ≤ s.data.length := by omega
    have hdata : (s.memory.map (writeAt start bytes)).getD [] = writeAt start bytes s.data ∨ s.memory = none := by
      cases hmem : s.memory with
      | none => exact .inr rfl
      | some data =>
        refine .inl ?_
        unfold Caller.data
        rw [hmem]
        rfl
    dsimp only
    rw [if_pos (hlength.trans hsize), hsize]
    refine ⟨hs.touch Option.isSome_map ?_ ⟨⟨t, ht, hwithin⟩, hlen⟩, trivial⟩
    rcases hdata with hdata | hnone
    · rw [hdata]
      exact .writeAt ht hwithin hlen
    · unfold Caller.data
      rw [hnone]
      exact .refl _ _

theorem preserves_fromUtf8 (bytes : Bytes) :
    Preserves (Keeping call c) isRefused (fromUtf8 bytes) fun _ => True := by
  intro s hs
  unfold Meets fromUtf8
  cases String.fromUTF8? bytes.toByteArray with
  | some text => exact ⟨hs, trivial⟩
  | none => exact ⟨hs, .notUtf8, rfl⟩

theorem preserves_lookup (provider : String → Option String) (key : String) :
    Preserves (Keeping call c) isRefused (lookup provider key) fun _ => True := by
  intro s hs
  unfold Meets lookup
  cases provider key with
  | some text => exact ⟨hs, trivial⟩
  | none => exact ⟨hs, .notFound, rfl⟩

theorem preserves_writeArena {bytes : Bytes} (hbytes : bytes.length < 2 ^ 32) (flushFails : Bool) :
    Preserves (Keeping call c) isRefused (writeArena bytes flushFails) fun _ => True := by
  intro s hs
  have hsound := hs.sound.writeBytes bytes flushFails
  unfold Meets writeArena ArenaWriter.writeBytes
  rw [writeWords_ok false hs.sound (by omega)]
  rcases heq : s.host.arena.writeBytes bytes flushFails with ⟨a, e | ptr⟩ <;> rw [heq] at hsound
  · exact ⟨hs.changeHost hsound, .arenaFailed, rfl⟩
  · exact ⟨hs.changeHost hsound, trivial⟩

theorem preserves_changeHost {f : HostState → HostState} (hf : ∀ h, (f h).arena = h.arena) :
    Preserves (Keeping call c) isRefused (changeHost f) fun _ => True :=
  fun s hs => ⟨hs.changeHost ((hf s.host).symm ▸ hs.sound), trivial⟩

end Parts

namespace HostCall
variable (env : Providers) {c : Caller}

theorem guest_range {ptr len : UInt32} {n : ℕ} (hn : n = len.toNat) (h : ptr.toNat ≤ (ptr + len).toNat) :
    (ptr + len).toNat - ptr.toNat = n ∧ (Span.mk ptr.toNat n).Within ⟨ptr.toNat, len.toNat⟩ := by
  rw [toNat_add_32 h, Nat.add_sub_cancel_left, hn]
  exact ⟨rfl, .refl _⟩

theorem preserves_writeBytes (src size outLo outHi : UInt32) :
    Preserves (Keeping (writeBytes src size outLo outHi) c) isRefused (xervWriteBytes env src size outLo outHi)
      fun _ => True := by
  unfold xervWriteBytes
  refine preserves_getMemory.bind fun _ _ => (preserves_readRange List.mem_cons_self).bind fun bytes hbytes => ?_
  refine (preserves_writeArena (hbytes ▸ size.toNat_lt) _).bind fun ptr _ => ?_
  refine (preserves_writeRange List.mem_cons_self fun h => guest_range (leBytes_length 4 _) h).bind fun _ _ => ?_
  refine (preserves_writeRange (List.mem_cons_of_mem _ List.mem_cons_self) fun h =>
    guest_range (leBytes_length 4 _) h).bind fun _ _ => ?_
  exact .pure trivial

theorem preserves_uuidNewV4 (dest : UInt32) :
    Preserves (Keeping (uuidNewV4 dest) c) isRefused (xervUuidNewV4 env dest) fun _ => True := by
  unfold xervUuidNewV4
  refine preserves_getMemory.bind fun _ _ => ?_
  refine (preserves_writeRange List.mem_cons_self fun h => guest_range env.newV4_length h).bind fun _ _ => ?_
  exact .pure trivial

theorem preserves_getText {call : HostCall} (provider : String → Option String)
    {keyPtr keyLen valPtr valCap : UInt32} (hkey : Span.mk keyPtr.toNat keyLen.toNat ∈ call.sources)
    (hval : Span.mk valPtr.toNat valCap.toNat ∈ call.destinations) :
    Preserves (Keeping call c) isRefused (getText provider keyPtr keyLen valPtr valCap) fun _ => True := by
  unfold getText
  refine preserves_getMemory.bind fun _ _ => (preserves_readRange hkey).bind fun bytes _ => ?_
  refine (preserves_fromUtf8 bytes).bind fun key _ => (preserves_lookup provider key).bind fun value _ => ?_
  refine (preserves_writeRange hval fun _ => ?_).bind fun _ _ => .pure trivial
  have hlength : ((utf8 value).take (min (utf8 value).length valCap.toNat)).length =
      min (utf8 value).length valCap.toNat := by
    rw [List.length_take]
    omega
  rw [hlength, Nat.add_sub_cancel_left]
  exact ⟨rfl, Nat.le_refl _, Nat.add_le_add_left (Nat.min_le_right _ _) _⟩

theorem preserves_setResult (portPtr portLen dataPtr dataSize : UInt32) :
    Preserves (Keeping (setResult portPtr portLen dataPtr dataSize) c) isRefused
      (xervSetResult env portPtr portLen dataPtr dataSize) fun _ => True := by
  unfold xervSetResult
  refine preserves_getMemory.bind fun _ _ => (preserves_readRange List.mem_cons_self).bind fun bytes _ => ?_
  refine (preserves_fromUtf8 bytes).bind fun port _ => ?_
  refine (preserves_readRange (List.mem_cons_of_mem _ List.mem_cons_self)).bind fun data hdata => ?_
  refine (preserves_writeArena (hdata ▸ dataSize.toNat_lt) _).bind fun ptr _ => ?_
  refine (preserves_changeHost ?_).bind fun _ _ => .pure trivial
  exact fun _ => rfl

theorem preserves_setError (msgPtr msgLen : UInt32) :
    Preserves (Keeping (setError msgPtr msgLen) c) isRefused (xervSetError msgPtr msgLen) fun _ => True := by
  unfold xervSetError
  refine preserves_getMemory.bind fun _ _ => (preserves_readRange List.mem_cons_self).bind fun bytes _ => ?_
  refine (preserves_fromUtf8 bytes).bind fun msg _ => ?_
  refine (preserves_changeHost ?_).bind fun _ _ => .pure trivial
  exact fun _ => rfl

theorem preserves_log (level msgPtr msgLen : UInt32) :
    Preserves (Keeping (log level msgPtr msgLen) c) isRefused (xervLog level msgPtr msgLen) fun _ => True := by
  unfold xervLog
  refine preserves_getMemory.bind fun _ _ => (preserves_readRange List.mem_cons_self).bind fun bytes _ => ?_
  refine (preserves_fromUtf8 bytes).bind fun msg _ => ?_
  refine (preserves_changeHost ?_).bind fun _ _ => .pure trivial
  exact fun _ => rfl

/-- A read whose end passes the largest word and comes to lie in front of the position again. -/
def wrapsAround (a : ArenaInner) : HostCall → Bool
  | readBytes offsetLo offsetHi _ size =>
    let stop := (decodeArenaOffset offsetLo offsetHi).toNat + size.toNat
    2 ^ 64 ≤ stop && stop - 2 ^ 64 ≤ a.writePos
  | _ => false

end HostCall

theorem readArena_cases {c : Caller} (hc : c.host.arena.Sound) (offsetLo offsetHi dest size : UInt32) :
    let call := HostCall.readBytes offsetLo offsetHi dest size
    let offset := decodeArenaOffset offsetLo offsetHi
    (call.wrapsAround c.host.arena = true ∧ ∃ p, readArena offset size c = .error (.panic p) c) ∨
      (call.wrapsAround c.host.arena = false ∧
        (readArena offset size c = .error (.refused .arenaFailed) c ∨
          ∃ bytes, bytes.length = size.toNat ∧ readArena offset size c = .ok bytes c)) := by
  intro call offset
  have hsize := UInt32.toNat_toUInt64 size
  have hinside := hc.inside
  unfold call HostCall.wrapsAround readArena ArenaReader.readBytes
  dsimp only
  by_cases hover : 2 ^ 64 ≤ offset.toNat + size.toNat
  · have hwords : 2 ^ 64 ≤ offset.toNat + size.toUInt64.toNat := by
      rw [hsize]
      exact hover
    obtain ⟨hpanics, hreturns⟩ := readWords_overflow false hc hwords
    rw [hsize] at hpanics hreturns
    rw [decide_eq_true hover, Bool.true_and]
    by_cases hwrap : offset.toNat + size.toNat - 2 ^ 64 ≤ c.host.arena.writePos
    · obtain ⟨p, hp⟩ := hpanics (.inr hwrap)
      rw [hp]
      exact .inl ⟨decide_eq_true hwrap, p, rfl⟩
    · obtain ⟨e, he⟩ := hreturns rfl (not_le.mp hwrap)
      rw [he]
      exact .inr ⟨decide_eq_false hwrap, .inl rfl⟩
  · rw [readWords_ok false hc (by rw [hsize]; exact not_le.mp hover), hsize, decide_eq_false hover]
    refine .inr ⟨rfl, ?_⟩
    unfold ArenaInner.readBytes
    dsimp only
    split_ifs with hbeyond
    · exact .inl rfl
    · exact .inr ⟨_, slice_length _ (by rw [hc.size]; omega), rfl⟩

theorem preserves_confined {env : Providers} {call : HostCall} {c : Caller} (hc : c.host.arena.Sound)
    (h : Preserves (Keeping call c) isRefused (call.run env) fun _ => True) : Confined env call c :=
  (h c (.refl call hc)).imp (fun _ _ hdone => hdone.1.confines) fun _ _ hstopped =>
    ⟨hstopped.1.confines, hstopped.2⟩

theorem confined_iff {env : Providers} {call : HostCall} {c : Caller} (hc : c.host.arena.Sound) :
    Confined env call c ↔ call.wrapsAround c.host.arena = false := by
  cases call with
  | readBytes offsetLo offsetHi dest size =>
    rcases readArena_cases hc offsetLo offsetHi dest size with ⟨hwraps, p, hp⟩ | ⟨hwraps, hread⟩
    · rw [hwraps]
      refine iff_of_false (fun h => ?_) Bool.noConfusion
      unfold Confined Meets HostCall.run xervReadBytes at h
      dsimp only at h
      rw [bind_run, hp] at h
      obtain ⟨-, r, hr⟩ := h
      cases hr
    · refine iff_of_true ?_ hwraps
      unfold Confined HostCall.run xervReadBytes
      rcases hread with hfailed | ⟨bytes, hbytes, hok⟩
      · unfold Meets
        dsimp only
        rw [bind_run, hfailed]
        exact ⟨(Keeping.refl _ hc).confines, .arenaFailed, rfl⟩
      · unfold Meets
        dsimp only
        rw [bind_run, hok]
        have hrest : Preserves (Keeping (.readBytes offsetLo offsetHi dest size) c) isRefused
            (getMemory >>= fun _ => writeRange dest.toNat (dest + size).toNat bytes >>= fun _ => pure (0 : Int32))
            fun _ => True := by
          refine preserves_getMemory.bind fun _ _ => ?_
          refine (preserves_writeRange List.mem_cons_self fun h =>
            HostCall.guest_range hbytes h).bind fun _ _ => .pure trivial
        exact (hrest c (.refl _ hc)).imp (fun _ _ hdone => hdone.1.confines) fun _ _ hstopped =>
          ⟨hstopped.1.confines, hstopped.2⟩
  | writeBytes src size outLo outHi =>
    exact iff_of_true (preserves_confined hc (HostCall.preserves_writeBytes env src size outLo outHi)) rfl
  | uuidNewV4 dest => exact iff_of_true (preserves_confined hc (HostCall.preserves_uuidNewV4 env dest)) rfl
  | envGet keyPtr keyLen valPtr valCap =>
    exact iff_of_true (preserves_confined hc
      (HostCall.preserves_getText env.var List.mem_cons_self List.mem_cons_self)) rfl
  | secretGet keyPtr keyLen valPtr valCap =>
    exact iff_of_true (preserves_confined hc
      (HostCall.preserves_getText env.secret List.mem_cons_self List.mem_cons_self)) rfl
  | setResult portPtr portLen dataPtr dataSize =>
    exact iff_of_true (preserves_confined hc
      (HostCall.preserves_setResult env portPtr portLen dataPtr dataSize)) rfl
  | setError msgPtr msgLen =>
    exact iff_of_true (preserves_confined hc (HostCall.preserves_setError msgPtr msgLen)) rfl
  | log level msgPtr msgLen =>
    exact iff_of_true (preserves_confined hc (HostCall.preserves_log level msgPtr msgLen)) rfl

/-- For every arena that `create` and writes lead to, every memory of a guest, all answers of the providers and
all arguments: a call is confined if and only if it is no read that wraps around. -/
theorem host_calls_confined_iff (traceId : TraceId) (capacity : ℕ) (sync : Bool) (now : UInt64) (a : ArenaInner)
    (hcreate : ArenaInner.create traceId capacity sync now = some a) (calls : List WriteCall) :
    ∃ x, Machine.run (writeStep false) ⟨a, []⟩ calls = some x ∧
      ∀ (env : Providers) (call : HostCall) (c : Caller), c.host.arena = x.arena →
        (Confined env call c ↔ call.wrapsAround x.arena = false) := by
  obtain ⟨x, hrun, hx⟩ := sound_run false (ArenaRun.packed_created hcreate).1.sound calls
  refine ⟨x, hrun, fun env call c harena => ?_⟩
  rw [← harena]
  exact confined_iff (harena ▸ hx)

def noAnswers : Providers := ⟨List.replicate 16 0, List.length_replicate, fun _ => none, fun _ => none, false⟩

def guestOf (a : ArenaInner) (memory : Bytes) : Caller :=
  ⟨some memory, ⟨sampleTrace, 0, a, none, none, none, []⟩, []⟩

/-- Eight bytes of the guest, asked for in front of a range that ends behind them. -/
theorem host_calls_confined_uuid :
    ∃ x, Machine.run (writeStep false) ⟨headerArena, []⟩ [] = some x ∧
      Confined noAnswers (.uuidNewV4 0xFFFFFFF8) (guestOf x.arena (List.replicate 8 1)) := by
  obtain ⟨x, hrun, hconfined⟩ :=
    host_calls_confined_iff sampleTrace 128 false 1700000000 headerArena headerArena_created []
  exact ⟨x, hrun, (hconfined noAnswers (.uuidNewV4 0xFFFFFFF8) (guestOf x.arena (List.replicate 8 1)) rfl).mpr rfl⟩

/-- One byte at the last offset there is: the end of the range wraps to zero, and the slice of the arena is out
of range. -/
theorem guest_read_not_confined :
    ArenaInner.create sampleTrace 128 false 1700000000 = some headerArena ∧
      ¬ Confined noAnswers (.readBytes 0xFFFFFFFF 0xFFFFFFFF 0 1) (guestOf headerArena [7]) := by
  have hsound := (ArenaInner.create_wellFormed headerArena_created).1.sound
  refine ⟨headerArena_created, fun h => ?_⟩
  have hfalse := (confined_iff hsound).mp h
  exact absurd hfalse (by decide)

theorem readBytes_length {c : Caller} (hc : c.host.arena.Sound) {offsetLo offsetHi size : UInt32} {bytes : Bytes}
    (h : ArenaReader.readBytes false c.host.arena (decodeArenaOffset offsetLo offsetHi) size.toUInt64 =
      .ok (.ok bytes)) : bytes.length = size.toNat := by
  have hread : readArena (decodeArenaOffset offsetLo offsetHi) size c = .ok bytes c := by
    unfold readArena
    rw [h]
  rcases readArena_cases hc offsetLo offsetHi 0 size with ⟨-, p, hp⟩ | ⟨-, hfailed | ⟨bytes', hlength, hok⟩⟩
  · cases hread.symm.trans hp
  · cases hread.symm.trans hfailed
  · cases hread.symm.trans hok
    exact hlength

/-- What the guest gets back: the value, -1 for whatever was refused, or nothing after a panic. -/
def returned : EStateM.Result Exit Caller Int32 → Option (Int32 × Option Bytes)
  | .ok code c => some (code, c.memory)
  | .error (.refused _) c => some (-1, c.memory)
  | .error _ _ => none

/-- The function as `Arena.Access` has it, with the arena and the memory only, returns the same. -/
theorem xervReadBytes_refines {c : Caller} (hc : c.host.arena.Sound) (offsetLo offsetHi dest size : UInt32) :
    returned (xervReadBytes offsetLo offsetHi dest size c) =
      (Arena.xervReadBytes false c.host.arena c.memory offsetLo offsetHi dest size).toOption := by
  have hunchecked : ¬ (false = true ∧ 2 ^ 32 ≤ dest.toNat + size.toNat) := fun h => Bool.noConfusion h.1
  rcases hread : ArenaReader.readBytes false c.host.arena (decodeArenaOffset offsetLo offsetHi) size.toUInt64
    with p | e | bytes
  · have hstep : readArena (decodeArenaOffset offsetLo offsetHi) size c = .error (.panic p) c := by
      unfold readArena
      rw [hread]
    have hcall : xervReadBytes offsetLo offsetHi dest size c = .error (.panic p) c := bind_error hstep
    rw [hcall, xervReadBytes_panics false hread]
    rfl
  · have hstep : readArena (decodeArenaOffset offsetLo offsetHi) size c = .error (.refused .arenaFailed) c := by
      unfold readArena
      rw [hread]
    have hcall : xervReadBytes offsetLo offsetHi dest size c = .error (.refused .arenaFailed) c := bind_error hstep
    have harena : Arena.xervReadBytes false c.host.arena c.memory offsetLo offsetHi dest size =
        .ok (-1, c.memory) := bind_of_ok hread rfl
    rw [hcall, harena]
    rfl
  · have hstep : readArena (decodeArenaOffset offsetLo offsetHi) size c = .ok bytes c := by
      unfold readArena
      rw [hread]
    cases hmem : c.memory with
    | none =>
      have hcall : xervReadBytes offsetLo offsetHi dest size c = .error (.refused .noMemory) c :=
        (bind_ok hstep).trans (bind_error (getMemory_none hmem))
      have harena : Arena.xervReadBytes false c.host.arena none offsetLo offsetHi dest size = .ok (-1, none) :=
        bind_of_ok hread rfl
      rw [hcall, harena]
      exact congrArg (fun m => some ((-1 : Int32), m)) hmem
    | some data =>
      have hmemory : xervReadBytes offsetLo offsetHi dest size c =
          (writeRange dest.toNat (dest + size).toNat bytes >>= fun _ => pure (0 : Int32)) c :=
        (bind_ok hstep).trans (bind_ok (getMemory_some hmem))
      have harena : Arena.xervReadBytes false c.host.arena (some data) offsetLo offsetHi dest size =
          if dest ≤ dest + size ∧ (dest + size).toNat ≤ data.length then
            .ok (0, some (writeAt dest.toNat bytes data)) else .ok (-1, some data) :=
        bind_of_ok hread (if_neg hunchecked)
      rw [hmemory, harena]
      by_cases hrange : dest ≤ dest + size ∧ (dest + size).toNat ≤ data.length
      · have hspan : getSpan data dest.toNat (dest + size).toNat =
            some (slice data dest.toNat ((dest + size).toNat - dest.toNat)) := if_pos hrange
        have hstop :=
          (HostCall.guest_range (readBytes_length hc hread) (UInt32.le_iff_toNat_le.mp hrange.1)).1
        rw [bind_ok (writeRange_some hmem hspan hstop), if_pos hrange]
        rfl
      · have hspan : getSpan c.data dest.toNat (dest + size).toNat = none := by
          rw [Caller.data_eq hmem]
          exact if_neg hrange
        rw [bind_error (writeRange_none hspan), if_neg hrange]
        exact congrArg (fun m => some ((-1 : Int32), m)) hmem

end Xerv.Wasm
