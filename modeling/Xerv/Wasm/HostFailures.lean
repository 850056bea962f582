import Xerv.Wasm.Host

/-!
# Host calls that fail

A call that returns -1 because of a range or of the arena should leave the memory of the guest, the arena and
the result as they were, and a call that succeeds should return no negative number. What a call
writes before the step that fails, and the lengths from `2 ^ 31` on, are when they do not.
-/

namespace Xerv.Wasm
open Xerv.Lib Xerv.Arena

theorem nonneg_ofNat_iff {n : ℕ} (h : n < 2 ^ 32) : 0 ≤ Int32.ofNat n ↔ n < 2 ^ 31 := by
  have hsize : Int32.size = 2 ^ 32 := rfl
  rw [Int32.le_iff_toInt_le, Int32.toInt_ofNat', Int32.toInt_zero, hsize]
  unfold Int.bmod
  have hmod : (n : ℤ) % ((2 ^ 32 : ℕ) : ℤ) = n := Int.emod_eq_of_lt (by omega) (by omega)
  rw [hmod]
  dsimp only
  split_ifs with hlt
  · exact iff_of_true (by omega) (by omega)
  · exact iff_of_false (by omega) (by omega)

theorem writeAt_eq_self_iff {pos : ℕ} {data buf : Bytes} (h : pos + data.length ≤ buf.length) :
    writeAt pos data buf = buf ↔ slice buf pos data.length = data := by
  constructor
  · intro heq
    have hself := slice_writeAt_self data.length pos data buf le_rfl (by omega)
    rwa [heq, List.take_length] at hself
  · intro hslice
    have hdrop : data ++ buf.drop (pos + data.length) = buf.drop pos := by
      have hsplit := List.take_append_drop data.length (buf.drop pos)
      rw [List.drop_drop] at hsplit
      unfold slice at hslice
      rwa [hslice] at hsplit
    unfold writeAt
    rw [hdrop, List.take_append_drop]

/-- Memory, arena and result are as before. -/
structure Unchanged (c c' : Caller) : Prop where
  memory : c'.memory = c.memory
  contents : c'.host.arena.mmap = c.host.arena.mmap
  position : c'.host.arena.writePos = c.host.arena.writePos
  resultPort : c'.host.resultPort = c.host.resultPort
  resultPtr : c'.host.resultPtr = c.host.resultPtr

def Refusal.isAccess : Refusal → Bool
  | invalidRange | arenaFailed => true
  | _ => false

/-- The rest of a call, at `c'`: it is refused for a range or by the arena with all as it was in `c`, and it
succeeds with no negative number. -/
def EndsCleanly (c : Caller) (x : HostM Int32) (c' : Caller) : Prop :=
  Meets x c' (fun code _ => 0 ≤ code) fun e c'' => ∀ r, e = .refused r → r.isAccess → Unchanged c c''

def FailsCleanly (env : Providers) (call : HostCall) (c : Caller) : Prop := EndsCleanly c (call.run env) c

def Fits (a : ArenaInner) (bytes : Bytes) : Prop := a.writePos + alignedSize bytes.length ≤ a.capacity

/-- The write is in place when its `msync` fails. -/
def flushFailing (env : Providers) (a : ArenaInner) : Bool := a.syncOnWrite && env.flushFails

namespace HostCall

/-- Where the offset of written bytes goes: nothing but no bytes may have been written when one of the
places is missing, and at the first place the low word must stand already when only the second is. -/
def outsClean (memory : Bytes) (a : ArenaInner) (size outLo outHi : UInt32) : Prop :=
  match getSpan memory outLo.toNat (outLo + 4).toNat, getSpan memory outHi.toNat (outHi + 4).toNat with
  | none, _ => size = 0
  | some old, none => size = 0 ∧ old = leBytes 4 (encodeArenaOffset (.ofNat a.writePos)).1.toNat
  | some _, some _ => size.toNat < 2 ^ 31

/-- A write that fits is flushed, or has no bytes, and its offset finds its places. -/
def writeClean (env : Providers) (c : Caller) (src size outLo outHi : UInt32) : Prop :=
  ∀ memory ∈ c.memory, ∀ bytes ∈ getSpan memory src.toNat (src + size).toNat, Fits c.host.arena bytes →
    if flushFailing env c.host.arena then size = 0 else outsClean memory c.host.arena size outLo outHi

/-- The value that the guest asks for, as much of it as the guest has room for, is shorter than `2 ^ 31`. -/
def textClean (provider : String → Option String) (c : Caller) (keyPtr keyLen valPtr valCap : UInt32) : Prop :=
  ∀ memory ∈ c.memory, ∀ keySlice ∈ getSpan memory keyPtr.toNat (keyPtr + keyLen).toNat,
    ∀ key ∈ String.fromUTF8? keySlice.toByteArray, ∀ value ∈ provider key,
      let len := min (utf8 value).length valCap.toNat
      (Span.mk valPtr.toNat len).Inside memory.length → len < 2 ^ 31

/-- A result that fits is flushed, or has no bytes. -/
def resultClean (env : Providers) (c : Caller) (portPtr portLen dataPtr dataSize : UInt32) : Prop :=
  ∀ memory ∈ c.memory, ∀ portSlice ∈ getSpan memory portPtr.toNat (portPtr + portLen).toNat,
    ∀ _port ∈ String.fromUTF8? portSlice.toByteArray,
      ∀ data ∈ getSpan memory dataPtr.toNat (dataPtr + dataSize).toNat,
        Fits c.host.arena data → flushFailing env c.host.arena → dataSize = 0

/-- When a call fails cleanly, by what it is given. -/
def CleanWhen (env : Providers) (c : Caller) : HostCall → Prop
  | writeBytes src size outLo outHi => writeClean env c src size outLo outHi
  | envGet keyPtr keyLen valPtr valCap => textClean env.var c keyPtr keyLen valPtr valCap
  | secretGet keyPtr keyLen valPtr valCap => textClean env.secret c keyPtr keyLen valPtr valCap
  | setResult portPtr portLen dataPtr dataSize => resultClean env c portPtr portLen dataPtr dataSize
  | _ => True

end HostCall

/-! ### What remains of a write -/

section Arena
variable {c : Caller} {bytes : Bytes}

def Caller.written (c : Caller) (bytes : Bytes) : Caller :=
  { c with host := { c.host with arena := { c.host.arena with
      mmap := writeAt c.host.arena.writePos (withPadding bytes) c.host.arena.mmap
      writePos := c.host.arena.writePos + alignedSize bytes.length } } }

theorem writeArena_full (flushFails : Bool) (hc : c.host.arena.Sound) (hbytes : bytes.length < 2 ^ 32)
    (hfull : ¬ Fits c.host.arena bytes) :
    writeArena bytes flushFails c = .error (.refused .arenaFailed) c := by
  unfold writeArena ArenaWriter.writeBytes
  rw [writeWords_ok false hc (by omega)]
  unfold Fits at hfull
  rcases ArenaInner.writeBytes_cases c.host.arena bytes flushFails with ⟨-, heq⟩ | ⟨hfits, -⟩
  · rw [heq]
  · exact absurd hfits hfull

theorem writeArena_fits (flushFails : Bool) (hc : c.host.arena.Sound) (hbytes : bytes.length < 2 ^ 32)
    (hfits : Fits c.host.arena bytes) :
    writeArena bytes flushFails c =
      if c.host.arena.syncOnWrite && flushFails then .error (.refused .arenaFailed) (c.written bytes)
      else .ok ⟨.ofNat c.host.arena.writePos, .ofNat bytes.length⟩ (c.written bytes) := by
  unfold writeArena ArenaWriter.writeBytes
  rw [writeWords_ok false hc (by omega)]
  unfold Fits at hfits
  rcases ArenaInner.writeBytes_cases c.host.arena bytes flushFails with ⟨hfull, -⟩ | ⟨-, heq⟩
  · omega
  · rw [heq]
    split_ifs
    · rfl
    · rfl

theorem unchanged_written_iff {c' : Caller} (hsame : Unchanged c c') :
    Unchanged c (c'.written bytes) ↔ bytes.length = 0 := by
  constructor
  · intro h
    have hposition : c'.host.arena.writePos + alignedSize bytes.length = c'.host.arena.writePos :=
      h.position.trans hsame.position.symm
    have hle := ArenaInner.le_alignedSize bytes.length
    omega
  · intro h
    rw [List.length_eq_zero_iff] at h
    subst h
    have hmmap : writeAt c'.host.arena.writePos (withPadding []) c'.host.arena.mmap = c'.host.arena.mmap :=
      List.take_append_drop _ _
    exact ⟨hsame.memory, hmmap.trans hsame.contents, hsame.position, hsame.resultPort, hsame.resultPtr⟩

end Arena

/-! ### The calls one by one -/

theorem forall_mem_some_iff {α : Type} {a : α} {P : α → Prop} : (∀ b ∈ some a, P b) ↔ P a :=
  ⟨fun h => h a rfl, fun h _ hb => Option.some.inj hb ▸ h⟩

theorem forall_mem_none {α : Type} {P : α → Prop} : ∀ b ∈ (none : Option α), P b :=
  fun _ hb => absurd hb (Option.not_mem_none _)

theorem Unchanged.of_eq {c c' : Caller} (hmemory : c'.memory = c.memory) (hhost : c'.host = c.host) :
    Unchanged c c' := by
  refine ⟨hmemory, ?_, ?_, ?_, ?_⟩ <;> rw [hhost]

theorem Unchanged.trans {c c' c'' : Caller} (h : Unchanged c c') (h' : Unchanged c' c'') : Unchanged c c'' :=
  ⟨h'.memory.trans h.memory, h'.contents.trans h.contents, h'.position.trans h.position,
    h'.resultPort.trans h.resultPort, h'.resultPtr.trans h.resultPtr⟩

theorem readRange_takes {c : Caller} {memory bytes : Bytes} {start stop : ℕ} (hmemory : c.memory = some memory)
    (h : getSpan memory start stop = some bytes) :
    ∃ c', readRange start stop c = .ok bytes c' ∧ c'.memory = some memory ∧ c'.host = c.host :=
  ⟨_, readRange_some (Caller.data_eq hmemory ▸ h), hmemory, rfl⟩

theorem readRange_misses {c : Caller} {memory : Bytes} {start stop : ℕ} (hmemory : c.memory = some memory)
    (h : getSpan memory start stop = none) : readRange start stop c = .error (.refused .invalidRange) c :=
  readRange_none (Caller.data_eq hmemory ▸ h)

theorem writeRange_puts {c : Caller} {memory out bytes : Bytes} {start stop : ℕ} (hmemory : c.memory = some memory)
    (h : getSpan memory start stop = some out) (hlength : stop - start = bytes.length) :
    ∃ c', writeRange start stop bytes c = .ok () c' ∧ c'.memory = some (writeAt start bytes memory) ∧
      c'.host = c.host :=
  ⟨_, writeRange_some hmemory h hlength, rfl, rfl⟩

theorem writeRange_misses {c : Caller} {memory : Bytes} {start stop : ℕ} (bytes : Bytes)
    (hmemory : c.memory = some memory) (h : getSpan memory start stop = none) :
    writeRange start stop bytes c = .error (.refused .invalidRange) c :=
  writeRange_none (Caller.data_eq hmemory ▸ h)

section Steps
variable {α : Type} {x : HostM α} {f : α → HostM Int32} {c c' c'' : Caller}

theorem endsCleanly_ok {a : α} (h : x c' = .ok a c'') : EndsCleanly c (x >>= f) c' ↔ EndsCleanly c (f a) c'' :=
  meets_bind_ok h

theorem endsCleanly_error {e : Exit} (h : x c' = .error e c'') :
    EndsCleanly c (x >>= f) c' ↔ ∀ r, e = .refused r → r.isAccess → Unchanged c c'' := meets_bind_error h

theorem endsCleanly_access {r : Refusal} (h : x c' = .error (.refused r) c'') (hr : r.isAccess = true) :
    EndsCleanly c (x >>= f) c' ↔ Unchanged c c'' :=
  (endsCleanly_error h).trans ⟨fun hends => hends r rfl hr, fun hunchanged _ _ _ => hunchanged⟩

theorem endsCleanly_other {r : Refusal} (h : x c' = .error (.refused r) c'') (hr : r.isAccess = false) :
    EndsCleanly c (x >>= f) c' := by
  refine (endsCleanly_error h).mpr fun r' hr' haccess => ?_
  cases hr'
  rw [hr] at haccess
  cases haccess

theorem endsCleanly_pure {code : Int32} : EndsCleanly c (pure code) c' ↔ 0 ≤ code := Iff.rfl

theorem getMemory_clean_iff {next : HostM Int32} {P : Bytes → Prop}
    (hnext : ∀ memory, c.memory = some memory → (EndsCleanly c next c ↔ P memory)) :
    EndsCleanly c (getMemory >>= fun _ => next) c ↔ ∀ memory ∈ c.memory, P memory := by
  cases hmem : c.memory with
  | none => exact iff_of_true (endsCleanly_other (getMemory_none hmem) rfl) forall_mem_none
  | some memory =>
    rw [endsCleanly_ok (getMemory_some hmem), forall_mem_some_iff]
    exact hnext memory hmem

theorem readRange_clean_iff {memory : Bytes} {start stop : ℕ} {next : Bytes → HostM Int32}
    {P : Bytes → Prop} (hsame : Unchanged c c')
    (hmem : c'.memory = some memory)
    (hnext : ∀ bytes c'', getSpan memory start stop = some bytes → Unchanged c c'' → c''.memory = some memory →
      c''.host = c'.host → (EndsCleanly c (next bytes) c'' ↔ P bytes)) :
    EndsCleanly c (readRange start stop >>= next) c' ↔ ∀ bytes ∈ getSpan memory start stop, P bytes := by
  cases hspan : getSpan memory start stop with
  | none => exact iff_of_true ((endsCleanly_access (readRange_misses hmem hspan) rfl).mpr hsame) forall_mem_none
  | some bytes =>
    obtain ⟨c'', hread, hmem'', hhost⟩ := readRange_takes hmem hspan
    rw [endsCleanly_ok hread, forall_mem_some_iff]
    exact hnext bytes c'' hspan (hsame.trans (.of_eq (hmem''.trans hmem.symm) hhost)) hmem'' hhost

theorem fromUtf8_clean_iff {bytes : Bytes} {next : String → HostM Int32} {P : String → Prop}
    (hnext : ∀ text, EndsCleanly c (next text) c' ↔ P text) :
    EndsCleanly c (fromUtf8 bytes >>= next) c' ↔ ∀ text ∈ String.fromUTF8? bytes.toByteArray, P text := by
  cases hutf : String.fromUTF8? bytes.toByteArray with
  | none => exact iff_of_true (endsCleanly_other (fromUtf8_none hutf) rfl) forall_mem_none
  | some text =>
    rw [endsCleanly_ok (fromUtf8_some hutf), forall_mem_some_iff]
    exact hnext text

theorem lookup_clean_iff {provider : String → Option String} {key : String} {next : String → HostM Int32}
    {P : String → Prop} (hnext : ∀ value, EndsCleanly c (next value) c' ↔ P value) :
    EndsCleanly c (lookup provider key >>= next) c' ↔ ∀ value ∈ provider key, P value := by
  cases hvalue : provider key with
  | none => exact iff_of_true (endsCleanly_other (lookup_none hvalue) rfl) forall_mem_none
  | some value =>
    rw [endsCleanly_ok (lookup_some hvalue), forall_mem_some_iff]
    exact hnext value

end Steps

section Calls
variable {c : Caller}

theorem putText_clean_iff {c' : Caller} {memory : Bytes} (hsame : Unchanged c c') (hmem : c'.memory = some memory)
    (value : String) (valPtr valCap : UInt32) :
    let len := min (utf8 value).length valCap.toNat
    EndsCleanly c (writeRange valPtr.toNat (valPtr.toNat + len) ((utf8 value).take len) >>= fun _ =>
        pure (Int32.ofNat len)) c' ↔
      ((Span.mk valPtr.toNat len).Inside memory.length → len < 2 ^ 31) := by
  intro len
  have hbound : len < 2 ^ 32 := (Nat.min_le_right _ _).trans_lt valCap.toNat_lt
  have hlength : ((utf8 value).take len).length = len := by
    rw [List.length_take]
    exact Nat.min_eq_left (Nat.min_le_left _ _)
  by_cases hinside : (Span.mk valPtr.toNat len).Inside memory.length
  · have hspan : getSpan memory valPtr.toNat (valPtr.toNat + len) =
        some (slice memory valPtr.toNat (valPtr.toNat + len - valPtr.toNat)) :=
      if_pos ⟨Nat.le_add_right _ _, hinside⟩
    obtain ⟨c'', hwrite, -, -⟩ :=
      writeRange_puts hmem hspan ((Nat.add_sub_cancel_left _ _).trans hlength.symm)
    rw [endsCleanly_ok hwrite, endsCleanly_pure, nonneg_ofNat_iff hbound, forall_prop_of_true hinside]
  · have hspan : getSpan memory valPtr.toNat (valPtr.toNat + len) = none := if_neg fun h => hinside h.2
    have hwrite := writeRange_misses ((utf8 value).take len) hmem hspan
    exact iff_of_true ((endsCleanly_access hwrite rfl).mpr hsame) fun h => absurd h hinside

theorem getText_clean_iff (provider : String → Option String) (keyPtr keyLen valPtr valCap : UInt32) :
    EndsCleanly c (getText provider keyPtr keyLen valPtr valCap) c ↔
      HostCall.textClean provider c keyPtr keyLen valPtr valCap := by
  refine getMemory_clean_iff fun memory hmem => ?_
  refine readRange_clean_iff (.of_eq rfl rfl) hmem fun keySlice c' _ hsame hmem' _ => ?_
  refine fromUtf8_clean_iff fun key => lookup_clean_iff fun value => ?_
  exact putText_clean_iff hsame hmem' value valPtr valCap

theorem putOffset_clean_iff {c' : Caller} {memory bytes lo hi : Bytes} {size outLo outHi : UInt32}
    (hsame : Unchanged c c') (hmem : c'.memory = some memory) (hsize : bytes.length = size.toNat)
    (hlo : lo = leBytes 4 (encodeArenaOffset (.ofNat c'.host.arena.writePos)).1.toNat) (hhi : hi.length = 4) :
    EndsCleanly c (writeRange outLo.toNat (outLo + 4).toNat lo >>= fun _ =>
        writeRange outHi.toNat (outHi + 4).toNat hi >>= fun _ =>
          pure (UInt32.ofNat bytes.length).toInt32) (c'.written bytes) ↔
      HostCall.outsClean memory c'.host.arena size outLo outHi := by
  have hlength : lo.length = 4 := by rw [hlo, leBytes_length]
  have hnone : size = 0 ↔ bytes.length = 0 := by rw [hsize, ← UInt32.toNat_inj]; exact Iff.rfl
  unfold HostCall.outsClean
  rw [← hlo]
  cases hlospan : getSpan memory outLo.toNat (outLo + 4).toNat with
  | none =>
    have hwrite := writeRange_misses (c := c'.written bytes) lo hmem hlospan
    rw [endsCleanly_access hwrite rfl, unchanged_written_iff hsame]
    exact hnone.symm
  | some old =>
    obtain ⟨hle, hstop, hold⟩ := getSpan_eq_some.mp hlospan
    obtain ⟨hspan, -⟩ := HostCall.guest_range hlength hle
    obtain ⟨c'', hwrite, hmem'', hhost⟩ :=
      writeRange_puts (c := c'.written bytes) hmem hlospan hspan
    have hinside : outLo.toNat + lo.length ≤ memory.length := by omega
    have hmemlen := writeAt_length outLo.toNat lo memory hinside
    rw [endsCleanly_ok hwrite]
    cases hhispan : getSpan memory outHi.toNat (outHi + 4).toNat with
    | none =>
      have hmisses : getSpan (writeAt outLo.toNat lo memory) outHi.toNat (outHi + 4).toNat = none := by
        rw [getSpan_eq_none, hmemlen]
        exact getSpan_eq_none.mp hhispan
      rw [endsCleanly_access (writeRange_misses hi hmem'' hmisses) rfl, hnone, ← hold, hspan]
      show Unchanged c c'' ↔ bytes.length = 0 ∧ slice memory outLo.toNat lo.length = lo
      rw [← writeAt_eq_self_iff hinside]
      constructor
      · intro h
        have hput : some (writeAt outLo.toNat lo memory) = some memory :=
          hmem''.symm.trans (h.memory.trans (hsame.memory.symm.trans hmem))
        refine ⟨(unchanged_written_iff hsame).mp ⟨hsame.memory, ?_, ?_, ?_, ?_⟩, Option.some.inj hput⟩
        · exact hhost ▸ h.contents
        · exact hhost ▸ h.position
        · exact hhost ▸ h.resultPort
        · exact hhost ▸ h.resultPtr
      · rintro ⟨hempty, hput⟩
        obtain ⟨-, hcontents, hposition, hport, hptr⟩ := (unchanged_written_iff hsame).mpr hempty
        rw [hput, ← hmem] at hmem''
        exact ⟨hmem''.trans hsame.memory, hhost ▸ hcontents, hhost ▸ hposition, hhost ▸ hport, hhost ▸ hptr⟩
    | some old' =>
      obtain ⟨hle', hstop', -⟩ := getSpan_eq_some.mp hhispan
      obtain ⟨hspan', -⟩ := HostCall.guest_range hhi hle'
      have hfinds := getSpan_eq_some.mpr ⟨hle', hmemlen.ge.trans' hstop', rfl⟩
      obtain ⟨c3, hwrite', -, -⟩ := writeRange_puts hmem'' hfinds hspan'
      rw [endsCleanly_ok hwrite', endsCleanly_pure]
      show 0 ≤ Int32.ofNat bytes.length ↔ size.toNat < 2 ^ 31
      rw [hsize]
      exact nonneg_ofNat_iff size.toNat_lt

theorem writeArena_clean_iff {env : Providers} {c' : Caller} {bytes : Bytes} {f : RelPtr → HostM Int32}
    (hc' : c'.host.arena.Sound) (hsame : Unchanged c c') (hbytes : bytes.length < 2 ^ 32) :
    EndsCleanly c (writeArena bytes env.flushFails >>= f) c' ↔
      (Fits c'.host.arena bytes →
        if flushFailing env c'.host.arena then bytes.length = 0
        else EndsCleanly c (f ⟨.ofNat c'.host.arena.writePos, .ofNat bytes.length⟩) (c'.written bytes)) := by
  by_cases hfits : Fits c'.host.arena bytes
  · have hwrite := writeArena_fits env.flushFails hc' hbytes hfits
    rw [forall_prop_of_true hfits]
    unfold flushFailing
    split_ifs at hwrite ⊢
    · rw [endsCleanly_access hwrite rfl, unchanged_written_iff hsame]
    · rw [endsCleanly_ok hwrite]
  · refine iff_of_true ?_ fun h => absurd h hfits
    exact (endsCleanly_access (writeArena_full env.flushFails hc' hbytes hfits) rfl).mpr hsame

theorem guest_span_length {memory bytes : Bytes} {ptr len : UInt32}
    (h : getSpan memory ptr.toNat (ptr + len).toNat = some bytes) : bytes.length = len.toNat := by
  obtain ⟨hle, -, -⟩ := getSpan_eq_some.mp h
  rw [getSpan_length h, toNat_add_32 hle, Nat.add_sub_cancel_left]

theorem eq_zero_iff_length {bytes : Bytes} {size : UInt32} (h : bytes.length = size.toNat) :
    size = 0 ↔ bytes.length = 0 := by
  rw [h, ← UInt32.toNat_inj]
  exact Iff.rfl

theorem writeBytes_clean_iff (env : Providers) (hc : c.host.arena.Sound) (src size outLo outHi : UInt32) :
    EndsCleanly c (xervWriteBytes env src size outLo outHi) c ↔
      HostCall.writeClean env c src size outLo outHi := by
  refine getMemory_clean_iff fun memory hmem => ?_
  refine readRange_clean_iff (.of_eq rfl rfl) hmem fun bytes c' hsrc hsame hmem' hhost => ?_
  have hlength := guest_span_length hsrc
  rw [writeArena_clean_iff (hhost ▸ hc) hsame (hlength ▸ size.toNat_lt), hhost, eq_zero_iff_length hlength]
  refine imp_congr_right fun _ => ?_
  split_ifs
  · exact Iff.rfl
  · rw [← hhost]
    exact putOffset_clean_iff hsame hmem' hlength rfl (leBytes_length 4 _)

theorem setResult_clean_iff (env : Providers) (hc : c.host.arena.Sound)
    (portPtr portLen dataPtr dataSize : UInt32) :
    EndsCleanly c (xervSetResult env portPtr portLen dataPtr dataSize) c ↔
      HostCall.resultClean env c portPtr portLen dataPtr dataSize := by
  refine getMemory_clean_iff fun memory hmem => ?_
  refine readRange_clean_iff (.of_eq rfl rfl) hmem fun portSlice c' _ hsame hmem' hhost => ?_
  refine fromUtf8_clean_iff fun port => ?_
  refine readRange_clean_iff hsame hmem' fun data c'' hdata hsame' _ hhost' => ?_
  have hlength := guest_span_length hdata
  rw [writeArena_clean_iff ((hhost'.trans hhost) ▸ hc) hsame' (hlength ▸ dataSize.toNat_lt), hhost'.trans hhost,
    eq_zero_iff_length hlength]
  refine imp_congr_right fun _ => ?_
  split_ifs with hflush
  · exact ⟨fun hempty _ => hempty, fun h => h hflush⟩
  · exact iff_of_true (show (0 : Int32) ≤ 0 by decide) fun h => absurd h hflush

theorem putWord_clean {memory bytes : Bytes} {dest size : UInt32} (hmem : c.memory = some memory)
    (hlength : bytes.length = size.toNat) :
    EndsCleanly c (writeRange dest.toNat (dest + size).toNat bytes >>= fun _ => pure (0 : Int32)) c := by
  cases hspan : getSpan memory dest.toNat (dest + size).toNat with
  | none => exact (endsCleanly_access (writeRange_misses bytes hmem hspan) rfl).mpr (.of_eq rfl rfl)
  | some out =>
    obtain ⟨hle, -, -⟩ := getSpan_eq_some.mp hspan
    obtain ⟨c', hwrite, -, -⟩ := writeRange_puts hmem hspan (HostCall.guest_range hlength hle).1
    rw [endsCleanly_ok hwrite]
    exact show (0 : Int32) ≤ 0 by decide

theorem readBytes_clean (hc : c.host.arena.Sound) (offsetLo offsetHi dest size : UInt32) :
    EndsCleanly c (xervReadBytes offsetLo offsetHi dest size) c := by
  unfold xervReadBytes
  rcases readArena_cases hc offsetLo offsetHi dest size with ⟨-, p, hpanic⟩ | ⟨-, hfailed | ⟨bytes, hlength, hread⟩⟩
  · exact (endsCleanly_error hpanic).mpr fun r hr _ => by cases hr
  · exact (endsCleanly_access hfailed rfl).mpr (.of_eq rfl rfl)
  · refine (endsCleanly_ok hread).mpr ?_
    cases hmem : c.memory with
    | none => exact endsCleanly_other (getMemory_none hmem) rfl
    | some memory =>
      rw [endsCleanly_ok (getMemory_some hmem)]
      exact putWord_clean hmem hlength

theorem uuidNewV4_clean (env : Providers) (dest : UInt32) : EndsCleanly c (xervUuidNewV4 env dest) c :=
  (getMemory_clean_iff fun _ hmem => iff_of_true (putWord_clean hmem env.newV4_length) trivial).mpr
    fun _ _ => trivial

theorem takeText_clean {ptr len : UInt32} (f : String → HostState → HostState) :
    EndsCleanly c (do
      getMemory
      let slice ← readRange ptr.toNat (ptr + len).toNat
      let text ← fromUtf8 slice
      changeHost (f text)
      return 0) c := by
  refine (getMemory_clean_iff fun memory hmem => iff_of_true ?_ trivial).mpr fun _ _ => trivial
  refine (readRange_clean_iff (.of_eq rfl rfl) hmem fun _ _ _ _ _ _ => iff_of_true ?_ trivial).mpr fun _ _ => trivial
  refine (fromUtf8_clean_iff fun _ => iff_of_true ?_ trivial).mpr fun _ _ => trivial
  exact show (0 : Int32) ≤ 0 by decide

end Calls

/-- In every state of the host whose arena is sound, a call fails cleanly exactly when what it is given is as
`CleanWhen` says. -/
theorem failsCleanly_iff {env : Providers} {call : HostCall} {c : Caller} (hc : c.host.arena.Sound) :
    FailsCleanly env call c ↔ call.CleanWhen env c := by
  unfold FailsCleanly
  cases call with
  | readBytes offsetLo offsetHi dest size => exact iff_of_true (readBytes_clean hc _ _ _ _) trivial
  | writeBytes src size outLo outHi => exact writeBytes_clean_iff env hc src size outLo outHi
  | uuidNewV4 dest => exact iff_of_true (uuidNewV4_clean env dest) trivial
  | envGet keyPtr keyLen valPtr valCap => exact getText_clean_iff env.var keyPtr keyLen valPtr valCap
  | secretGet keyPtr keyLen valPtr valCap => exact getText_clean_iff env.secret keyPtr keyLen valPtr valCap
  | setResult portPtr portLen dataPtr dataSize => exact setResult_clean_iff env hc portPtr portLen dataPtr dataSize
  | setError msgPtr msgLen =>
    exact iff_of_true (takeText_clean fun text h => { h with errorMessage := some text }) trivial
  | log level msgPtr msgLen =>
    exact iff_of_true (takeText_clean fun text h =>
      { h with logged := h.logged ++ [⟨.ofWord level, h.traceId, h.nodeId, text⟩] }) trivial

/-- For every arena that `create` and writes lead to, every memory of a guest, all answers of the providers and
all arguments: a call that is refused for a range or by the arena leaves all as it was and a call that succeeds
returns no negative number, if and only if what the call is given is as `CleanWhen` says. -/
theorem host_calls_fail_cleanly_iff (traceId : TraceId) (capacity : ℕ) (sync : Bool) (now : UInt64) (a : ArenaInner)
    (hcreate : ArenaInner.create traceId capacity sync now = some a) (calls : List WriteCall) :
    ∃ x, Machine.run (writeStep false) ⟨a, []⟩ calls = some x ∧
      ∀ (env : Providers) (call : HostCall) (c : Caller), c.host.arena = x.arena →
        (FailsCleanly env call c ↔ call.CleanWhen env c) := by
  obtain ⟨x, hrun, hx⟩ := sound_run false (ArenaRun.packed_created hcreate).1.sound calls
  exact ⟨x, hrun, fun env call c harena => failsCleanly_iff (harena ▸ hx)⟩

def eightBytes : Bytes := [1, 2, 3, 4, 5, 6, 7, 8]

theorem host_calls_fail_cleanly_refused :
    ∃ x, Machine.run (writeStep false) ⟨ArenaRun.smallArena, []⟩ [] = some x ∧
      (HostCall.writeBytes 4 6 0 4).run noAnswers (guestOf x.arena eightBytes) =
        .error (.refused .invalidRange) (guestOf x.arena eightBytes) ∧
      FailsCleanly noAnswers (.writeBytes 4 6 0 4) (guestOf x.arena eightBytes) := by
  obtain ⟨x, hrun, hclean⟩ :=
    host_calls_fail_cleanly_iff sampleTrace 256 false 1700000000 ArenaRun.smallArena ArenaRun.smallArena_created []
  refine ⟨x, hrun, rfl, (hclean noAnswers (.writeBytes 4 6 0 4) (guestOf x.arena eightBytes) rfl).mpr ?_⟩
  intro memory hmemory bytes hbytes
  cases hmemory
  cases hbytes

/-- A write of all of them, whose offset has no place. -/
theorem write_keeps_eight {a : ArenaInner} (ha : a.Sound) (hfits : Fits a eightBytes) :
    ¬ FailsCleanly noAnswers (.writeBytes 0 8 100 0) (guestOf a eightBytes) := by
  intro h
  have hclean := (failsCleanly_iff ha).mp h eightBytes rfl eightBytes rfl hfits
  have hempty : (8 : UInt32) = 0 := by
    split_ifs at hclean
    · exact hclean
    · exact hclean
  cases hempty

/-- Eight bytes are in the arena when the first place for their offset turns out to lie outside the memory. -/
theorem write_keeps_bytes :
    ArenaInner.create sampleTrace 256 false 1700000000 = some ArenaRun.smallArena ∧
      ¬ FailsCleanly noAnswers (.writeBytes 0 8 100 0) (guestOf ArenaRun.smallArena eightBytes) :=
  ⟨ArenaRun.smallArena_created,
    write_keeps_eight (ArenaInner.create_wellFormed ArenaRun.smallArena_created).1.sound
      (show 128 + alignedSize eightBytes.length ≤ 256 by decide)⟩

end Xerv.Wasm
