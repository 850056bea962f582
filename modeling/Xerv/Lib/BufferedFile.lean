import Xerv.Lib.Directory
import Xerv.Lib.LittleEndian

/-!
# Buffered append-only files

A file is its contents together with the number of leading bytes that have been
fsynced. A `BufWriter` over a file opened in append mode holds the bytes not yet
handed to the file; `writeAll` follows the standard library: a short write goes
to the buffer, a write that does not fit flushes first, and a write of at least
the capacity goes straight to the file.

What a writer has accepted is the file followed by its buffer. Every operation
is described by what it adds to that (`Extends`).
-/

namespace Xerv.Lib

structure DiskFile where
  data : Bytes
  synced : ℕ
  deriving DecidableEq

abbrev FileDir := Directory DiskFile

def DiskFile.empty : DiskFile := ⟨[], 0⟩

/-- `OpenOptions::create(true).append(true)`. -/
def openAppend (d : FileDir) (path : String) : FileDir :=
  match d.get path with
  | some _ => d
  | none => d.insert path .empty

/-- Change the file at `path`; a handle to a removed file changes nothing in the directory. -/
def modifyFile (d : FileDir) (path : String) (f : DiskFile → DiskFile) : FileDir :=
  match d.get path with
  | some file => d.insert path (f file)
  | none => d

structure BufWriter where
  path : String
  capacity : ℕ
  buf : Bytes
  deriving DecidableEq

namespace BufWriter

/-- A writer with the directory it writes to. -/
abbrev OnDisk := BufWriter × FileDir

def flush (s : OnDisk) : OnDisk :=
  ({ s.1 with buf := [] },
    modifyFile s.2 s.1.path fun f => { f with data := f.data ++ s.1.buf })

/-- A flush that fails after `n` bytes: what was written leaves the buffer. -/
def flushPartly (s : OnDisk) (n : ℕ) : OnDisk :=
  ({ s.1 with buf := s.1.buf.drop n },
    modifyFile s.2 s.1.path fun f => { f with data := f.data ++ s.1.buf.take n })

/-- `get_ref().sync_data()` or `sync_all()`. -/
def syncData (s : OnDisk) : OnDisk :=
  (s.1, modifyFile s.2 s.1.path fun f => { f with synced := f.data.length })

def buffer (s : OnDisk) (bytes : Bytes) : OnDisk :=
  ({ s.1 with buf := s.1.buf ++ bytes }, s.2)

def direct (s : OnDisk) (bytes : Bytes) : OnDisk :=
  (s.1, modifyFile s.2 s.1.path fun f => { f with data := f.data ++ bytes })

def writeAll (s : OnDisk) (bytes : Bytes) : OnDisk :=
  let spare := s.1.capacity - s.1.buf.length
  if bytes.length < spare then buffer s bytes
  else
    let s := if spare < bytes.length then flush s else s
    -- a nonempty buffer is only bypassed once it has been flushed
    if s.1.capacity ≤ bytes.length then direct s bytes else buffer s bytes

/-- Where `writeAll` can fail: in the flush that makes room, or in the write past the buffer. -/
inductive WriteAllFault where
  | flush (written : ℕ)
  | direct (written : ℕ)

def tryWriteAll (s : OnDisk) (bytes : Bytes) (fault : Option WriteAllFault) : OnDisk × Bool :=
  let spare := s.1.capacity - s.1.buf.length
  if bytes.length < spare then (buffer s bytes, true)
  else
    match fault with
    | some (.flush n) =>
      if spare < bytes.length then (flushPartly s n, false) else (writeAll s bytes, true)
    | some (.direct n) =>
      let s' := if spare < bytes.length then flush s else s
      if s'.1.capacity ≤ bytes.length then (direct s' (bytes.take n), false)
      else (writeAll s bytes, true)
    | none => (writeAll s bytes, true)

def accepted (s : OnDisk) : ℕ :=
  ((s.2.get s.1.path).map fun f => f.data.length).getD 0 + s.1.buf.length

/-- The bytes accepted so far: the file, then the buffer. -/
def Holds (s : OnDisk) (bytes : Bytes) : Prop :=
  ∃ f, s.2.get s.1.path = some f ∧ f.data ++ s.1.buf = bytes

/-- `s'` comes from `s` by accepting `added` bytes: no other file changes, what was fsynced stays so
and no more is fsynced than has reached the file. -/
structure Advances (s s' : OnDisk) (added : ℕ) : Prop where
  path : s'.1.path = s.1.path
  others : ∀ p, p ≠ s.1.path → s'.2.get p = s.2.get p
  file : ∀ f, s.2.get s.1.path = some f → f.synced ≤ f.data.length →
    ∃ f', s'.2.get s.1.path = some f' ∧ f.synced ≤ f'.synced ∧ f'.synced ≤ f'.data.length ∧
      f'.data.length + s'.1.buf.length = f.data.length + s.1.buf.length + added

/-- `s'` comes from `s` by accepting `bytes` and changes no other file. -/
structure Extends (s s' : OnDisk) (bytes : Bytes) : Prop where
  path : s'.1.path = s.1.path
  names : ∀ p, p ∈ s'.2 ↔ p ∈ s.2
  others : ∀ p, p ≠ s.1.path → s'.2.get p = s.2.get p
  holds : ∀ old, Holds s old → Holds s' (old ++ bytes)

end BufWriter

theorem modifyFile_other (d : FileDir) (path p : String) (f : DiskFile → DiskFile) (h : p ≠ path) :
    (modifyFile d path f).get p = d.get p := by
  unfold modifyFile
  cases d.get path with
  | none => rfl
  | some file => exact Directory.get_insert_ne d path p _ h

theorem modifyFile_self (d : FileDir) (path : String) (f : DiskFile → DiskFile) :
    (modifyFile d path f).get path = (d.get path).map f := by
  unfold modifyFile
  cases hd : d.get path with
  | none => exact hd
  | some file => exact Directory.get_insert_self d path _

theorem mem_modifyFile (d : FileDir) (path p : String) (f : DiskFile → DiskFile) :
    p ∈ modifyFile d path f ↔ p ∈ d := by
  rw [← Directory.get_isSome, ← Directory.get_isSome]
  by_cases h : p = path
  · subst h
    rw [modifyFile_self, Option.isSome_map]
  · rw [modifyFile_other d path p f h]

theorem openAppend_existing (d : FileDir) (path : String) (f : DiskFile) (h : d.get path = some f) :
    openAppend d path = d := by
  unfold openAppend
  rw [h]

theorem openAppend_other (d : FileDir) (path p : String) (h : p ≠ path) :
    (openAppend d path).get p = d.get p := by
  unfold openAppend
  cases d.get path with
  | some _ => rfl
  | none => exact Directory.get_insert_ne d path p _ h

theorem openAppend_self (d : FileDir) (path : String) :
    (openAppend d path).get path = some ((d.get path).getD .empty) := by
  unfold openAppend
  cases h : d.get path with
  | some _ => exact h
  | none => exact Directory.get_insert_self d path _

theorem mem_openAppend (d : FileDir) (path p : String) :
    p ∈ openAppend d path ↔ p = path ∨ p ∈ d := by
  by_cases h : p = path
  · subst h
    rw [← Directory.get_isSome, openAppend_self]
    simp
  · rw [← Directory.get_isSome, openAppend_other d path p h, Directory.get_isSome]
    simp [h]

namespace BufWriter

theorem Extends.trans {s t u : OnDisk} {xs ys : Bytes} (h : Extends s t xs) (k : Extends t u ys) :
    Extends s u (xs ++ ys) where
  path := k.path.trans h.path
  names p := (k.names p).trans (h.names p)
  others p hp := (k.others p (by rwa [h.path])).trans (h.others p hp)
  holds old ho := by
    rw [← List.append_assoc]
    exact k.holds _ (h.holds old ho)

theorem extends_modify (s : OnDisk) (buf bytes : Bytes) (f : DiskFile → DiskFile)
    (h : ∀ file : DiskFile, (f file).data ++ buf = file.data ++ s.1.buf ++ bytes) :
    Extends s ({ s.1 with buf := buf }, modifyFile s.2 s.1.path f) bytes where
  path := rfl
  names p := mem_modifyFile s.2 s.1.path p f
  others p hp := modifyFile_other s.2 s.1.path p f hp
  holds old ho := by
    obtain ⟨file, hfile, hold⟩ := ho
    refine ⟨f file, ?_, ?_⟩
    · show (modifyFile s.2 s.1.path f).get s.1.path = some (f file)
      rw [modifyFile_self, hfile]
      rfl
    · show (f file).data ++ buf = old ++ bytes
      rw [h, hold]

theorem flush_extends (s : OnDisk) : Extends s (flush s) [] :=
  extends_modify s [] [] _ fun file => by simp

theorem syncData_extends (s : OnDisk) : Extends s (syncData s) [] :=
  extends_modify s s.1.buf [] _ fun file => by simp

theorem direct_extends (s : OnDisk) (bytes : Bytes) (h : s.1.buf = []) :
    Extends s (direct s bytes) bytes :=
  extends_modify s s.1.buf bytes _ fun file => by simp [h]

theorem buffer_extends (s : OnDisk) (bytes : Bytes) : Extends s (buffer s bytes) bytes where
  path := rfl
  names _ := Iff.rfl
  others _ _ := rfl
  holds old ho := by
    obtain ⟨file, hfile, hold⟩ := ho
    exact ⟨file, hfile, by simp [buffer, ← hold]⟩

theorem writeAll_extends (s : OnDisk) (bytes : Bytes) (hcap : s.1.buf.length ≤ s.1.capacity) :
    Extends s (writeAll s bytes) bytes := by
  have hflush : Extends s (flush s) [] := flush_extends s
  unfold writeAll
  dsimp only
  split_ifs with hfit hfull hbig hbig
  · exact buffer_extends s bytes
  · exact hflush.trans (direct_extends (flush s) bytes rfl)
  · exact hflush.trans (buffer_extends (flush s) bytes)
  · -- a write of the whole capacity that needs no flush finds the buffer empty
    have hnil : s.1.buf = [] := by
      apply List.eq_nil_of_length_eq_zero
      omega
    exact direct_extends s bytes hnil
  · exact buffer_extends s bytes

theorem writeAll_cap (s : OnDisk) (bytes : Bytes) (hcap : s.1.buf.length ≤ s.1.capacity) :
    (writeAll s bytes).1.buf.length ≤ (writeAll s bytes).1.capacity := by
  unfold writeAll
  dsimp only
  split_ifs with hfit hfull hbig hbig
  · simp only [buffer, List.length_append]
    omega
  · simp [direct, flush]
  · simp only [buffer, flush, List.length_append, List.length_nil] at hbig ⊢
    omega
  · exact hcap
  · simp only [buffer, List.length_append]
    omega

theorem Advances.trans {s t u : OnDisk} {m n : ℕ} (h : Advances s t m) (k : Advances t u n) :
    Advances s u (m + n) where
  path := k.path.trans h.path
  others p hp := (k.others p (by rwa [h.path])).trans (h.others p hp)
  file f hf hle := by
    obtain ⟨f₁, hf₁, hmono₁, hle₁, hlen₁⟩ := h.file f hf hle
    obtain ⟨f₂, hf₂, hmono₂, hle₂, hlen₂⟩ := k.file f₁ (by rwa [h.path]) hle₁
    rw [h.path] at hf₂
    exact ⟨f₂, hf₂, hmono₁.trans hmono₂, hle₂, by omega⟩

theorem advances_modify (s : OnDisk) (buf : Bytes) (added : ℕ) (g : DiskFile → DiskFile)
    (h : ∀ f : DiskFile, f.synced ≤ f.data.length → f.synced ≤ (g f).synced ∧
      (g f).synced ≤ (g f).data.length ∧
      (g f).data.length + buf.length = f.data.length + s.1.buf.length + added) :
    Advances s ({ s.1 with buf := buf }, modifyFile s.2 s.1.path g) added where
  path := rfl
  others p hp := modifyFile_other s.2 s.1.path p g hp
  file f hf hle := by
    refine ⟨g f, ?_, h f hle⟩
    show (modifyFile s.2 s.1.path g).get s.1.path = some (g f)
    rw [modifyFile_self, hf]
    rfl

theorem flushPartly_advances (s : OnDisk) (n : ℕ) : Advances s (flushPartly s n) 0 := by
  refine advances_modify s _ 0 _ fun f hf => ⟨le_rfl, ?_, ?_⟩
  · simp only [List.length_append]
    omega
  · simp only [List.length_append, List.length_take, List.length_drop]
    omega

theorem flush_advances (s : OnDisk) : Advances s (flush s) 0 := by
  refine advances_modify s _ 0 _ fun f hf => ⟨le_rfl, ?_, ?_⟩
  · simp only [List.length_append]
    omega
  · simp

theorem syncData_advances (s : OnDisk) : Advances s (syncData s) 0 :=
  advances_modify s s.1.buf 0 _ fun _ hf => ⟨hf, le_rfl, rfl⟩

theorem direct_advances (s : OnDisk) (bytes : Bytes) : Advances s (direct s bytes) bytes.length := by
  refine advances_modify s s.1.buf _ _ fun f hf => ⟨le_rfl, ?_, ?_⟩
  · simp only [List.length_append]
    omega
  · simp only [List.length_append]
    omega

theorem buffer_advances (s : OnDisk) (bytes : Bytes) : Advances s (buffer s bytes) bytes.length where
  path := rfl
  others _ _ := rfl
  file f hf hle := ⟨f, hf, le_rfl, hle, by
    show f.data.length + (s.1.buf ++ bytes).length = _
    rw [List.length_append]
    omega⟩

theorem writeAll_advances (s : OnDisk) (bytes : Bytes) : Advances s (writeAll s bytes) bytes.length := by
  have hflush := flush_advances s
  unfold writeAll
  dsimp only
  split_ifs with hfit hfull hbig hbig
  · exact buffer_advances s bytes
  · simpa using hflush.trans (direct_advances (flush s) bytes)
  · simpa using hflush.trans (buffer_advances (flush s) bytes)
  · exact direct_advances s bytes
  · exact buffer_advances s bytes

end BufWriter

end Xerv.Lib
