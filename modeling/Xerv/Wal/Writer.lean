import Xerv.Lib.BufferedFile
import Xerv.Lib.Numeral
import Xerv.Lib.Positions
import Xerv.Wal.Record

/-!
# The WAL writer (`xerv-core/src/wal/writer/wal.rs`)

`Wal` holds the current log file behind a `BufWriter`, its size, its sequence
number and the group-commit counters; the directory is part of the state. File
sequence numbers and sizes are unbounded counters. Wall-clock readings are
arguments of the operations.

The second half describes a log by its segments: the records of every closed
file and of the current one. Each operation either extends the current segment
or closes it and starts the next (`WalLayout`, `WalGrown`).
-/

namespace Xerv
open Xerv.Lib

/-! ### Configuration and state -/

structure GroupCommitConfig where
  maxDelayMs : ℕ
  maxBatchSize : ℕ
  deriving DecidableEq

structure WalConfig where
  maxFileSize : ℕ
  syncOnWrite : Bool
  bufferSize : ℕ
  groupCommit : Option GroupCommitConfig
  deriving DecidableEq

def GroupCommitConfig.default : GroupCommitConfig := ⟨10, 100⟩

def WalConfig.default : WalConfig := ⟨64 * 1024 * 1024, true, 64 * 1024, none⟩

-- `group_commit.rs`
structure GroupCommitState where
  pendingWrites : ℕ
  lastSyncTime : ℕ
  deriving DecidableEq

def GroupCommitState.shouldSync (gc : GroupCommitState) (config : GroupCommitConfig) (now : ℕ) :
    Bool :=
  config.maxBatchSize ≤ gc.pendingWrites || config.maxDelayMs ≤ now - gc.lastSyncTime

def GroupCommitState.recordWrite (gc : GroupCommitState) : GroupCommitState :=
  { gc with pendingWrites := gc.pendingWrites + 1 }

def GroupCommitState.resetAfterSync (now : ℕ) : GroupCommitState := ⟨0, now⟩

/-- `Wal` with its `WalInner`, `WalShared` and group-commit state, and the directory. -/
structure Wal where
  disk : BufWriter.OnDisk
  fileSize : ℕ
  config : WalConfig
  sequence : ℕ
  groupCommit : Option (GroupCommitConfig × GroupCommitState)
  recordCount : ℕ

structure WalPosition where
  fileSequence : ℕ
  offset : ℕ
  deriving DecidableEq, Repr

/-! ### File names -/

def walPrefix : List Char := ['w', 'a', 'l', '_']

def walSuffix : List Char := ['.', 'l', 'o', 'g']

/-- `format!("wal_{:016x}.log", sequence)`. -/
def walFileName (sequence : ℕ) : String :=
  String.ofList (walPrefix ++ (padded 16 16 sequence ++ walSuffix))

def parseWalFileName (name : String) : Option ℕ :=
  ((stripPrefix walPrefix name.toList).bind (stripSuffix walSuffix)).bind (parseUnsigned 16)

theorem parseWalFileName_walFileName (sequence : ℕ) :
    parseWalFileName (walFileName sequence) = some sequence := by
  rw [parseWalFileName, walFileName, String.toList_ofList, stripPrefix_append, Option.bind_some,
    stripSuffix_append, Option.bind_some]
  exact parseUnsigned_padded 16 16 sequence (by decide) (by decide) (by decide)

theorem walFileName_injective : Function.Injective walFileName := by
  intro i j h
  have hj := parseWalFileName_walFileName j
  rw [← h, parseWalFileName_walFileName] at hj
  exact Option.some.inj hj

/-! ### Operations -/

/-- `find_or_create_wal_file`: the latest file, or a new one after a file over 32 MiB. -/
def findOrCreateWalFile (d : FileDir) : String × ℕ :=
  let maxSequence := (d.keys.filterMap parseWalFileName).foldl max 0
  let path := walFileName maxSequence
  match d.get path with
  | some f =>
    if 32 * 1024 * 1024 < f.data.length then (walFileName (maxSequence + 1), maxSequence + 1)
    else (path, maxSequence)
  | none => (path, maxSequence)

def Wal.open (config : WalConfig) (d : FileDir) (now : ℕ) : Wal :=
  let (path, sequence) := findOrCreateWalFile d
  let d' := openAppend d path
  { disk := (⟨path, config.bufferSize, []⟩, d')
    fileSize := ((d'.get path).map fun f => f.data.length).getD 0
    config := config
    sequence := sequence
    groupCommit := config.groupCommit.map fun gc => (gc, ⟨0, now⟩)
    recordCount := 0 }

/-- `Wal::rotate_locked`. The old file is flushed but not synced. -/
def Wal.rotate (w : Wal) : Wal :=
  let d := (BufWriter.flush w.disk).2
  let sequence := w.sequence + 1
  let path := walFileName sequence
  { w with
    disk := (⟨path, w.config.bufferSize, []⟩, openAppend d path)
    fileSize := 0
    sequence := sequence }

theorem Wal.rotate_config (w : Wal) : w.rotate.config = w.config := by
  unfold rotate
  rfl

theorem Wal.rotate_groupCommit (w : Wal) : w.rotate.groupCommit = w.groupCommit := by
  unfold rotate
  rfl

def syncFile (disk : BufWriter.OnDisk) : BufWriter.OnDisk :=
  BufWriter.syncData (BufWriter.flush disk)

/-- The sync strategy at the end of `write`; `later` is the clock after the sync. -/
def Wal.syncAfterWrite (w : Wal) (now later : ℕ) : Wal :=
  if w.config.syncOnWrite then { w with disk := syncFile w.disk }
  else
    match w.groupCommit with
    | none => w
    | some (config, gc) =>
      let gc := gc.recordWrite
      if gc.shouldSync config now then
        { w with
          disk := syncFile w.disk
          groupCommit := some (config, .resetAfterSync later) }
      else { w with groupCommit := some (config, gc) }

def Wal.write (crc : Bytes → UInt32) (w : Wal) (record : WalRecord) (now later : ℕ) : Wal :=
  let bytes := record.toBytes crc
  let w := if w.config.maxFileSize < w.fileSize + bytes.length then w.rotate else w
  let w := { w with
    disk := BufWriter.writeAll w.disk bytes
    fileSize := w.fileSize + bytes.length }
  let w := w.syncAfterWrite now later
  { w with recordCount := w.recordCount + 1 }

def Wal.flush (w : Wal) : Wal := { w with disk := syncFile w.disk }

def Wal.sync (w : Wal) (now : ℕ) : Wal :=
  { w with
    disk := syncFile w.disk
    groupCommit := w.groupCommit.map fun (config, _) => (config, .resetAfterSync now) }

/-- Dropping a `Wal` flushes it; the directory stays. -/
def Wal.drop (w : Wal) : FileDir := (BufWriter.flush w.disk).2

def Wal.getCurrentPosition (w : Wal) : WalPosition := ⟨w.sequence, w.fileSize⟩

/-! ### Runs -/

inductive WalOp where
  | write (record : WalRecord) (now later : ℕ)
  | flush
  | sync (now : ℕ)
  | reopen (config : WalConfig) (now : ℕ)

def WalOp.apply (crc : Bytes → UInt32) (w : Wal) : WalOp → Wal
  | .write record now later => w.write crc record now later
  | .flush => w.flush
  | .sync now => w.sync now
  | .reopen config now => Wal.open config w.drop now

def WalOp.written : WalOp → Option WalRecord
  | .write record _ _ => some record
  | _ => none

def runWal (crc : Bytes → UInt32) (w : Wal) (ops : List WalOp) : Wal := ops.foldl (WalOp.apply crc) w

def writtenBy (ops : List WalOp) : List WalRecord := ops.filterMap WalOp.written

theorem writtenBy_cons (op : WalOp) (ops : List WalOp) :
    writtenBy (op :: ops) = op.written.toList ++ writtenBy ops := by
  unfold writtenBy
  cases ho : op.written with
  | none => simp [ho]
  | some r => simp [ho]

/-! ### Segments -/

def encodeAll (crc : Bytes → UInt32) (rs : List WalRecord) : Bytes :=
  rs.flatMap (WalRecord.toBytes crc)

@[simp] theorem encodeAll_nil (crc : Bytes → UInt32) : encodeAll crc [] = [] := rfl

theorem encodeAll_cons (crc : Bytes → UInt32) (r : WalRecord) (rs : List WalRecord) :
    encodeAll crc (r :: rs) = r.toBytes crc ++ encodeAll crc rs := List.flatMap_cons

theorem encodeAll_append (crc : Bytes → UInt32) (rs ts : List WalRecord) :
    encodeAll crc (rs ++ ts) = encodeAll crc rs ++ encodeAll crc ts := List.flatMap_append

/-- The log files hold the records `closed ++ [current]`, one list a file. -/
structure WalLayout (crc : Bytes → UInt32) (w : Wal) (closed : List (List WalRecord))
    (current : List WalRecord) : Prop where
  sequence : closed.length = w.sequence
  path : w.disk.1.path = walFileName w.sequence
  names : ∀ n, n ∈ w.disk.2 ↔ ∃ i ≤ w.sequence, n = walFileName i
  closedFile : ∀ i seg, closed[i]? = some seg →
    ∃ f, w.disk.2.get (walFileName i) = some f ∧ f.data = encodeAll crc seg
  currentFile : BufWriter.Holds w.disk (encodeAll crc current)
  size : w.fileSize = (encodeAll crc current).length
  capacity : w.disk.1.buf.length ≤ w.disk.1.capacity

/-- One log extends another by `delta`: the current segment grew, and was perhaps closed. -/
def WalGrown (closed : List (List WalRecord)) (current : List WalRecord)
    (closed' : List (List WalRecord)) (current' delta : List WalRecord) : Prop :=
  (closed' = closed ∧ current' = current ++ delta) ∨
  ∃ more rest, closed' = closed ++ (current ++ more) :: rest ∧
    delta = more ++ rest.flatten ++ current'

theorem WalGrown.refl (closed : List (List WalRecord)) (current : List WalRecord) :
    WalGrown closed current closed current [] := .inl ⟨rfl, by simp⟩

theorem WalGrown.trans {c₁ c₂ c₃ : List (List WalRecord)} {r₁ r₂ r₃ d e : List WalRecord}
    (h : WalGrown c₁ r₁ c₂ r₂ d) (k : WalGrown c₂ r₂ c₃ r₃ e) : WalGrown c₁ r₁ c₃ r₃ (d ++ e) := by
  rcases h with ⟨rfl, rfl⟩ | ⟨more, rest, rfl, rfl⟩
  · rcases k with ⟨rfl, rfl⟩ | ⟨more', rest', rfl, rfl⟩
    · exact .inl ⟨rfl, by simp⟩
    · exact .inr ⟨d ++ more', rest', by simp, by simp⟩
  · rcases k with ⟨rfl, rfl⟩ | ⟨more', rest', rfl, rfl⟩
    · exact .inr ⟨more, rest, rfl, by simp⟩
    · exact .inr ⟨more, rest ++ (r₂ ++ more') :: rest', by simp, by simp⟩

theorem WalGrown.records {c c' : List (List WalRecord)} {r r' d : List WalRecord}
    (h : WalGrown c r c' r' d) : c'.flatten ++ r' = c.flatten ++ r ++ d := by
  rcases h with ⟨rfl, rfl⟩ | ⟨more, rest, rfl, rfl⟩
  · simp
  · simp

/-- The log files hold the bytes `closed ++ [current]`; the end of the last one may still be in the
buffer. -/
structure LogLayout (w : Wal) (closed : List Bytes) (current : Bytes) : Prop where
  sequence : closed.length = w.sequence
  path : w.disk.1.path = walFileName w.sequence
  names : ∀ n, n ∈ w.disk.2 ↔ ∃ i ≤ w.sequence, n = walFileName i
  closedFile : ∀ i bytes, closed[i]? = some bytes →
    ∃ f, w.disk.2.get (walFileName i) = some f ∧ f.data = bytes
  currentFile : BufWriter.Holds w.disk current
  size : w.fileSize = current.length
  capacity : w.disk.1.buf.length ≤ w.disk.1.capacity

/-- A directory of log files that no writer is open on. -/
structure LogFiles (d : FileDir) (files : List Bytes) : Prop where
  names : ∀ n, n ∈ d ↔ ∃ i < files.length, n = walFileName i
  file : ∀ i bytes, files[i]? = some bytes → ∃ f, d.get (walFileName i) = some f ∧ f.data = bytes

section Raw
variable {w : Wal} {closed : List Bytes} {current : Bytes} {d : FileDir}

theorem LogLayout.path_ne (h : LogLayout w closed current) (i : ℕ) (hi : i < w.sequence) :
    walFileName i ≠ w.disk.1.path := by
  rw [h.path]
  intro he
  have := walFileName_injective he
  omega

theorem LogLayout.extend (h : LogLayout w closed current) (w' : Wal) (bytes : Bytes)
    (hext : BufWriter.Extends w.disk w'.disk bytes) (hseq : w'.sequence = w.sequence)
    (hsize : w'.fileSize = w.fileSize + bytes.length)
    (hcap : w'.disk.1.buf.length ≤ w'.disk.1.capacity) : LogLayout w' closed (current ++ bytes) where
  sequence := by rw [hseq, h.sequence]
  path := by rw [hext.path, h.path, hseq]
  names n := by rw [hext.names, h.names, hseq]
  closedFile i data hi := by
    have hlt : i < w.sequence := by
      rw [← h.sequence]
      exact (List.getElem?_eq_some_iff.mp hi).1
    obtain ⟨f, hf, hd⟩ := h.closedFile i data hi
    exact ⟨f, by rw [hext.others _ (h.path_ne i hlt), hf], hd⟩
  currentFile := hext.holds _ h.currentFile
  size := by rw [hsize, h.size, List.length_append]
  capacity := hcap

theorem syncFile_extends (disk : BufWriter.OnDisk) : BufWriter.Extends disk (syncFile disk) [] :=
  (BufWriter.flush_extends disk).trans (BufWriter.syncData_extends _)

theorem LogLayout.syncFile (h : LogLayout w closed current) (w' : Wal)
    (hdisk : w'.disk = syncFile w.disk) (hseq : w'.sequence = w.sequence)
    (hsize : w'.fileSize = w.fileSize) : LogLayout w' closed current := by
  have hext : BufWriter.Extends w.disk w'.disk [] := hdisk ▸ syncFile_extends w.disk
  have hcap : w'.disk.1.buf.length ≤ w'.disk.1.capacity := by
    rw [hdisk]
    exact Nat.zero_le _
  have hl := h.extend w' [] hext hseq (by simpa using hsize) hcap
  rwa [List.append_nil] at hl

theorem LogLayout.congr (h : LogLayout w closed current) (w' : Wal) (hdisk : w'.disk = w.disk)
    (hseq : w'.sequence = w.sequence) (hsize : w'.fileSize = w.fileSize) :
    LogLayout w' closed current where
  sequence := by rw [hseq, h.sequence]
  path := by rw [hdisk, hseq, h.path]
  names n := by rw [hdisk, hseq, h.names]
  closedFile i bytes hi := by
    rw [hdisk]
    exact h.closedFile i bytes hi
  currentFile := by
    rw [hdisk]
    exact h.currentFile
  size := by rw [hsize, h.size]
  capacity := by
    rw [hdisk]
    exact h.capacity

theorem LogLayout.files (h : LogLayout w closed current) (hbuf : w.disk.1.buf = []) :
    LogFiles w.disk.2 (closed ++ [current]) := by
  refine ⟨fun n => ?_, fun i bytes hi => ?_⟩
  · rw [h.names, List.length_append, h.sequence]
    simp only [List.length_singleton, Nat.lt_succ_iff]
  · rcases getElem?_concat_cases hi with ⟨-, hold⟩ | ⟨rfl, rfl⟩
    · -- a file closed earlier
      exact h.closedFile i bytes hold
    · -- the current file
      obtain ⟨f, hf, hd⟩ := h.currentFile
      rw [hbuf, List.append_nil] at hd
      rw [h.sequence]
      exact ⟨f, h.path ▸ hf, hd⟩

theorem LogLayout.flushed (h : LogLayout w closed current) :
    LogFiles (BufWriter.flush w.disk).2 (closed ++ [current]) := by
  have hext : LogLayout { w with disk := BufWriter.flush w.disk } closed (current ++ []) :=
    h.extend _ [] (BufWriter.flush_extends w.disk) rfl rfl (Nat.zero_le _)
  rw [List.append_nil] at hext
  exact hext.files rfl

theorem LogFiles.next {files : List Bytes} (h : LogFiles d files) (w : Wal) (capacity : ℕ)
    (hdisk : w.disk = (⟨walFileName files.length, capacity, []⟩,
      openAppend d (walFileName files.length)))
    (hseq : w.sequence = files.length) (hsize : w.fileSize = 0) : LogLayout w files [] := by
  have hnew : walFileName files.length ∉ d := by
    rw [h.names]
    rintro ⟨i, hi, he⟩
    have := walFileName_injective he
    omega
  have hnone : d.get (walFileName files.length) = none := (Directory.get_eq_none _ _).mpr hnew
  refine ⟨hseq.symm, ?_, ?_, ?_, ?_, ?_, ?_⟩
  · rw [hdisk, hseq]
  · intro n
    rw [hdisk, hseq]
    show n ∈ openAppend d (walFileName files.length) ↔ _
    rw [mem_openAppend, h.names]
    constructor
    · rintro (rfl | ⟨i, hi, rfl⟩)
      · exact ⟨files.length, le_rfl, rfl⟩
      · exact ⟨i, by omega, rfl⟩
    · rintro ⟨i, hi, rfl⟩
      rcases Nat.lt_or_ge i files.length with hlt | hge
      · exact .inr ⟨i, hlt, rfl⟩
      · exact .inl (by rw [show i = files.length by omega])
  · intro i bytes hi
    have hlt := (List.getElem?_eq_some_iff.mp hi).1
    have hne : walFileName i ≠ walFileName files.length := by
      intro he
      have := walFileName_injective he
      omega
    rw [hdisk]
    show ∃ f, (openAppend d _).get _ = some f ∧ _
    rw [openAppend_other _ _ _ hne]
    exact h.file i bytes hi
  · rw [hdisk]
    refine ⟨.empty, ?_, rfl⟩
    show (openAppend _ _).get _ = some _
    rw [openAppend_self, hnone]
    rfl
  · rw [hsize]
    rfl
  · rw [hdisk]
    exact Nat.zero_le _

theorem LogLayout.rotate (h : LogLayout w closed current) :
    LogLayout w.rotate (closed ++ [current]) [] := by
  have hlen : (closed ++ [current]).length = w.sequence + 1 := by
    rw [List.length_append, h.sequence]
    rfl
  refine h.flushed.next w.rotate w.config.bufferSize ?_ ?_ rfl
  · rw [hlen]
    rfl
  · rw [hlen]
    rfl

theorem LogLayout.syncAfterWrite (h : LogLayout w closed current) (now later : ℕ) :
    LogLayout (w.syncAfterWrite now later) closed current := by
  unfold Wal.syncAfterWrite
  split
  · exact h.syncFile _ rfl rfl rfl
  · split
    · exact h
    · dsimp only
      split
      · exact h.syncFile _ rfl rfl rfl
      · exact h.congr _ rfl rfl rfl

theorem LogLayout.append (h : LogLayout w closed current) (bytes : Bytes) :
    LogLayout { w with
      disk := BufWriter.writeAll w.disk bytes
      fileSize := w.fileSize + bytes.length } closed (current ++ bytes) :=
  h.extend _ bytes (BufWriter.writeAll_extends w.disk _ h.capacity) rfl rfl
    (BufWriter.writeAll_cap w.disk _ h.capacity)

theorem LogLayout.write (h : LogLayout w closed current) (crc : Bytes → UInt32) (record : WalRecord)
    (now later : ℕ) :
    if w.config.maxFileSize < current.length + (record.toBytes crc).length then
      LogLayout (w.write crc record now later) (closed ++ [current]) (record.toBytes crc)
    else LogLayout (w.write crc record now later) closed (current ++ record.toBytes crc) := by
  rw [← h.size]
  unfold Wal.write
  dsimp only
  split
  · exact ((h.rotate.append _).syncAfterWrite now later).congr _ rfl rfl rfl
  · exact ((h.append _).syncAfterWrite now later).congr _ rfl rfl rfl

theorem foldl_max_eq (xs : List ℕ) (a n : ℕ) (ha : a ≤ n) (hle : ∀ i ∈ xs, i ≤ n)
    (hn : a = n ∨ n ∈ xs) : xs.foldl max a = n := by
  induction xs generalizing a with
  | nil =>
    rcases hn with rfl | hn
    · rfl
    · exact absurd hn List.not_mem_nil
  | cons x xs ih =>
    have hx : x ≤ n := hle x List.mem_cons_self
    rw [List.foldl_cons]
    refine ih (max a x) (max_le ha hx) (fun i hi => hle i (List.mem_cons_of_mem _ hi)) ?_
    rcases hn with rfl | hn
    · exact .inl (max_eq_left hx)
    · rcases List.mem_cons.mp hn with rfl | hn
      · exact .inl (max_eq_right ha)
      · exact .inr hn

theorem LogFiles.maxSequence_eq (h : LogFiles d (closed ++ [current])) :
    (d.keys.filterMap parseWalFileName).foldl max 0 = closed.length := by
  have hlen : (closed ++ [current]).length = closed.length + 1 := by simp
  refine foldl_max_eq _ 0 closed.length (Nat.zero_le _) ?_ (.inr ?_)
  · intro i hi
    obtain ⟨name, hname, hp⟩ := List.mem_filterMap.mp hi
    obtain ⟨j, hj, rfl⟩ := (h.names name).mp (AList.mem_keys.mpr hname)
    rw [parseWalFileName_walFileName] at hp
    have hij : j = i := Option.some.inj hp
    omega
  · refine List.mem_filterMap.mpr ⟨walFileName closed.length, ?_, parseWalFileName_walFileName _⟩
    exact AList.mem_keys.mp ((h.names _).mpr ⟨closed.length, by omega, rfl⟩)

theorem LogFiles.open (h : LogFiles d (closed ++ [current])) (config : WalConfig) (now : ℕ) :
    if 32 * 1024 * 1024 < current.length then
      LogLayout (Wal.open config d now) (closed ++ [current]) []
    else LogLayout (Wal.open config d now) closed current := by
  have hlen : (closed ++ [current]).length = closed.length + 1 := by simp
  obtain ⟨f, hlast, hdata⟩ := h.file closed.length current (by simp)
  split
  · rename_i hbig
    have hfind : findOrCreateWalFile d = (walFileName (closed.length + 1), closed.length + 1) := by
      simp only [findOrCreateWalFile, h.maxSequence_eq, hlast, hdata, hbig, if_true]
    have hnew : walFileName (closed.length + 1) ∉ d := by
      rw [h.names]
      rintro ⟨i, hi, he⟩
      have := walFileName_injective he
      omega
    have hsize : (Wal.open config d now).fileSize = 0 := by
      simp only [Wal.open, hfind, openAppend_self, (Directory.get_eq_none _ _).mpr hnew]
      rfl
    refine h.next _ config.bufferSize ?_ ?_ hsize
    · rw [hlen]
      simp only [Wal.open, hfind]
    · rw [hlen]
      simp only [Wal.open, hfind]
  · rename_i hbig
    have hfind : findOrCreateWalFile d = (walFileName closed.length, closed.length) := by
      simp only [findOrCreateWalFile, h.maxSequence_eq, hlast, hdata, hbig, if_false]
    have hopen : openAppend d (walFileName closed.length) = d := by
      simp only [openAppend, hlast]
    have hdisk : (Wal.open config d now).disk =
        (⟨walFileName closed.length, config.bufferSize, []⟩, d) := by
      simp only [Wal.open, hfind, hopen]
    have hseq : (Wal.open config d now).sequence = closed.length := by
      simp only [Wal.open, hfind]
    refine ⟨hseq.symm, ?_, ?_, ?_, ?_, ?_, ?_⟩
    · rw [hdisk, hseq]
    · intro n
      rw [hdisk, hseq, h.names, hlen]
      simp only [Nat.lt_succ_iff]
    · intro i bytes hi
      have hlt := (List.getElem?_eq_some_iff.mp hi).1
      rw [hdisk]
      exact h.file i bytes (by rw [List.getElem?_append_left hlt, hi])
    · rw [hdisk]
      exact ⟨f, hlast, by simp [hdata]⟩
    · simp only [Wal.open, hfind, hopen, hlast, Option.map_some, Option.getD_some, hdata]
    · rw [hdisk]
      exact Nat.zero_le _

end Raw

section Spec
variable {crc : Bytes → UInt32} {w : Wal} {closed : List (List WalRecord)}
  {current : List WalRecord}

theorem walLayout_iff : WalLayout crc w closed current ↔
    LogLayout w (closed.map (encodeAll crc)) (encodeAll crc current) := by
  constructor
  · intro h
    refine ⟨by rw [List.length_map, h.sequence], h.path, h.names, fun i bytes hi => ?_, h.currentFile,
      h.size, h.capacity⟩
    rw [List.getElem?_map] at hi
    obtain ⟨seg, hseg, rfl⟩ := Option.map_eq_some_iff.mp hi
    exact h.closedFile i seg hseg
  · intro h
    refine ⟨by rw [← h.sequence, List.length_map], h.path, h.names, fun i seg hi => ?_, h.currentFile,
      h.size, h.capacity⟩
    exact h.closedFile i _ (by rw [List.getElem?_map, hi]; rfl)

theorem WalLayout.raw (h : WalLayout crc w closed current) :
    LogLayout w (closed.map (encodeAll crc)) (encodeAll crc current) := walLayout_iff.mp h

theorem WalLayout.syncFile (h : WalLayout crc w closed current) (w' : Wal)
    (hdisk : w'.disk = Xerv.syncFile w.disk) (hseq : w'.sequence = w.sequence)
    (hsize : w'.fileSize = w.fileSize) : WalLayout crc w' closed current :=
  walLayout_iff.mpr (h.raw.syncFile w' hdisk hseq hsize)

theorem map_encodeAll_snoc (closed : List (List WalRecord)) (current : List WalRecord) :
    closed.map (encodeAll crc) ++ [encodeAll crc current] =
      (closed ++ [current]).map (encodeAll crc) := by simp

theorem WalLayout.write (h : WalLayout crc w closed current) (record : WalRecord) (now later : ℕ) :
    ∃ closed' current', WalLayout crc (w.write crc record now later) closed' current' ∧
      WalGrown closed current closed' current' [record] := by
  have hbytes : encodeAll crc [record] = record.toBytes crc := by simp [encodeAll_cons]
  have hw := h.raw.write crc record now later
  split at hw
  · refine ⟨closed ++ [current], [record], walLayout_iff.mpr ?_, .inr ⟨[], [], by simp, by simp⟩⟩
    rwa [hbytes, ← map_encodeAll_snoc]
  · refine ⟨closed, current ++ [record], walLayout_iff.mpr ?_, .inl ⟨rfl, rfl⟩⟩
    rwa [encodeAll_append, hbytes]

theorem WalLayout.reopen (h : WalLayout crc w closed current) (config : WalConfig) (now : ℕ) :
    ∃ closed' current', WalLayout crc (Wal.open config w.drop now) closed' current' ∧
      WalGrown closed current closed' current' [] := by
  have hw := h.raw.flushed.open config now
  split at hw
  · refine ⟨closed ++ [current], [], walLayout_iff.mpr ?_, .inr ⟨[], [], by simp, by simp⟩⟩
    rwa [← map_encodeAll_snoc]
  · exact ⟨closed, current, walLayout_iff.mpr hw, WalGrown.refl closed current⟩

/-! ### The log over a run -/

theorem WalLayout.apply (h : WalLayout crc w closed current) (op : WalOp) :
    ∃ closed' current', WalLayout crc (op.apply crc w) closed' current' ∧
      WalGrown closed current closed' current' op.written.toList := by
  cases op with
  | write record now later => exact h.write record now later
  | flush => exact ⟨closed, current, h.syncFile _ rfl rfl rfl, WalGrown.refl closed current⟩
  | sync now => exact ⟨closed, current, h.syncFile _ rfl rfl rfl, WalGrown.refl closed current⟩
  | reopen config now => exact h.reopen config now

theorem WalLayout.run (h : WalLayout crc w closed current) (ops : List WalOp) :
    ∃ closed' current', WalLayout crc (runWal crc w ops) closed' current' ∧
      WalGrown closed current closed' current' (writtenBy ops) := by
  induction ops generalizing w closed current with
  | nil => exact ⟨closed, current, h, WalGrown.refl closed current⟩
  | cons op ops ih =>
    obtain ⟨c₁, r₁, h₁, g₁⟩ := h.apply op
    obtain ⟨c₂, r₂, h₂, g₂⟩ := ih h₁
    refine ⟨c₂, r₂, h₂, ?_⟩
    rw [writtenBy_cons]
    exact g₁.trans g₂

end Spec

theorem logFiles_empty : LogFiles ∅ [] := ⟨fun n => by simp, nofun⟩

theorem logFiles_single (f : DiskFile) :
    LogFiles ((∅ : FileDir).insert (walFileName 0) f) [f.data] := by
  refine ⟨fun n => ?_, fun i bytes hi => ?_⟩
  · rw [← Directory.get_isSome]
    by_cases hn : n = walFileName 0
    · rw [hn, Directory.get_insert_self]
      exact ⟨fun _ => ⟨0, Nat.one_pos, rfl⟩, fun _ => rfl⟩
    · rw [Directory.get_insert_ne _ _ _ _ hn, Directory.get_isSome]
      simp [hn]
  · cases i with
    | zero => exact ⟨f, Directory.get_insert_self _ _ _, by simpa using hi⟩
    | succ i => exact absurd hi (by simp)

theorem WalLayout.fresh (crc : Bytes → UInt32) (config : WalConfig) (now : ℕ) :
    WalLayout crc (Wal.open config ∅ now) [] [] := by
  have hfind : findOrCreateWalFile ∅ = (walFileName 0, 0) := rfl
  refine walLayout_iff.mpr (logFiles_empty.next _ config.bufferSize ?_ ?_ ?_)
  · simp only [Wal.open, hfind, List.length_nil]
  · simp only [Wal.open, hfind, List.length_nil]
  · simp only [Wal.open, hfind, openAppend_self]
    rfl

end Xerv
