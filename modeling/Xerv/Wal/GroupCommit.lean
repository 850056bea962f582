import Xerv.Wal.Reader

/-!
# Group commit (`xerv-core/src/wal/writer/wal.rs`, `group_commit.rs`)

The calls of `Wal` once more, now with every I/O operation free to fail, and a ledger of
the records handed to the file. A record is durable when its last byte is below the fsynced
length of its file. A rotation flushes the old file without syncing it, so records that are
pending at that moment are left behind: no later sync reaches them.
-/

namespace Xerv
open Xerv.Lib

/-! ### Calls that may fail -/

inductive SyncFault where
  | flush (written : ℕ)
  | syncData

inductive WriteFault where
  | rotateFlush (written : ℕ)
  | create
  | lock
  | writeAll (fault : BufWriter.WriteAllFault)
  | sync (fault : SyncFault)

def WriteFault.inWriteAll : WriteFault → Option BufWriter.WriteAllFault
  | .writeAll fault => some fault
  | _ => none

def WriteFault.inSync : WriteFault → Option SyncFault
  | .sync fault => some fault
  | _ => none

/-- What a call leaves: the log, whether it returned `Ok`, and how far it came. -/
structure Called where
  wal : Wal
  ok : Bool
  rotated : Bool
  appended : Bool
  synced : Bool

/-- `sync_file`. -/
def trySyncFile (disk : BufWriter.OnDisk) : Option SyncFault → BufWriter.OnDisk × Bool
  | some (.flush n) => (BufWriter.flushPartly disk n, false)
  | some .syncData => (BufWriter.flush disk, false)
  | none => (syncFile disk, true)

/-- `rotate_locked`. The sequence number is taken before the file is created, and kept on failure. -/
def Wal.tryRotate (w : Wal) : Option WriteFault → Wal × Bool
  | some (.rotateFlush n) => ({ w with disk := BufWriter.flushPartly w.disk n }, false)
  | some .create => ({ w with disk := BufWriter.flush w.disk, sequence := w.sequence + 1 }, false)
  | some .lock =>
    let disk := BufWriter.flush w.disk
    ({ w with
      disk := (disk.1, openAppend disk.2 (walFileName (w.sequence + 1)))
      sequence := w.sequence + 1 }, false)
  | _ => (w.rotate, true)

/-- The sync strategy of `write` on the record just handed over. -/
def Wal.trySyncAfterWrite (w : Wal) (fault : Option SyncFault) (now later : ℕ) : Called :=
  if w.config.syncOnWrite then
    match trySyncFile w.disk fault with
    | (disk, true) => ⟨{ w with disk := disk, recordCount := w.recordCount + 1 }, true, false, true, true⟩
    | (disk, false) => ⟨{ w with disk := disk }, false, false, true, false⟩
  else
    match w.groupCommit with
    | none => ⟨{ w with recordCount := w.recordCount + 1 }, true, false, true, false⟩
    | some (config, gc) =>
      let gc := gc.recordWrite
      if gc.shouldSync config now then
        match trySyncFile w.disk fault with
        | (disk, true) =>
          ⟨{ w with
            disk := disk
            groupCommit := some (config, .resetAfterSync later)
            recordCount := w.recordCount + 1 }, true, false, true, true⟩
        | (disk, false) => ⟨{ w with disk := disk, groupCommit := some (config, gc) }, false, false, true, false⟩
      else
        ⟨{ w with groupCommit := some (config, gc), recordCount := w.recordCount + 1 }, true, false, true, false⟩

def Wal.tryAppend (w : Wal) (bytes : Bytes) (fault : Option WriteFault) (now later : ℕ) : Called :=
  match BufWriter.tryWriteAll w.disk bytes (fault.bind WriteFault.inWriteAll) with
  | (disk, false) => ⟨{ w with disk := disk }, false, false, false, false⟩
  | (disk, true) =>
    { w with disk := disk, fileSize := w.fileSize + bytes.length }.trySyncAfterWrite
      (fault.bind WriteFault.inSync) now later

def Wal.tryWrite (crc : Bytes → UInt32) (w : Wal) (record : WalRecord) (fault : Option WriteFault)
    (now later : ℕ) : Called :=
  let bytes := record.toBytes crc
  if w.config.maxFileSize < w.fileSize + bytes.length then
    match w.tryRotate fault with
    | (w, false) => ⟨w, false, false, false, false⟩
    | (w, true) => { w.tryAppend bytes fault now later with rotated := true }
  else w.tryAppend bytes fault now later

def Wal.trySync (w : Wal) (fault : Option SyncFault) (now : ℕ) : Called :=
  match trySyncFile w.disk fault with
  | (disk, false) => ⟨{ w with disk := disk }, false, false, false, false⟩
  | (disk, true) =>
    ⟨{ w with
      disk := disk
      groupCommit := w.groupCommit.map fun (config, _) => (config, .resetAfterSync now) },
      true, false, false, true⟩

theorem Wal.trySyncAfterWrite_none (w : Wal) (now later : ℕ) :
    (w.trySyncAfterWrite none now later).wal =
      { w.syncAfterWrite now later with
        recordCount := (w.syncAfterWrite now later).recordCount + 1 } ∧
    (w.trySyncAfterWrite none now later).ok = true := by
  unfold trySyncAfterWrite syncAfterWrite
  by_cases hs : w.config.syncOnWrite = true
  · simp only [hs, if_true, trySyncFile, and_self]
  · cases hgc : w.groupCommit with
    | none => simp only [hs, hgc, if_false, Bool.false_eq_true, and_self]
    | some c =>
      by_cases hsync : c.2.recordWrite.shouldSync c.1 now = true
      · simp only [hs, hsync, if_true, if_false, Bool.false_eq_true, trySyncFile, and_self]
      · simp only [hs, hsync, if_false, Bool.false_eq_true, and_self]

theorem Wal.tryWrite_none (crc : Bytes → UInt32) (w : Wal) (record : WalRecord) (now later : ℕ) :
    (w.tryWrite crc record none now later).wal = w.write crc record now later ∧
      (w.tryWrite crc record none now later).ok = true := by
  have happend (w : Wal) (bytes : Bytes) : BufWriter.tryWriteAll w.disk bytes none =
      (BufWriter.writeAll w.disk bytes, true) := by
    simp only [BufWriter.tryWriteAll, BufWriter.writeAll]
    split
    · rfl
    · rfl
  unfold tryWrite write tryAppend
  dsimp only
  split
  · simp only [tryRotate, happend, Option.bind_none, trySyncAfterWrite_none, and_self]
  · simp only [happend, Option.bind_none, trySyncAfterWrite_none, and_self]

theorem Wal.trySync_none (w : Wal) (now : ℕ) :
    (w.trySync none now).wal = w.sync now ∧ (w.trySync none now).ok = true := ⟨rfl, rfl⟩

/-! ### The ledger -/

/-- A record in the log: its file and the position behind its last byte. -/
structure Written where
  file : String
  stop : ℕ
  deriving DecidableEq

def fsynced (d : FileDir) (e : Written) : Bool := (d.get e.file).any fun f => e.stop ≤ f.synced

structure Journal where
  wal : Wal
  written : List Written

inductive WalCall where
  | write (record : WalRecord) (fault : Option WriteFault) (now later : ℕ)
  | sync (fault : Option SyncFault) (now : ℕ)

def WalCall.perform (crc : Bytes → UInt32) (w : Wal) : WalCall → Called
  | .write record fault now later => w.tryWrite crc record fault now later
  | .sync fault now => w.trySync fault now

def Called.record (r : Called) (written : List Written) : List Written :=
  if r.appended then written ++ [⟨r.wal.disk.1.path, BufWriter.accepted r.wal.disk⟩] else written

def Journal.call (crc : Bytes → UInt32) (j : Journal) (c : WalCall) : Journal :=
  let r := c.perform crc j.wal
  ⟨r.wal, r.record j.written⟩

def Journal.run (crc : Bytes → UInt32) (j : Journal) (calls : List WalCall) : Journal :=
  calls.foldl (Journal.call crc) j

def unsyncedIn (d : FileDir) (written : List Written) : List Written :=
  written.filter fun e => !fsynced d e

def Journal.unsynced (j : Journal) : List Written := unsyncedIn j.wal.disk.2 j.written

/-- The call rotates away from a file that holds an unsynced record. -/
def Journal.strands (crc : Bytes → UInt32) (j : Journal) (c : WalCall) : Bool :=
  (c.perform crc j.wal).rotated && j.unsynced.any fun e => e.file = j.wal.disk.1.path

/-- Some call syncs at or after one that strands a record. -/
def lateSync (crc : Bytes → UInt32) : Bool → Journal → List WalCall → Bool
  | _, _, [] => false
  | stranded, j, c :: calls =>
    let stranded := stranded || j.strands crc c
    ((c.perform crc j.wal).synced && stranded) || lateSync crc stranded (j.call crc c) calls

/-- The promise of one call: a sync that succeeded leaves nothing unsynced, and in group-commit mode
a write that succeeded leaves less than a batch. -/
structure DurableCall (crc : Bytes → UInt32) (j : Journal) (c : WalCall) : Prop where
  synced : (c.perform crc j.wal).synced = true → (j.call crc c).unsynced = []
  batch : (c.perform crc j.wal).appended = true → (c.perform crc j.wal).ok = true →
    j.wal.config.syncOnWrite = false →
      ∀ config gc, (j.call crc c).wal.groupCommit = some (config, gc) → 1 ≤ config.maxBatchSize →
        (j.call crc c).unsynced.length < config.maxBatchSize

/-! ### What one call does -/

/-- A call within one file. -/
structure CallEffect (w : Wal) (r : Called) : Prop where
  disk : ∃ n, BufWriter.Advances w.disk r.wal.disk n
  sequence : r.wal.sequence = w.sequence
  config : r.wal.config = w.config
  rotated : r.rotated = false
  synced : r.synced = true → ∃ s, r.wal.disk = syncFile s
  pending : w.config.syncOnWrite = false → ∀ config gc', r.wal.groupCommit = some (config, gc') →
    ∃ gc, w.groupCommit = some (config, gc) ∧
      (r.synced = false → gc'.pendingWrites = gc.pendingWrites + r.appended.toNat) ∧
      (r.synced = false → r.appended = true → r.ok = true → gc'.pendingWrites < config.maxBatchSize)

theorem syncFile_advances (disk : BufWriter.OnDisk) : BufWriter.Advances disk (syncFile disk) 0 :=
  (BufWriter.flush_advances disk).trans (BufWriter.syncData_advances _)

theorem trySyncFile_advances (disk : BufWriter.OnDisk) (fault : Option SyncFault) :
    BufWriter.Advances disk (trySyncFile disk fault).1 0 := by
  cases fault with
  | none => exact syncFile_advances disk
  | some f =>
    cases f with
    | flush n => exact BufWriter.flushPartly_advances disk n
    | syncData => exact BufWriter.flush_advances disk

theorem trySyncFile_ok (disk disk' : BufWriter.OnDisk) (fault : Option SyncFault)
    (h : trySyncFile disk fault = (disk', true)) : disk' = syncFile disk := by
  cases fault with
  | none => exact (congrArg Prod.fst h).symm
  | some f =>
    cases f with
    | flush n => exact absurd (congrArg Prod.snd h) Bool.false_ne_true
    | syncData => exact absurd (congrArg Prod.snd h) Bool.false_ne_true

theorem Wal.trySyncAfterWrite_effect (w : Wal) (fault : Option SyncFault) (now later : ℕ) :
    CallEffect w (w.trySyncAfterWrite fault now later) := by
  have hstay : BufWriter.Advances w.disk w.disk 0 :=
    ⟨rfl, fun _ _ => rfl, fun f hf hle => ⟨f, hf, le_rfl, hle, rfl⟩⟩
  have hadv := trySyncFile_advances w.disk fault
  have hok := fun disk => trySyncFile_ok w.disk disk fault
  unfold trySyncAfterWrite
  by_cases hs : w.config.syncOnWrite = true
  · have hmode : ¬ w.config.syncOnWrite = false := by simp [hs]
    rw [if_pos hs]
    cases ht : trySyncFile w.disk fault with
    | mk disk ok =>
      rw [ht] at hadv
      cases ok with
      | true =>
        exact ⟨⟨0, hadv⟩, rfl, rfl, rfl, fun _ => ⟨w.disk, hok disk ht⟩, fun h => absurd h hmode⟩
      | false => exact ⟨⟨0, hadv⟩, rfl, rfl, rfl, nofun, fun h => absurd h hmode⟩
  · rw [if_neg hs]
    cases hgc : w.groupCommit with
    | none => exact ⟨⟨0, hstay⟩, rfl, rfl, rfl, nofun, fun _ config gc h => absurd h nofun⟩
    | some c =>
      obtain ⟨config, gc⟩ := c
      dsimp only
      split
      · cases ht : trySyncFile w.disk fault with
        | mk disk ok =>
          rw [ht] at hadv
          cases ok with
          | true =>
            refine ⟨⟨0, hadv⟩, rfl, rfl, rfl, fun _ => ⟨w.disk, hok disk ht⟩, fun _ c g h => ?_⟩
            cases h
            exact ⟨gc, hgc, nofun, nofun⟩
          | false =>
            refine ⟨⟨0, hadv⟩, rfl, rfl, rfl, nofun, fun _ c g h => ?_⟩
            cases h
            exact ⟨gc, hgc, fun _ => rfl, fun _ _ => nofun⟩
      · rename_i hwait
        refine ⟨⟨0, hstay⟩, rfl, rfl, rfl, nofun, fun _ c g h => ?_⟩
        cases h
        refine ⟨gc, hgc, fun _ => rfl, fun _ _ _ => ?_⟩
        -- the batch is not full, or a sync would have been due
        simp only [GroupCommitState.shouldSync, Bool.or_eq_true, decide_eq_true_eq, not_or] at hwait
        omega

theorem tryWriteAll_advances (disk : BufWriter.OnDisk) (bytes : Bytes)
    (fault : Option BufWriter.WriteAllFault) :
    ∃ n, BufWriter.Advances disk (BufWriter.tryWriteAll disk bytes fault).1 n := by
  have hall := BufWriter.writeAll_advances disk bytes
  unfold BufWriter.tryWriteAll
  dsimp only
  split
  · exact ⟨_, BufWriter.buffer_advances disk bytes⟩
  · split
    · split
      · exact ⟨_, BufWriter.flushPartly_advances disk _⟩
      · exact ⟨_, hall⟩
    · split_ifs
      · exact ⟨_, (BufWriter.flush_advances disk).trans (BufWriter.direct_advances _ _)⟩
      · exact ⟨_, hall⟩
      · exact ⟨_, BufWriter.direct_advances disk _⟩
      · exact ⟨_, hall⟩
    · exact ⟨_, hall⟩

theorem Wal.tryAppend_effect (w : Wal) (bytes : Bytes) (fault : Option WriteFault) (now later : ℕ) :
    CallEffect w (w.tryAppend bytes fault now later) := by
  obtain ⟨n, hn⟩ := tryWriteAll_advances w.disk bytes (fault.bind WriteFault.inWriteAll)
  unfold tryAppend
  cases ht : BufWriter.tryWriteAll w.disk bytes (fault.bind WriteFault.inWriteAll) with
  | mk disk ok =>
    rw [ht] at hn
    cases ok with
    | false => exact ⟨⟨n, hn⟩, rfl, rfl, rfl, nofun, fun _ config gc h => ⟨gc, h, fun _ => rfl, nofun⟩⟩
    | true =>
      have heffect := trySyncAfterWrite_effect
        { w with disk := disk, fileSize := w.fileSize + bytes.length } (fault.bind WriteFault.inSync)
        now later
      obtain ⟨m, hm⟩ := heffect.disk
      exact ⟨⟨n + m, hn.trans hm⟩, heffect.sequence, heffect.config, heffect.rotated, heffect.synced,
        heffect.pending⟩

theorem Wal.trySync_effect (w : Wal) (fault : Option SyncFault) (now : ℕ) :
    CallEffect w (w.trySync fault now) := by
  have hadv := trySyncFile_advances w.disk fault
  have hok := fun disk => trySyncFile_ok w.disk disk fault
  unfold trySync
  cases ht : trySyncFile w.disk fault with
  | mk disk ok =>
    rw [ht] at hadv
    cases ok with
    | false => exact ⟨⟨0, hadv⟩, rfl, rfl, rfl, nofun, fun _ config gc h => ⟨gc, h, fun _ => rfl, nofun⟩⟩
    | true =>
      refine ⟨⟨0, hadv⟩, rfl, rfl, rfl, fun _ => ⟨w.disk, hok disk ht⟩, fun _ config gc h => ?_⟩
      obtain ⟨c, hc, heq⟩ := Option.map_eq_some_iff.mp h
      cases heq
      exact ⟨c.2, hc, nofun, nofun⟩

/-! ### The invariant -/

/-- The ledger against the disk. Until a record is stranded, every unsynced one is in the current
file; afterwards there is always one in an earlier file. -/
structure Ledger (disk : BufWriter.OnDisk) (sequence : ℕ) (written : List Written) (stranded : Bool) :
    Prop where
  sane : ∀ n f, disk.2.get n = some f → f.synced ≤ f.data.length
  current : ∃ k ≤ sequence, disk.1.path = walFileName k
  opened : ∃ f, disk.2.get disk.1.path = some f
  known : ∀ e ∈ written, ∃ k ≤ sequence, e.file = walFileName k
  bound : ∀ e ∈ written, e.file = disk.1.path → e.stop ≤ BufWriter.accepted disk
  settled : stranded = false → ∀ e ∈ written, fsynced disk.2 e = false → e.file = disk.1.path
  left : stranded = true → ∃ e ∈ written, fsynced disk.2 e = false ∧ e.file ≠ disk.1.path

theorem openAppend_sane {d : FileDir} {path name : String} {f : DiskFile}
    (hd : ∀ n f, d.get n = some f → f.synced ≤ f.data.length)
    (hf : (openAppend d path).get name = some f) : f.synced ≤ f.data.length := by
  by_cases hn : name = path
  · rw [hn, openAppend_self] at hf
    cases hget : d.get path with
    | none =>
      rw [hget] at hf
      cases hf
      exact le_rfl
    | some g =>
      rw [hget] at hf
      cases hf
      exact hd _ _ hget
  · rw [openAppend_other _ _ _ hn] at hf
    exact hd name f hf

section Ledger
variable {disk disk' : BufWriter.OnDisk} {sequence n : ℕ} {written : List Written} {stranded : Bool}

theorem Ledger.fsynced_mono (h : Ledger disk sequence written stranded)
    (hadv : BufWriter.Advances disk disk' n) (e : Written) (he : fsynced disk.2 e = true) :
    fsynced disk'.2 e = true := by
  unfold fsynced at he ⊢
  by_cases hp : e.file = disk.1.path
  · obtain ⟨f, hf⟩ := h.opened
    obtain ⟨f', hf', hmono, _, _⟩ := hadv.file f hf (h.sane _ f hf)
    rw [hp, hf] at he
    rw [hp, hf']
    have hle : e.stop ≤ f.synced := by simpa using he
    simpa using hle.trans hmono
  · rwa [hadv.others _ hp]

theorem Ledger.accepted_advances (h : Ledger disk sequence written stranded)
    (hadv : BufWriter.Advances disk disk' n) :
    BufWriter.accepted disk' = BufWriter.accepted disk + n := by
  obtain ⟨f, hf⟩ := h.opened
  obtain ⟨f', hf', _, _, hlen⟩ := hadv.file f hf (h.sane _ f hf)
  simp only [BufWriter.accepted, hadv.path, hf, hf', Option.map_some, Option.getD_some]
  exact hlen

theorem Ledger.advances (h : Ledger disk sequence written stranded)
    (hadv : BufWriter.Advances disk disk' n) : Ledger disk' sequence written stranded := by
  obtain ⟨f, hf⟩ := h.opened
  obtain ⟨f', hf', hmono, hle, hlen⟩ := hadv.file f hf (h.sane _ f hf)
  refine ⟨fun name g hg => ?_, ?_, ?_, h.known, fun e he hp => ?_, fun hs e he hno => ?_, fun hs => ?_⟩
  · by_cases hp : name = disk.1.path
    · rw [hp, hf'] at hg
      cases hg
      exact hle
    · rw [hadv.others _ hp] at hg
      exact h.sane name g hg
  · rw [hadv.path]
    exact h.current
  · rw [hadv.path]
    exact ⟨f', hf'⟩
  · rw [hadv.path] at hp
    have := h.bound e he hp
    have := h.accepted_advances hadv
    omega
  · rw [hadv.path]
    refine h.settled hs e he ?_
    by_contra hyes
    rw [h.fsynced_mono hadv e (by simpa using hyes)] at hno
    cases hno
  · obtain ⟨e, he, hno, hp⟩ := h.left hs
    refine ⟨e, he, ?_, by rwa [hadv.path]⟩
    unfold fsynced at hno ⊢
    rwa [hadv.others _ hp]

theorem Ledger.append (h : Ledger disk sequence written stranded) :
    Ledger disk sequence (written ++ [⟨disk.1.path, BufWriter.accepted disk⟩]) stranded := by
  have hmem (e : Written) (he : e ∈ written ++ [⟨disk.1.path, BufWriter.accepted disk⟩]) :
      e ∈ written ∨ e = ⟨disk.1.path, BufWriter.accepted disk⟩ := by simpa using he
  refine ⟨h.sane, h.current, h.opened, fun e he => ?_, fun e he hp => ?_, fun hs e he hno => ?_,
    fun hs => ?_⟩
  · rcases hmem e he with he | rfl
    · exact h.known e he
    · exact h.current
  · rcases hmem e he with he | rfl
    · exact h.bound e he hp
    · exact le_rfl
  · rcases hmem e he with he | rfl
    · exact h.settled hs e he hno
    · rfl
  · obtain ⟨e, he, hno, hp⟩ := h.left hs
    exact ⟨e, List.mem_append_left _ he, hno, hp⟩

theorem Ledger.name_ne (h : Ledger disk sequence written stranded) (e : Written) (he : e ∈ written) :
    e.file ≠ walFileName (sequence + 1) := by
  obtain ⟨k, hk, hfile⟩ := h.known e he
  rw [hfile]
  intro heq
  have := walFileName_injective heq
  omega

theorem Ledger.path_ne_next (h : Ledger disk sequence written stranded) :
    disk.1.path ≠ walFileName (sequence + 1) := by
  obtain ⟨k, hk, hpath⟩ := h.current
  rw [hpath]
  intro heq
  have := walFileName_injective heq
  omega

theorem Ledger.fsynced_create (h : Ledger disk sequence written stranded) (e : Written)
    (he : e ∈ written) :
    fsynced (openAppend disk.2 (walFileName (sequence + 1))) e = fsynced disk.2 e := by
  unfold fsynced
  rw [openAppend_other _ _ _ (h.name_ne e he)]

theorem Ledger.sane_create (h : Ledger disk sequence written stranded) (name : String) (f : DiskFile)
    (hf : (openAppend disk.2 (walFileName (sequence + 1))).get name = some f) :
    f.synced ≤ f.data.length := openAppend_sane h.sane hf

theorem Ledger.skip (h : Ledger disk sequence written stranded) :
    Ledger disk (sequence + 1) written stranded := by
  refine ⟨h.sane, ?_, h.opened, fun e he => ?_, h.bound, h.settled, h.left⟩
  · obtain ⟨k, hk, hpath⟩ := h.current
    exact ⟨k, by omega, hpath⟩
  · obtain ⟨k, hk, hfile⟩ := h.known e he
    exact ⟨k, by omega, hfile⟩

theorem Ledger.create (h : Ledger disk sequence written stranded) :
    Ledger (disk.1, openAppend disk.2 (walFileName (sequence + 1))) (sequence + 1) written stranded := by
  have hother : (openAppend disk.2 (walFileName (sequence + 1))).get disk.1.path =
      disk.2.get disk.1.path := openAppend_other _ _ _ h.path_ne_next
  obtain ⟨hsane, hcurrent, hopened, hknown, hbound, hsettled, hleft⟩ := h.skip
  refine ⟨h.sane_create, hcurrent, ?_, hknown, fun e he hp => ?_, fun hs e he hno => ?_, fun hs => ?_⟩
  · show ∃ f, (openAppend disk.2 (walFileName (sequence + 1))).get disk.1.path = some f
    rw [hother]
    exact hopened
  · have := hbound e he hp
    simp only [BufWriter.accepted, hother] at this ⊢
    exact this
  · exact hsettled hs e he (by rwa [h.fsynced_create e he] at hno)
  · obtain ⟨e, he, hno, hp⟩ := hleft hs
    exact ⟨e, he, by rwa [h.fsynced_create e he], hp⟩

theorem Ledger.switch (h : Ledger disk sequence written stranded) (capacity : ℕ) :
    Ledger (⟨walFileName (sequence + 1), capacity, []⟩, openAppend disk.2 (walFileName (sequence + 1)))
      (sequence + 1) written
      (stranded || (unsyncedIn disk.2 written).any fun e => e.file = disk.1.path) := by
  refine ⟨h.sane_create, ⟨_, le_rfl, rfl⟩, ?_, h.skip.known, fun e he hp => ?_, fun hs e he hno => ?_,
    fun hs => ?_⟩
  · exact ⟨_, openAppend_self _ _⟩
  · exact absurd hp (h.name_ne e he)
  · -- nothing was unsynced
    obtain ⟨hb, hnone⟩ := Bool.or_eq_false_iff.mp hs
    rw [h.fsynced_create e he] at hno
    have hmem : e ∈ unsyncedIn disk.2 written := List.mem_filter.mpr ⟨he, by simp [hno]⟩
    have := List.any_eq_false.mp hnone e hmem
    exact absurd (h.settled hb e he hno) (by simpa using this)
  · rcases Bool.or_eq_true_iff.mp hs with hb | hany
    · obtain ⟨e, he, hno, _⟩ := h.left hb
      exact ⟨e, he, by rwa [h.fsynced_create e he], h.name_ne e he⟩
    · obtain ⟨e, hmem, _⟩ := List.any_eq_true.mp hany
      obtain ⟨he, hno⟩ := List.mem_filter.mp hmem
      exact ⟨e, he, by rw [h.fsynced_create e he]; simpa using hno, h.name_ne e he⟩

end Ledger

/-! ### The counter -/

/-- In group-commit mode the counter covers every unsynced record. -/
def Counted (w : Wal) (written : List Written) : Prop :=
  w.config.syncOnWrite = false → ∀ config gc, w.groupCommit = some (config, gc) →
    (unsyncedIn w.disk.2 written).length ≤ gc.pendingWrites

section Counter
variable {disk disk' : BufWriter.OnDisk} {sequence n : ℕ} {written : List Written} {stranded : Bool}

theorem Ledger.unsynced_advances (h : Ledger disk sequence written stranded)
    (hadv : BufWriter.Advances disk disk' n) :
    (unsyncedIn disk'.2 written).length ≤ (unsyncedIn disk.2 written).length := by
  unfold unsyncedIn
  rw [← List.countP_eq_length_filter, ← List.countP_eq_length_filter]
  refine List.countP_mono_left fun e _ hno => ?_
  by_contra hyes
  rw [h.fsynced_mono hadv e (by simpa using hyes)] at hno
  cases hno

theorem Ledger.unsynced_create (h : Ledger disk sequence written stranded) :
    unsyncedIn (openAppend disk.2 (walFileName (sequence + 1))) written = unsyncedIn disk.2 written := by
  refine List.filter_congr fun e he => ?_
  rw [h.fsynced_create e he]

theorem unsyncedIn_flush (disk : BufWriter.OnDisk) (written : List Written) :
    unsyncedIn (BufWriter.flush disk).2 written = unsyncedIn disk.2 written := by
  refine List.filter_congr fun e _ => ?_
  have hsame : fsynced (BufWriter.flush disk).2 e = fsynced disk.2 e := by
    unfold fsynced BufWriter.flush
    by_cases hp : e.file = disk.1.path
    · rw [hp, modifyFile_self, Option.any_map]
    · rw [modifyFile_other _ _ _ _ hp]
  rw [hsame]

theorem Ledger.fsynced_syncFile {s : BufWriter.OnDisk}
    (h : Ledger (syncFile s) sequence written stranded) (e : Written) (he : e ∈ written)
    (hp : e.file = (syncFile s).1.path) : fsynced (syncFile s).2 e = true := by
  obtain ⟨f, hf⟩ := h.opened
  have hsynced : f.synced = f.data.length := by
    have hf' : (modifyFile (BufWriter.flush s).2 s.1.path fun f =>
        { f with synced := f.data.length }).get s.1.path = some f := hf
    rw [modifyFile_self] at hf'
    obtain ⟨g, _, rfl⟩ := Option.map_eq_some_iff.mp hf'
    rfl
  have hstop := h.bound e he hp
  have haccepted : BufWriter.accepted (syncFile s) = f.data.length := by
    simp only [BufWriter.accepted, hf, Option.map_some, Option.getD_some]
    rfl
  unfold fsynced
  rw [hp, hf, Option.any_some, decide_eq_true_eq]
  omega

theorem unsyncedIn_eq_nil (d : FileDir) (written : List Written) :
    unsyncedIn d written = [] ↔ ∀ e ∈ written, fsynced d e = true := by
  simp [unsyncedIn, List.filter_eq_nil_iff]

theorem Ledger.unsynced_syncFile {s : BufWriter.OnDisk} (h : Ledger (syncFile s) sequence written false) :
    unsyncedIn (syncFile s).2 written = [] := by
  refine (unsyncedIn_eq_nil _ _).mpr fun e he => ?_
  by_contra hno
  have hno' : fsynced (syncFile s).2 e = false := by simpa using hno
  exact hno (h.fsynced_syncFile e he (h.settled rfl e he hno'))

theorem Ledger.unsynced_ne_nil (h : Ledger disk sequence written true) :
    unsyncedIn disk.2 written ≠ [] := by
  obtain ⟨e, he, hno, _⟩ := h.left rfl
  intro hnil
  rw [(unsyncedIn_eq_nil _ _).mp hnil e he] at hno
  cases hno

end Counter

section Effect
variable {w : Wal} {r : Called} {written : List Written} {stranded : Bool}

theorem CallEffect.ledger (heffect : CallEffect w r) (h : Ledger w.disk w.sequence written stranded) :
    Ledger r.wal.disk r.wal.sequence (r.record written) stranded := by
  obtain ⟨n, hadv⟩ := heffect.disk
  have hl := h.advances hadv
  rw [heffect.sequence]
  unfold Called.record
  split
  · exact hl.append
  · exact hl

theorem CallEffect.unsynced_le (heffect : CallEffect w r)
    (h : Ledger w.disk w.sequence written stranded) :
    (unsyncedIn r.wal.disk.2 (r.record written)).length ≤
      (unsyncedIn w.disk.2 written).length + r.appended.toNat := by
  obtain ⟨n, hadv⟩ := heffect.disk
  have hle := h.unsynced_advances hadv
  unfold Called.record
  cases happ : r.appended with
  | false => simpa using hle
  | true =>
    have hone : (unsyncedIn r.wal.disk.2
        [⟨r.wal.disk.1.path, BufWriter.accepted r.wal.disk⟩]).length ≤ 1 :=
      List.length_filter_le _ _
    have hsplit : unsyncedIn r.wal.disk.2
        (written ++ [⟨r.wal.disk.1.path, BufWriter.accepted r.wal.disk⟩]) =
          unsyncedIn r.wal.disk.2 written ++ unsyncedIn r.wal.disk.2
            [⟨r.wal.disk.1.path, BufWriter.accepted r.wal.disk⟩] := List.filter_append _ _
    rw [if_pos rfl, hsplit, List.length_append]
    have : true.toNat = 1 := rfl
    omega

theorem CallEffect.synced_nil (heffect : CallEffect w r)
    (h : Ledger w.disk w.sequence written false) (hsynced : r.synced = true) :
    unsyncedIn r.wal.disk.2 (r.record written) = [] := by
  obtain ⟨s, hs⟩ := heffect.synced hsynced
  have hl := heffect.ledger h
  rw [hs] at hl ⊢
  exact hl.unsynced_syncFile

theorem CallEffect.counted (heffect : CallEffect w r) (h : Ledger w.disk w.sequence written stranded)
    (hc : Counted w written) (hlate : r.synced = true → stranded = false) :
    Counted r.wal (r.record written) := by
  intro hmode config gc' hgc'
  rw [heffect.config] at hmode
  cases hsynced : r.synced with
  | true =>
    have hb := hlate hsynced
    subst hb
    rw [heffect.synced_nil h hsynced]
    exact Nat.zero_le _
  | false =>
    have hle := heffect.unsynced_le h
    obtain ⟨gc, hgc, hpend, _⟩ := heffect.pending hmode config gc' hgc'
    have hold := hc hmode config gc hgc
    have hnew := hpend hsynced
    omega

end Effect

/-! ### Calls and runs -/

/-- What a call does to a journal whose ledger is in order; `stranded` is the state after it. -/
structure CallSpec (crc : Bytes → UInt32) (j : Journal) (c : WalCall) (stranded : Bool) : Prop where
  ledger : Ledger (j.call crc c).wal.disk (j.call crc c).wal.sequence (j.call crc c).written stranded
  synced : (c.perform crc j.wal).synced = true → stranded = false → (j.call crc c).unsynced = []
  counted : Counted j.wal j.written → ((c.perform crc j.wal).synced = true → stranded = false) →
    Counted (j.call crc c).wal (j.call crc c).written
  config : (j.call crc c).wal.config = j.wal.config
  batch : (c.perform crc j.wal).synced = false → (c.perform crc j.wal).appended = true →
    (c.perform crc j.wal).ok = true → j.wal.config.syncOnWrite = false →
      ∀ config gc, (j.call crc c).wal.groupCommit = some (config, gc) →
        gc.pendingWrites < config.maxBatchSize

section Calls
variable {crc : Bytes → UInt32} {j : Journal} {stranded : Bool}

theorem CallEffect.spec {c : WalCall} (heffect : CallEffect j.wal (c.perform crc j.wal))
    (h : Ledger j.wal.disk j.wal.sequence j.written stranded) :
    CallSpec crc j c (stranded || j.strands crc c) := by
  have hstay : (stranded || j.strands crc c) = stranded := by
    unfold Journal.strands
    rw [heffect.rotated, Bool.false_and, Bool.or_false]
  rw [hstay]
  refine ⟨heffect.ledger h, fun hs hb => ?_, fun hc hlate => heffect.counted h hc hlate,
    heffect.config, fun hs happ hok hmode config gc hgc => ?_⟩
  · subst hb
    exact heffect.synced_nil h hs
  · obtain ⟨_, _, _, hlt⟩ := heffect.pending hmode config gc hgc
    exact hlt hs happ hok

theorem Ledger.rotate {w : Wal} {written : List Written}
    (h : Ledger w.disk w.sequence written stranded) :
    Ledger w.rotate.disk w.rotate.sequence written
      (stranded || (unsyncedIn w.disk.2 written).any fun e => e.file = w.disk.1.path) := by
  have hflush := (h.advances (BufWriter.flush_advances w.disk)).switch w.config.bufferSize
  rw [unsyncedIn_flush] at hflush
  exact hflush

theorem counted_rotate {w : Wal} {written : List Written}
    (h : Ledger w.disk w.sequence written stranded) (hc : Counted w written) :
    Counted w.rotate written := by
  intro hmode config gc hgc
  have hflush := h.advances (BufWriter.flush_advances w.disk)
  have hsame : unsyncedIn w.rotate.disk.2 written = unsyncedIn w.disk.2 written := by
    show unsyncedIn (openAppend (BufWriter.flush w.disk).2 (walFileName (w.sequence + 1))) written = _
    rw [hflush.unsynced_create, unsyncedIn_flush]
  rw [Wal.rotate_config] at hmode
  rw [Wal.rotate_groupCommit] at hgc
  rw [hsame]
  exact hc hmode config gc hgc

theorem tryRotate_failed (w w' : Wal) (written : List Written) (fault : Option WriteFault)
    (ht : w.tryRotate fault = (w', false)) (h : Ledger w.disk w.sequence written stranded) :
    Ledger w'.disk w'.sequence written stranded ∧ w'.config = w.config ∧
      (Counted w written → Counted w' written) := by
  have hflush := h.advances (BufWriter.flush_advances w.disk)
  have hsame := unsyncedIn_flush w.disk written
  unfold Wal.tryRotate at ht
  split at ht
  · cases ht
    have hadv := BufWriter.flushPartly_advances w.disk ‹ℕ›
    refine ⟨h.advances hadv, rfl, fun hc hmode config gc hgc => ?_⟩
    exact (h.unsynced_advances hadv).trans (hc hmode config gc hgc)
  · cases ht
    refine ⟨hflush.skip, rfl, fun hc hmode config gc hgc => ?_⟩
    rw [hsame]
    exact hc hmode config gc hgc
  · cases ht
    refine ⟨hflush.create, rfl, fun hc hmode config gc hgc => ?_⟩
    show (unsyncedIn (openAppend (BufWriter.flush w.disk).2 (walFileName (w.sequence + 1)))
      written).length ≤ _
    rw [hflush.unsynced_create, hsame]
    exact hc hmode config gc hgc
  · exact absurd (congrArg Prod.snd ht) nofun

theorem tryRotate_ok (w w' : Wal) (fault : Option WriteFault) (ht : w.tryRotate fault = (w', true)) :
    w' = w.rotate := by
  unfold Wal.tryRotate at ht
  split at ht
  · cases ht
  · cases ht
  · cases ht
  · exact (congrArg Prod.fst ht).symm

theorem call_spec (c : WalCall) (h : Ledger j.wal.disk j.wal.sequence j.written stranded) :
    CallSpec crc j c (stranded || j.strands crc c) := by
  cases c with
  | sync fault now => exact (j.wal.trySync_effect fault now).spec h
  | write record fault now later =>
    by_cases hfull : j.wal.config.maxFileSize < j.wal.fileSize + (record.toBytes crc).length
    · cases ht : j.wal.tryRotate fault with
      | mk w ok =>
        cases ok with
        | false =>
          have hperform : (WalCall.write record fault now later).perform crc j.wal =
              ⟨w, false, false, false, false⟩ := by
            simp only [WalCall.perform, Wal.tryWrite, if_pos hfull, ht]
          obtain ⟨hl, hconfig, hcount⟩ := tryRotate_failed j.wal w j.written fault ht h
          unfold Journal.strands
          refine ⟨?_, ?_, ?_, ?_, ?_⟩
          all_goals simp only [Journal.call, hperform, Called.record, Bool.false_and, Bool.or_false,
            Bool.false_eq_true, if_false]
          · exact hl
          · exact fun hno => absurd hno nofun
          · exact fun hc _ => hcount hc
          · exact hconfig
          · exact fun _ hno => absurd hno nofun
        | true =>
          have hw := tryRotate_ok j.wal w fault ht
          subst hw
          have heffect := j.wal.rotate.tryAppend_effect (record.toBytes crc) fault now later
          have hperform : (WalCall.write record fault now later).perform crc j.wal =
              { j.wal.rotate.tryAppend (record.toBytes crc) fault now later with rotated := true } := by
            simp only [WalCall.perform, Wal.tryWrite, if_pos hfull, ht]
          have hl := h.rotate
          unfold Journal.strands
          refine ⟨?_, ?_, ?_, ?_, ?_⟩
          all_goals simp only [Journal.call, hperform, Bool.true_and]
          · exact heffect.ledger hl
          · intro hs hb
            rw [show (j.unsynced.any fun e => e.file = j.wal.disk.1.path) =
              ((unsyncedIn j.wal.disk.2 j.written).any fun e => e.file = j.wal.disk.1.path) from rfl]
              at hb
            rw [hb] at hl
            exact heffect.synced_nil hl hs
          · exact fun hc hlate => heffect.counted hl (counted_rotate h hc) hlate
          · exact heffect.config.trans (Wal.rotate_config _)
          · intro hs happ hok hmode config gc hgc
            obtain ⟨_, _, _, hlt⟩ := heffect.pending hmode config gc hgc
            exact hlt hs happ hok
    · have heffect := j.wal.tryAppend_effect (record.toBytes crc) fault now later
      have hperform : (WalCall.write record fault now later).perform crc j.wal =
          j.wal.tryAppend (record.toBytes crc) fault now later := by
        simp only [WalCall.perform, Wal.tryWrite, if_neg hfull]
      exact CallEffect.spec (hperform ▸ heffect) h

/-- The promise of a call is kept exactly when it does not sync past a stranded record. -/
theorem CallSpec.durable_iff {c : WalCall} (hspec : CallSpec crc j c stranded)
    (hc : Counted j.wal j.written) :
    DurableCall crc j c ↔ ((c.perform crc j.wal).synced && stranded) = false := by
  constructor
  · intro hd
    cases hs : (c.perform crc j.wal).synced with
    | false => rfl
    | true =>
      cases hb : stranded with
      | false => rfl
      | true =>
        have hl := hspec.ledger
        rw [hb] at hl
        exact absurd (hd.synced hs) hl.unsynced_ne_nil
  · intro hno
    have hlate (hs : (c.perform crc j.wal).synced = true) : stranded = false := by
      rw [hs, Bool.true_and] at hno
      exact hno
    refine ⟨fun hs => hspec.synced hs (hlate hs), fun happ hok hmode config gc hgc hone => ?_⟩
    cases hs : (c.perform crc j.wal).synced with
    | true =>
      rw [hspec.synced hs (hlate hs)]
      exact hone
    | false =>
      have hle := hspec.counted hc hlate (hspec.config ▸ hmode) config gc hgc
      exact lt_of_le_of_lt hle (hspec.batch hs happ hok hmode config gc hgc)

theorem durable_run_iff (calls : List WalCall)
    (h : Ledger j.wal.disk j.wal.sequence j.written stranded) (hc : Counted j.wal j.written) :
    (∀ before c, before ++ [c] <+: calls → DurableCall crc (j.run crc before) c) ↔
      lateSync crc stranded j calls = false := by
  induction calls generalizing j stranded with
  | nil =>
    refine ⟨fun _ => rfl, fun _ before c hp => ?_⟩
    exact absurd (List.prefix_nil.mp hp) (List.append_ne_nil_of_right_ne_nil _ (List.cons_ne_nil _ _))
  | cons c calls ih =>
    have hspec : CallSpec crc j c (stranded || j.strands crc c) := call_spec c h
    have hfirst := hspec.durable_iff hc
    have hsplit : (∀ before d, before ++ [d] <+: c :: calls → DurableCall crc (j.run crc before) d) ↔
        DurableCall crc j c ∧
          ∀ before d, before ++ [d] <+: calls → DurableCall crc ((j.call crc c).run crc before) d := by
      constructor
      · intro hall
        refine ⟨hall [] c (by simp), fun before d hp => ?_⟩
        exact hall (c :: before) d (List.cons_prefix_cons.mpr ⟨rfl, hp⟩)
      · rintro ⟨hcall, hrest⟩ before d hp
        cases before with
        | nil =>
          obtain ⟨rfl, _⟩ := List.cons_prefix_cons.mp hp
          exact hcall
        | cons b before =>
          obtain ⟨rfl, hp'⟩ := List.cons_prefix_cons.mp hp
          exact hrest before d hp'
    rw [hsplit, hfirst, lateSync, Bool.or_eq_false_iff]
    refine and_congr_right fun hno => ih hspec.ledger (hspec.counted hc fun hs => ?_)
    rw [hs, Bool.true_and] at hno
    exact hno

end Calls

section Main
variable (crc : Bytes → UInt32) (config : WalConfig) (now : ℕ)

theorem ledger_open (d : FileDir) (hd : ∀ n f, d.get n = some f → f.synced ≤ f.data.length) :
    Ledger (Wal.open config d now).disk (Wal.open config d now).sequence [] false := by
  obtain ⟨k, hk⟩ : ∃ k, findOrCreateWalFile d = (walFileName k, k) := by
    unfold findOrCreateWalFile
    dsimp only
    split
    · split
      · exact ⟨_, rfl⟩
      · exact ⟨_, rfl⟩
    · exact ⟨_, rfl⟩
  have hopen : (Wal.open config d now).disk =
      (⟨walFileName k, config.bufferSize, []⟩, openAppend d (walFileName k)) := by
    simp only [Wal.open, hk]
  have hseq : (Wal.open config d now).sequence = k := by simp only [Wal.open, hk]
  rw [hopen, hseq]
  -- no record is written yet
  exact ⟨fun n f hf => openAppend_sane hd hf, ⟨k, le_rfl, rfl⟩, ⟨_, openAppend_self _ _⟩,
    List.forall_mem_nil _, List.forall_mem_nil _, fun _ => List.forall_mem_nil _,
    fun hstranded => absurd hstranded Bool.false_ne_true⟩

/-- In a run of writes and syncs with any I/O failures, every call keeps its promise exactly when no
call syncs at or after one that rotated away from an unsynced record. -/
theorem group_commit_durable_iff (d : FileDir)
    (hd : ∀ n f, d.get n = some f → f.synced ≤ f.data.length) (calls : List WalCall) :
    (∀ before c, before ++ [c] <+: calls →
      DurableCall crc (Journal.run crc ⟨Wal.open config d now, []⟩ before) c) ↔
        lateSync crc false ⟨Wal.open config d now, []⟩ calls = false :=
  durable_run_iff calls (ledger_open config now d hd) fun _ _ _ _ => Nat.zero_le _

end Main

def batches (size : ℕ) : WalConfig := ⟨size, false, 64, some ⟨10, 2⟩⟩

def startCall : WalCall := .write (.traceStart sampleTrace 1) none 0 0

/-- Files of two records: every rotation finds the batch synced. -/
theorem full_batches_are_durable :
    DurableCall crc32
      (Journal.run crc32 ⟨Wal.open (batches 150) ∅ 0, []⟩ (List.replicate 3 startCall)) startCall :=
  (group_commit_durable_iff crc32 (batches 150) 0 ∅ nofun (List.replicate 4 startCall)).mpr
    (by decide +kernel) (List.replicate 3 startCall) startCall (List.prefix_refl _)

/-- Files of one record: the second write rotates and syncs, and the first record stays unsynced. -/
theorem rotation_strands_record :
    ¬ ∀ before c, before ++ [c] <+: List.replicate 2 startCall →
      DurableCall crc32 (Journal.run crc32 ⟨Wal.open (batches 100) ∅ 0, []⟩ before) c := by
  intro hall
  have hcall := hall [startCall] startCall (List.prefix_refl _)
  exact absurd (hcall.synced (by decide)) (by decide)

end Xerv
