import Xerv.Lib.Grouping
import Xerv.Lib.TrimmedDir
import Xerv.Wal.Replay

/-!
# Purging the WAL (`xerv-core/src/wal/writer/wal.rs`)

`purge_old_segments` deletes all but the last files of the log, and never the current one; a file that cannot be
removed stays. Writing goes on as if nothing had been deleted, so a purged log reads as the whole one without the
records of the deleted files.
-/

namespace Xerv
open Xerv.Lib

/-- The files that the loop of `purge_old_segments` removes; `fails` says where `remove_file` does not. -/
def Wal.purgeable (w : Wal) (keepCount : ℕ) (fails : String → Bool) : List (ℕ × String) :=
  let segments := listNumbered parseWalFileName w.disk.2
  (segments.take (segments.length - keepCount)).filter fun segment => segment.1 ≠ w.sequence && !fails segment.2

def Wal.purgeOldSegments (w : Wal) (keepCount : ℕ) (fails : String → Bool) : Wal × ℕ :=
  let deleted := (w.purgeable keepCount fails).map Prod.snd
  ({ w with disk := (w.disk.1, deleted.foldl (fun d path => d.erase path) w.disk.2) }, deleted.length)

inductive PurgingOp where
  | wal (op : WalOp)
  | purge (keepCount : ℕ) (fails : String → Bool)

def PurgingOp.apply (crc : Bytes → UInt32) (w : Wal) : PurgingOp → Wal
  | .wal op => op.apply crc w
  | .purge keepCount fails => (w.purgeOldSegments keepCount fails).1

def runPurging (crc : Bytes → UInt32) (w : Wal) (ops : List PurgingOp) : Wal := ops.foldl (PurgingOp.apply crc) w

def PurgingOp.walOp : PurgingOp → Option WalOp
  | .wal op => some op
  | .purge _ _ => none

def unpurged (ops : List PurgingOp) : List WalOp := ops.filterMap PurgingOp.walOp

def recorded (crc : Bytes → UInt32) : Wal → List PurgingOp → List (ℕ × WalRecord)
  | _, [] => []
  | w, op :: ops =>
    let w' := op.apply crc w
    ((op.walOp.bind WalOp.written).map fun record => (w'.sequence, record)).toList ++ recorded crc w' ops

/-! ### A purged log goes on like the whole one -/

section Simulation
variable {crc : Bytes → UInt32} {keep : ℕ → Prop} {full w : Wal} {closed : List (List WalRecord)}
  {current : List WalRecord}

def KeptName (keep : ℕ → Prop) (n : String) : Prop := ∃ i, keep i ∧ n = walFileName i

theorem keptName_walFileName (i : ℕ) : KeptName keep (walFileName i) ↔ keep i :=
  ⟨fun ⟨_, hj, he⟩ => walFileName_injective he ▸ hj, fun h => ⟨i, h, rfl⟩⟩

/-- `w` is `full` but for the files that are not kept; the current file is, and so are all to come. -/
structure Purged (keep : ℕ → Prop) (full w : Wal) : Prop where
  disk : SameWriter (KeptName keep) full.disk w.disk
  rest : w = { full with disk := w.disk }
  onward : ∀ i, full.sequence ≤ i → keep i

theorem Purged.sequence (h : Purged keep full w) : w.sequence = full.sequence := by rw [h.rest]

theorem Purged.rotate (h : Purged keep full w) : Purged keep full.rotate w.rotate := by
  obtain ⟨hdisk, hrest, honward⟩ := h
  generalize w.disk = disk at *
  subst hrest
  have hnew : KeptName keep (walFileName (full.sequence + 1)) :=
    (keptName_walFileName _).mpr (honward _ (Nat.le_succ _))
  exact ⟨⟨rfl, hnew, hdisk.flush.files.openAppend hnew⟩, rfl, fun i hi => honward i (Nat.le_of_succ_le hi)⟩

/-- One writer goes on with the file, and what else changes is the same in both. -/
theorem Purged.onDisk (h : Purged keep full w) {disk disk' : BufWriter.OnDisk}
    (hdisk : SameWriter (KeptName keep) disk disk') :
    Purged keep { full with disk := disk } { w with disk := disk' } := by
  refine ⟨hdisk, ?_, h.onward⟩
  rw [h.rest]

theorem Purged.syncFile (h : Purged keep full w) :
    SameWriter (KeptName keep) (syncFile full.disk) (Xerv.syncFile w.disk) := h.disk.flush.syncData

theorem Purged.append (h : Purged keep full w) (bytes : Bytes) :
    Purged keep { full with disk := BufWriter.writeAll full.disk bytes, fileSize := full.fileSize + bytes.length }
      { w with disk := BufWriter.writeAll w.disk bytes, fileSize := w.fileSize + bytes.length } := by
  refine ⟨h.disk.writeAll bytes, ?_, h.onward⟩
  rw [h.rest]

theorem Purged.syncAfterWrite (h : Purged keep full w) (now later : ℕ) :
    Purged keep (full.syncAfterWrite now later) (w.syncAfterWrite now later) := by
  have hsync := h.onDisk h.syncFile
  obtain ⟨hdisk, hrest, honward⟩ := h
  generalize w.disk = disk at *
  subst hrest
  unfold Wal.syncAfterWrite
  dsimp only
  split
  · exact hsync
  · split
    · exact ⟨hdisk, rfl, honward⟩
    · split
      · exact ⟨hsync.disk, rfl, honward⟩
      · exact ⟨hdisk, rfl, honward⟩

theorem Purged.write (h : Purged keep full w) (record : WalRecord) (now later : ℕ) :
    Purged keep (full.write crc record now later) (w.write crc record now later) := by
  have hroom : Purged keep
      (if full.config.maxFileSize < full.fileSize + (record.toBytes crc).length then full.rotate else full)
      (if w.config.maxFileSize < w.fileSize + (record.toBytes crc).length then w.rotate else w) := by
    rw [h.rest]
    split
    · exact h.rest ▸ h.rotate
    · exact h.rest ▸ h
  have hsync := (hroom.append (record.toBytes crc)).syncAfterWrite now later
  exact ⟨hsync.disk, by rw [Wal.write, hsync.rest]; rfl, hsync.onward⟩

theorem findOrCreateWalFile_trimmed {d d' : FileDir} {files : List Bytes} {last : Bytes}
    (h : LogFiles d (files ++ [last])) (htrim : Trimmed (KeptName keep) d d') (hlast : keep files.length) :
    findOrCreateWalFile d' = findOrCreateWalFile d := by
  have hname : KeptName keep (walFileName files.length) := (keptName_walFileName files.length).mpr hlast
  have hmax : (d'.keys.filterMap parseWalFileName).foldl max 0 = files.length := by
    refine foldl_max_eq _ 0 files.length (Nat.zero_le _) ?_ (.inr ?_)
    · intro i hi
      obtain ⟨name, hmem, hparse⟩ := List.mem_filterMap.mp hi
      obtain ⟨j, hj, rfl⟩ := (h.names name).mp ((htrim.mem_iff name).mp (AList.mem_keys.mpr hmem)).2
      rw [parseWalFileName_walFileName] at hparse
      cases hparse
      rw [List.length_append, List.length_singleton] at hj
      omega
    · refine List.mem_filterMap.mpr ⟨walFileName files.length, ?_, parseWalFileName_walFileName _⟩
      refine AList.mem_keys.mp ((htrim.mem_iff _).mpr ⟨hname, (h.names _).mpr ⟨files.length, by simp, rfl⟩⟩)
  unfold findOrCreateWalFile
  simp only [hmax, h.maxSequence_eq, htrim.kept _ hname]

theorem Purged.reopen (h : Purged keep full w) (hlayout : WalLayout crc full closed current) (config : WalConfig)
    (now : ℕ) : Purged keep (Wal.open config full.drop now) (Wal.open config w.drop now) := by
  have hfiles := hlayout.raw.flushed
  have hlen : full.sequence = (closed.map (encodeAll crc)).length := by rw [← hlayout.raw.sequence]
  have htrim : Trimmed (KeptName keep) full.drop w.drop := h.disk.flush.files
  have hfind : findOrCreateWalFile w.drop = findOrCreateWalFile full.drop :=
    findOrCreateWalFile_trimmed hfiles htrim (h.onward _ (le_of_eq hlen))
  have hseq : full.sequence ≤ (findOrCreateWalFile full.drop).2 := by
    unfold findOrCreateWalFile
    have hmax : (full.drop.keys.filterMap parseWalFileName).foldl max 0 = full.sequence := by
      rw [hlen]
      exact hfiles.maxSequence_eq
    simp only [hmax]
    split
    · split
      · exact Nat.le_succ _
      · exact le_rfl
    · exact le_rfl
  have hpath : (findOrCreateWalFile full.drop).1 = walFileName (findOrCreateWalFile full.drop).2 := by
    unfold findOrCreateWalFile
    dsimp only
    split
    · split <;> rfl
    · rfl
  have hkept : KeptName keep (findOrCreateWalFile full.drop).1 := by
    rw [hpath]
    exact (keptName_walFileName _).mpr (h.onward _ hseq)
  have hopen := htrim.openAppend hkept
  unfold Wal.open
  rw [hfind]
  dsimp only
  rw [hopen.kept _ hkept]
  exact ⟨⟨rfl, hkept, hopen⟩, rfl, fun i hi => h.onward i (le_trans hseq hi)⟩

theorem Purged.apply (h : Purged keep full w) (hlayout : WalLayout crc full closed current) (op : WalOp) :
    Purged keep (op.apply crc full) (op.apply crc w) := by
  cases op with
  | write record now later => exact h.write record now later
  | flush => exact h.onDisk h.syncFile
  | sync now =>
    have hsync := h.onDisk h.syncFile
    refine ⟨hsync.disk, ?_, h.onward⟩
    rw [h.rest]
    rfl
  | reopen config now => exact h.reopen hlayout config now

/-! ### What a purge keeps -/

def Wal.has (w : Wal) (i : ℕ) : Bool := walFileName i ∈ w.disk.2

theorem Purged.listing (h : Purged keep full w) (hlayout : WalLayout crc full closed current) :
    listNumbered parseWalFileName w.disk.2 =
      ((List.range (full.sequence + 1)).filter w.has).map fun i => (i, walFileName i) := by
  refine listNumbered_eq parseWalFileName walFileName w.disk.2 _ (fun i _ => parseWalFileName_walFileName i)
    (List.pairwise_lt_range.filter _) fun n => ?_
  constructor
  · intro hn
    obtain ⟨i, hi, rfl⟩ := (hlayout.names n).mp ((h.disk.files.mem_iff n).mp hn).2
    exact ⟨i, List.mem_filter.mpr ⟨List.mem_range.mpr (by omega), by simpa [Wal.has] using hn⟩, rfl⟩
  · intro ⟨i, hi, hn⟩
    have hmem := (List.mem_filter.mp hi).2
    rw [hn]
    simpa [Wal.has] using hmem

theorem Purged.has_iff (h : Purged keep full w) (hlayout : WalLayout crc full closed current) (i : ℕ) :
    w.has i = true ↔ keep i ∧ i ≤ full.sequence := by
  rw [Wal.has, decide_eq_true_iff, h.disk.files.mem_iff, keptName_walFileName, hlayout.names]
  constructor
  · intro ⟨hkeep, j, hj, he⟩
    exact ⟨hkeep, walFileName_injective he ▸ hj⟩
  · intro ⟨hkeep, hi⟩
    exact ⟨hkeep, i, hi, rfl⟩

def Wal.numbers (w : Wal) : List ℕ := (List.range (w.sequence + 1)).filter w.has

theorem Wal.numbers_sorted (w : Wal) : w.numbers.Pairwise (· < ·) := List.pairwise_lt_range.filter _

theorem Wal.numbers_le (w : Wal) : ∀ i ∈ w.numbers, i ≤ w.sequence := fun _ hi =>
  Nat.lt_succ_iff.mp (List.mem_range.mp (List.mem_of_mem_filter hi))

theorem Purged.deleted_iff (h : Purged keep full w) (hlayout : WalLayout crc full closed current) (keepCount : ℕ)
    (fails : String → Bool) (i : ℕ) : walFileName i ∈ (w.purgeable keepCount fails).map Prod.snd ↔
      i ∈ w.numbers.take (w.numbers.length - keepCount) ∧ i ≠ w.sequence ∧ fails (walFileName i) = false := by
  have hlisting : listNumbered parseWalFileName w.disk.2 = w.numbers.map fun i => (i, walFileName i) := by
    rw [h.listing hlayout, ← h.sequence]
    rfl
  unfold Wal.purgeable
  simp only [hlisting, List.length_map, ← List.map_take, List.mem_map, List.mem_filter]
  constructor
  · intro ⟨segment, ⟨⟨j, hj, hsegment⟩, hcond⟩, hname⟩
    subst hsegment
    obtain rfl := walFileName_injective hname
    simp only [Bool.and_eq_true, decide_eq_true_eq, Bool.not_eq_true'] at hcond
    exact ⟨hj, hcond⟩
  · intro ⟨hj, hne, hfails⟩
    exact ⟨(i, walFileName i), ⟨⟨i, hj, rfl⟩, by simp [hne, hfails]⟩, rfl⟩

/-- After a purge fewer files are kept. -/
def KeepAfter (keep : ℕ → Prop) (w : Wal) (keepCount : ℕ) (fails : String → Bool) (i : ℕ) : Prop :=
  keep i ∧ walFileName i ∉ (w.purgeable keepCount fails).map Prod.snd

theorem Purged.purge (h : Purged keep full w) (hlayout : WalLayout crc full closed current) (keepCount : ℕ)
    (fails : String → Bool) :
    Purged (KeepAfter keep w keepCount fails) full (w.purgeOldSegments keepCount fails).1 := by
  have hkeep (n : String) : KeptName (KeepAfter keep w keepCount fails) n ↔
      KeptName keep n ∧ n ∉ (w.purgeable keepCount fails).map Prod.snd := by
    constructor
    · intro ⟨i, hi, hn⟩
      exact ⟨⟨i, hi.1, hn⟩, hn ▸ hi.2⟩
    · intro ⟨⟨i, hi, hn⟩, hdeleted⟩
      exact ⟨i, ⟨hi, hn ▸ hdeleted⟩, hn⟩
  have honward (i : ℕ) (hi : full.sequence ≤ i) : KeepAfter keep w keepCount fails i := by
    refine ⟨h.onward i hi, fun hmem => ?_⟩
    obtain ⟨htake, hne, -⟩ := (h.deleted_iff hlayout keepCount fails i).mp hmem
    have hle := w.numbers_le i (List.mem_of_mem_take htake)
    rw [h.sequence] at hle hne
    omega
  refine ⟨⟨h.disk.writer, ?_, (h.disk.files.eraseAll _).congr hkeep⟩, ?_, honward⟩
  · have hpath : full.disk.1.path = walFileName full.sequence := hlayout.path
    rw [hpath]
    exact (keptName_walFileName _).mpr (honward _ le_rfl)
  · rw [Wal.purgeOldSegments]
    dsimp only
    rw [h.rest]

theorem Purged.purge_retains (h : Purged keep full w) (hlayout : WalLayout crc full closed current) {k keepCount : ℕ}
    (fails : String → Bool) (hk : k ≤ keepCount) (hkeep : ∀ i, full.sequence < i + k → keep i) (i : ℕ)
    (hi : full.sequence < i + k) : KeepAfter keep w keepCount fails i := by
  refine ⟨hkeep i hi, fun hmem => ?_⟩
  obtain ⟨htake, -, -⟩ := (h.deleted_iff hlayout keepCount fails i).mp hmem
  have hbehind := add_le_of_mem_take w.numbers_sorted w.numbers_le htake
  rw [h.sequence] at hbehind
  omega

theorem Purged.purge_last (h : Purged keep full w) (hlayout : WalLayout crc full closed current) (keepCount : ℕ)
    (hkeep : ∀ i j, keep i → i ≤ j → keep j) (i j : ℕ) (hi : KeepAfter keep w keepCount (fun _ => false) i)
    (hij : i ≤ j) : KeepAfter keep w keepCount (fun _ => false) j := by
  refine ⟨hkeep i j hi.1 hij, fun hmem => hi.2 ?_⟩
  obtain ⟨htake, hne, -⟩ := (h.deleted_iff hlayout keepCount _ j).mp hmem
  have hj := w.numbers_le j (List.mem_of_mem_take htake)
  rcases Nat.eq_or_lt_of_le hij with rfl | hlt
  · exact hmem
  · have hmem : i ∈ w.numbers := by
      refine List.mem_filter.mpr ⟨List.mem_range.mpr (by omega), (h.has_iff hlayout i).mpr ⟨hi.1, ?_⟩⟩
      rw [← h.sequence]
      omega
    exact (h.deleted_iff hlayout keepCount _ i).mpr ⟨mem_take_of_lt w.numbers_sorted htake hmem hlt, by omega, rfl⟩

end Simulation

/-! ### The records and their files -/

section Tags
variable {crc : Bytes → UInt32} {full : Wal} {closed : List (List WalRecord)} {current : List WalRecord}

def tagSegments (first : ℕ) : List (List WalRecord) → List (ℕ × WalRecord)
  | [] => []
  | segment :: segments => segment.map (fun record => (first, record)) ++ tagSegments (first + 1) segments

@[simp] theorem tagSegments_nil (first : ℕ) : tagSegments first [] = [] := rfl

theorem tagSegments_cons (first : ℕ) (segment : List WalRecord) (segments : List (List WalRecord)) :
    tagSegments first (segment :: segments) =
      segment.map (fun record => (first, record)) ++ tagSegments (first + 1) segments := rfl

theorem tagSegments_append (first : ℕ) (xs ys : List (List WalRecord)) :
    tagSegments first (xs ++ ys) = tagSegments first xs ++ tagSegments (first + xs.length) ys := by
  induction xs generalizing first with
  | nil => rfl
  | cons x xs ih =>
    have hlen : first + (x :: xs).length = first + 1 + xs.length := by rw [List.length_cons]; omega
    rw [List.cons_append, tagSegments_cons, ih, tagSegments_cons, List.append_assoc, hlen]

theorem tagSegments_empty (first : ℕ) (segments : List (List WalRecord)) (h : segments.flatten = []) :
    tagSegments first segments = [] := by
  induction segments generalizing first with
  | nil => rfl
  | cons segment segments ih =>
    rw [List.flatten_cons, List.append_eq_nil_iff] at h
    rw [tagSegments_cons, h.1, ih (first + 1) h.2]
    rfl

theorem tagSegments_snoc (first : ℕ) (segments : List (List WalRecord)) (segment : List WalRecord) :
    tagSegments first (segments ++ [segment]) =
      tagSegments first segments ++ segment.map fun record => (first + segments.length, record) := by
  rw [tagSegments_append, tagSegments_cons, tagSegments_nil, List.append_nil]

theorem WalLayout.write_tagged (h : WalLayout crc full closed current) (record : WalRecord) (now later : ℕ) :
    ∃ closed' current', WalLayout crc (full.write crc record now later) closed' current' ∧
      WalGrown closed current closed' current' [record] ∧
      tagSegments 0 (closed' ++ [current']) =
        tagSegments 0 (closed ++ [current]) ++ [((full.write crc record now later).sequence, record)] := by
  have hbytes : encodeAll crc [record] = record.toBytes crc := by simp [encodeAll_cons]
  have hwrite := h.raw.write crc record now later
  split at hwrite
  · -- a new file
    have hlayout : WalLayout crc (full.write crc record now later) (closed ++ [current]) [record] := by
      refine walLayout_iff.mpr ?_
      rwa [hbytes, ← map_encodeAll_snoc]
    refine ⟨_, _, hlayout, .inr ⟨[], [], by simp, by simp⟩, ?_⟩
    rw [tagSegments_snoc, Nat.zero_add, hlayout.sequence]
    rfl
  · have hlayout : WalLayout crc (full.write crc record now later) closed (current ++ [record]) := by
      refine walLayout_iff.mpr ?_
      rwa [encodeAll_append, hbytes]
    refine ⟨_, _, hlayout, .inl ⟨rfl, rfl⟩, ?_⟩
    rw [tagSegments_snoc, tagSegments_snoc, List.map_append, Nat.zero_add, ← hlayout.sequence, List.append_assoc]
    rfl

theorem WalGrown.tagged {closed' : List (List WalRecord)} {current' : List WalRecord}
    (h : WalGrown closed current closed' current' []) :
    tagSegments 0 (closed' ++ [current']) = tagSegments 0 (closed ++ [current]) := by
  rcases h with ⟨rfl, rfl⟩ | ⟨more, rest, rfl, hdelta⟩
  · rw [List.append_nil]
  · obtain ⟨hfront, rfl⟩ := List.append_eq_nil_iff.mp hdelta.symm
    obtain ⟨rfl, hrest⟩ := List.append_eq_nil_iff.mp hfront
    rw [tagSegments_snoc, tagSegments_append, tagSegments_snoc, tagSegments_cons, tagSegments_empty _ rest hrest]
    simp

theorem WalLayout.apply_tagged (h : WalLayout crc full closed current) (op : WalOp) :
    ∃ closed' current', WalLayout crc (op.apply crc full) closed' current' ∧
      WalGrown closed current closed' current' op.written.toList ∧
      tagSegments 0 (closed' ++ [current']) = tagSegments 0 (closed ++ [current]) ++
        (op.written.map fun record => ((op.apply crc full).sequence, record)).toList := by
  cases op with
  | write record now later => exact h.write_tagged record now later
  | flush => exact ⟨closed, current, h.syncFile _ rfl rfl rfl, WalGrown.refl closed current, by simp [WalOp.written]⟩
  | sync now => exact ⟨closed, current, h.syncFile _ rfl rfl rfl, WalGrown.refl closed current, by simp [WalOp.written]⟩
  | reopen config now =>
    obtain ⟨closed', current', hlayout, hgrown⟩ := h.reopen config now
    exact ⟨closed', current', hlayout, hgrown, by simp [WalOp.written, hgrown.tagged]⟩

end Tags

section Runs
variable {crc : Bytes → UInt32} {keep : ℕ → Prop} {full w : Wal} {closed : List (List WalRecord)}
  {current : List WalRecord}

/-- A purged log along with the whole one: what is in the files, what has been written, and a law of the files
that are kept, given the current one. -/
structure Follows (crc : Bytes → UInt32) (law : ℕ → (ℕ → Prop) → Prop) (closed : List (List WalRecord))
    (current : List WalRecord) (written : List (ℕ × WalRecord)) (full w : Wal) : Prop where
  purged : ∃ keep, Purged keep full w ∧ law full.sequence keep
  layout : ∃ closed' current', WalLayout crc full closed' current' ∧
    WalGrown closed current closed' current' (written.map Prod.snd) ∧
    tagSegments 0 (closed' ++ [current']) = tagSegments 0 (closed ++ [current]) ++ written

def PurgeKeeps (crc : Bytes → UInt32) (law : ℕ → (ℕ → Prop) → Prop) : PurgingOp → Prop
  | .wal _ => True
  | .purge keepCount fails => ∀ keep full w closed current, Purged keep full w → WalLayout crc full closed current →
      law full.sequence keep → law full.sequence (KeepAfter keep w keepCount fails)

variable {law : ℕ → (ℕ → Prop) → Prop}

theorem WalGrown.length_le {closed' : List (List WalRecord)} {current' delta : List WalRecord}
    (h : WalGrown closed current closed' current' delta) : closed.length ≤ closed'.length := by
  rcases h with ⟨rfl, -⟩ | ⟨more, rest, rfl, -⟩
  · exact le_rfl
  · simp

theorem Purged.step (h : Purged keep full w) (hlayout : WalLayout crc full closed current) (hlaw : law full.sequence keep)
    (hgrow : ∀ m n keep, m ≤ n → law m keep → law n keep) (op : PurgingOp) (hop : PurgeKeeps crc law op) :
    Follows crc law closed current
      ((op.walOp.bind WalOp.written).map fun record => ((op.apply crc w).sequence, record)).toList
      (runWal crc full op.walOp.toList) (op.apply crc w) := by
  cases op with
  | wal op =>
    have hafter := h.apply hlayout op
    obtain ⟨closed', current', hlayout', hgrown, htags⟩ := hlayout.apply_tagged op
    have hseq : full.sequence ≤ (op.apply crc full).sequence := by
      rw [← hlayout.sequence, ← hlayout'.sequence]
      exact hgrown.length_le
    refine ⟨⟨keep, hafter, hgrow _ _ keep hseq hlaw⟩, closed', current', hlayout', ?_, ?_⟩
    · cases hwritten : op.written with
      | none => simpa [PurgingOp.walOp, hwritten] using hgrown
      | some record => simpa [PurgingOp.walOp, hwritten] using hgrown
    · rw [htags]
      simp only [PurgingOp.apply, hafter.sequence]
      rfl
  | purge keepCount fails =>
    exact ⟨⟨_, h.purge hlayout keepCount fails, hop keep full w closed current h hlayout hlaw⟩, closed, current, hlayout,
      WalGrown.refl closed current, by simp [PurgingOp.walOp]⟩

theorem unpurged_cons (op : PurgingOp) (ops : List PurgingOp) :
    unpurged (op :: ops) = op.walOp.toList ++ unpurged ops := by
  cases op <;> rfl

theorem unpurged_flush (ops : List PurgingOp) : unpurged (ops ++ [.wal .flush]) = unpurged ops ++ [.flush] :=
  List.filterMap_append

theorem Follows.trans {closed₁ : List (List WalRecord)} {current₁ : List WalRecord} {written written' : List (ℕ × WalRecord)}
    (hgrown : WalGrown closed current closed₁ current₁ (written.map Prod.snd))
    (htags : tagSegments 0 (closed₁ ++ [current₁]) = tagSegments 0 (closed ++ [current]) ++ written)
    (h : Follows crc law closed₁ current₁ written' full w) :
    Follows crc law closed current (written ++ written') full w := by
  obtain ⟨hpurged, closed₂, current₂, hlayout, hgrown₂, htags₂⟩ := h
  refine ⟨hpurged, closed₂, current₂, hlayout, ?_, ?_⟩
  · rw [List.map_append]
    exact hgrown.trans hgrown₂
  · rw [htags₂, htags, List.append_assoc]

theorem Purged.run (h : Purged keep full w) (hlayout : WalLayout crc full closed current) (hlaw : law full.sequence keep)
    (hgrow : ∀ m n keep, m ≤ n → law m keep → law n keep) (ops : List PurgingOp)
    (hops : ∀ op ∈ ops, PurgeKeeps crc law op) :
    Follows crc law closed current (recorded crc w ops) (runWal crc full (unpurged ops)) (runPurging crc w ops) := by
  induction ops generalizing keep full w closed current with
  | nil => exact ⟨⟨keep, h, hlaw⟩, closed, current, hlayout, WalGrown.refl closed current, by simp [recorded]⟩
  | cons op ops ih =>
    obtain ⟨⟨keep', hpurged, hlaw'⟩, closed₁, current₁, hlayout₁, hgrown, htags⟩ :=
      h.step hlayout hlaw hgrow op (hops op List.mem_cons_self)
    rw [unpurged_cons, runWal_append]
    exact Follows.trans hgrown htags (ih hpurged hlayout₁ hlaw' fun op hop => hops op (List.mem_cons_of_mem _ hop))

end Runs

/-! ### Reading a purged log -/

section Reading
variable {crc : Bytes → UInt32} {full w : Wal} {closed : List (List WalRecord)} {current : List WalRecord}

theorem readFiles_tagged {d : FileDir} {start : WalPosition} (keep : ℕ → Bool) (segments : List (List WalRecord))
    (first : ℕ) (hfirst : start.fileSequence < first) (henc : ∀ p ∈ tagSegments first segments, p.2.Encodable)
    (hfiles : ∀ i segment, segments[i]? = some segment → keep (first + i) = true →
      ∃ f, d.get (walFileName (first + i)) = some f ∧ f.data = encodeAll crc segment) :
    readFiles crc d start (((List.range' first segments.length).filter keep).map fun i => (i, walFileName i)) =
      .ok (((tagSegments first segments).filter fun p => keep p.1).map fun p => p.2.readBack) := by
  induction segments generalizing first with
  | nil => rfl
  | cons segment segments ih =>
    rw [tagSegments, List.forall_mem_append] at henc
    have hrest := ih (first + 1) (by omega) henc.2 fun i s hi hkeep => by
      obtain ⟨f, hf, hdata⟩ := hfiles (i + 1) s hi (by rwa [show first + (i + 1) = first + 1 + i by omega])
      exact ⟨f, by rwa [show first + 1 + i = first + (i + 1) by omega], hdata⟩
    rw [List.length_cons, List.range'_succ, List.filter_cons, tagSegments, List.filter_append, List.map_append]
    by_cases hkeep : keep first = true
    · obtain ⟨f, hf, hdata⟩ := hfiles 0 segment rfl (by rwa [Nat.add_zero])
      rw [Nat.add_zero] at hf
      have hsegment : ∀ r ∈ segment, r.Encodable := fun r hr => henc.1 (first, r) (List.mem_map.mpr ⟨r, hr, rfl⟩)
      have hread : readFileFrom crc f.data (if first = start.fileSequence then start.offset else 0) =
          .ok (segment.map WalRecord.readBack) := by
        rw [if_neg (by omega), hdata]
        exact readFileFrom_encodeAll crc [] segment hsegment
      have hall : (segment.map fun r => (first, r)).filter (fun p => keep p.1) = segment.map fun r => (first, r) :=
        List.filter_eq_self.mpr fun p hp => by
          obtain ⟨r, -, rfl⟩ := List.mem_map.mp hp
          exact hkeep
      rw [if_pos hkeep, List.map_cons, readFiles_cons first _ _ f _ (by omega) hf hread, hrest, hall, List.map_map]
      rfl
    · have hnone : (segment.map fun r => (first, r)).filter (fun p => keep p.1) = [] :=
        List.filter_eq_nil_iff.mpr fun p hp => by
          obtain ⟨r, -, rfl⟩ := List.mem_map.mp hp
          exact hkeep
      rw [if_neg hkeep, hrest, hnone]
      rfl

theorem Purged.file {keep : ℕ → Prop} (h : Purged keep full w) (hlayout : WalLayout crc full closed current)
    (hbuf : full.disk.1.buf = []) (i : ℕ) (segment : List WalRecord) (hi : (closed ++ [current])[i]? = some segment)
    (hhas : w.has i = true) : ∃ f, w.disk.2.get (walFileName i) = some f ∧ f.data = encodeAll crc segment := by
  obtain ⟨f, hf, hdata⟩ := hlayout.file hbuf i segment hi
  have hkeep : KeptName keep (walFileName i) := h.disk.files.keep_of_mem (by simpa [Wal.has] using hhas)
  exact ⟨f, by rw [h.disk.files.kept _ hkeep, hf], hdata⟩

theorem Follows.readFrom {law : ℕ → (ℕ → Prop) → Prop} {written : List (ℕ × WalRecord)}
    (h : Follows crc law closed current written full w)
    (hbuf : full.disk.1.buf = []) (henc : ∀ p ∈ written, p.2.Encodable) :
    readFrom crc w.disk.2 ⟨closed.length, (encodeAll crc current).length⟩ =
      .ok ((written.filter fun p => w.has p.1).map fun p => p.2.readBack) := by
  obtain ⟨⟨keep, hpurged, -⟩, closed', current', hlayout, hgrown, htags⟩ := h
  obtain ⟨after, rest, hsplit, -⟩ := hgrown.split
  have hwritten : written = (after.map fun r => (closed.length, r)) ++ tagSegments (closed.length + 1) rest := by
    rw [hsplit, tagSegments_append, tagSegments_snoc, tagSegments, List.map_append, List.append_assoc, List.append_assoc,
      Nat.zero_add] at htags
    exact (List.append_cancel_left (List.append_cancel_left htags)).symm
  have hlen : full.sequence + 1 = closed.length + (rest.length + 1) := by
    have hlengths := congrArg List.length hsplit
    simpa [hlayout.sequence] using hlengths
  have hrange : List.range (full.sequence + 1) =
      List.range closed.length ++ closed.length :: List.range' (closed.length + 1) rest.length := by
    rw [hlen, List.range_add, ← List.range'_eq_map_range, List.range'_succ]
  have hfile (i : ℕ) (segment : List WalRecord) (hi : ((current ++ after) :: rest)[i]? = some segment)
      (hhas : w.has (closed.length + i) = true) :
      ∃ f, w.disk.2.get (walFileName (closed.length + i)) = some f ∧ f.data = encodeAll crc segment := by
    refine hpurged.file hlayout hbuf _ segment ?_ hhas
    rw [hsplit, List.getElem?_append_right (Nat.le_add_right _ _), Nat.add_sub_cancel_left]
    exact hi
  rw [hwritten, List.forall_mem_append] at henc
  have hbehind := @readFiles_tagged crc w.disk.2 ⟨closed.length, (encodeAll crc current).length⟩ w.has rest
    (closed.length + 1) (Nat.lt_succ_self _) henc.2 fun i segment hi hhas => by
      rw [show closed.length + 1 + i = closed.length + (i + 1) by omega] at hhas ⊢
      exact hfile (i + 1) segment hi hhas
  rw [Xerv.readFrom, hpurged.listing hlayout, hrange, List.filter_append, List.map_append, readFiles_skip, hwritten,
    List.filter_append, List.map_append, List.filter_cons]
  · by_cases hhas : w.has closed.length = true
    · obtain ⟨f, hf, hdata⟩ := hfile 0 (current ++ after) rfl hhas
      rw [Nat.add_zero] at hf
      have hafter : ∀ r ∈ after, r.Encodable := fun r hr => henc.1 (_, r) (List.mem_map.mpr ⟨r, hr, rfl⟩)
      have hread : readFileFrom crc f.data (encodeAll crc current).length = .ok (after.map WalRecord.readBack) := by
        rw [hdata]
        exact readFileFrom_encodeAll crc current after hafter
      have hall : (after.map fun r => (closed.length, r)).filter (fun p => w.has p.1) =
          after.map fun r => (closed.length, r) :=
        List.filter_eq_self.mpr fun p hp => by
          obtain ⟨r, -, rfl⟩ := List.mem_map.mp hp
          exact hhas
      rw [if_pos hhas, List.map_cons, readFiles_cons _ _ _ f _ le_rfl hf (by simpa using hread), hbehind, hall,
        List.map_map]
      rfl
    · have hnone : (after.map fun r => (closed.length, r)).filter (fun p => w.has p.1) = [] :=
        List.filter_eq_nil_iff.mpr fun p hp => by
          obtain ⟨r, -, rfl⟩ := List.mem_map.mp hp
          exact hhas
      rw [if_neg hhas, hbehind, hnone]
      rfl
  · intro g hg
    obtain ⟨i, hi, rfl⟩ := List.mem_map.mp hg
    exact List.mem_range.mp (List.mem_of_mem_filter hi)

end Reading

section Law
variable (crc : Bytes → UInt32) (config : WalConfig) (now : ℕ)

theorem purged_open : Purged (fun _ => True) (Wal.open config ∅ now) (Wal.open config ∅ now) := by
  have hlayout := WalLayout.fresh (fun _ => 0) config now
  refine ⟨⟨rfl, ⟨_, trivial, hlayout.path⟩, trimmed_self fun n hn => ?_⟩, rfl, fun _ _ => trivial⟩
  obtain ⟨i, -, hi⟩ := (hlayout.names n).mp hn
  exact ⟨i, trivial, hi⟩

theorem recorded_append (w : Wal) (ops ops' : List PurgingOp) :
    recorded crc w (ops ++ ops') = recorded crc w ops ++ recorded crc (runPurging crc w ops) ops' := by
  induction ops generalizing w with
  | nil => rfl
  | cons op ops ih =>
    rw [List.cons_append, recorded, recorded, ih, List.append_assoc]
    rfl

theorem recorded_flush (w : Wal) (ops : List PurgingOp) :
    recorded crc w (ops ++ [.wal .flush]) = recorded crc w ops := by
  rw [recorded_append]
  simp [recorded, PurgingOp.walOp, WalOp.written]

theorem follows_flushed (law : ℕ → (ℕ → Prop) → Prop) (hlaw : ∀ n, law n fun _ => True)
    (hgrow : ∀ m n keep, m ≤ n → law m keep → law n keep) (pre post : List PurgingOp)
    (hops : ∀ op ∈ pre ++ post, PurgeKeeps crc law op) :
    let before := runPurging crc (Wal.open config ∅ now) pre
    ∃ closed current full, before.getCurrentPosition = ⟨closed.length, (encodeAll crc current).length⟩ ∧
      full.disk.1.buf = [] ∧
      Follows crc law closed current (recorded crc before post) full (runPurging crc before (post ++ [.wal .flush])) := by
  intro before
  obtain ⟨⟨keep, hpurged, hkeep⟩, closed, current, hlayout, -, -⟩ :=
    (purged_open config now).run (WalLayout.fresh crc config now) (hlaw _) hgrow pre
      fun op hop => hops op (List.mem_append_left _ hop)
  have hfollows := hpurged.run hlayout hkeep hgrow (post ++ [.wal .flush]) (by
    intro op hop
    rcases List.mem_append.mp hop with hop | hop
    · exact hops op (List.mem_append_right _ hop)
    · rw [List.mem_singleton.mp hop]
      trivial)
  rw [recorded_flush] at hfollows
  refine ⟨closed, current, _, ?_, ?_, hfollows⟩
  · have hsize : before.fileSize = _ := congrArg Wal.fileSize hpurged.rest
    have hseq : before.sequence = _ := hpurged.sequence
    rw [Wal.getCurrentPosition, hsize, hseq, hlayout.sequence, ← hlayout.size]
  · rw [unpurged_flush, runWal_append]
    rfl

def PurgingOp.keeps (k : ℕ) : PurgingOp → Prop
  | .wal _ => True
  | .purge keepCount _ => k ≤ keepCount

/-- Over any run of writes, syncs, reopenings and purges, the log reads from an earlier position as exactly the
records that have been written since to files that are still there, whatever removals failed. The current file is
always there, and if every purge is told to keep `k` files, so are the last `k`. -/
theorem purged_log_reads (pre post : List PurgingOp)
    (henc : ∀ p ∈ recorded crc (runPurging crc (Wal.open config ∅ now) pre) post, p.2.Encodable) :
    let before := runPurging crc (Wal.open config ∅ now) pre
    let after := runPurging crc before (post ++ [.wal .flush])
    readFrom crc after.disk.2 before.getCurrentPosition =
        .ok (((recorded crc before post).filter fun p => after.has p.1).map fun p => p.2.readBack) ∧
      after.has after.sequence = true ∧
      ∀ k, (∀ op ∈ pre ++ post, op.keeps k) → ∀ i ≤ after.sequence, after.sequence < i + k → after.has i = true := by
  intro before after
  have hlast (k : ℕ) (hk : ∀ op ∈ pre ++ post, op.keeps k) :
      (∀ i ≤ after.sequence, after.sequence < i + k → after.has i = true) ∧ after.has after.sequence = true := by
    obtain ⟨closed, current, full, -, -, ⟨keep, hpurged, hkeep⟩, closed', current', hlayout, -⟩ :=
      follows_flushed crc config now (fun n keep => ∀ i, n < i + k → keep i) (fun _ _ _ => trivial)
        (fun m n keep hmn hm i hi => hm i (lt_of_le_of_lt hmn hi)) pre post fun op hop => by
          cases op with
          | wal op => trivial
          | purge keepCount fails =>
            exact fun keep full w closed current h hlayout hkeep => h.purge_retains hlayout fails (hk _ hop) hkeep
    refine ⟨fun i hi hlt => (hpurged.has_iff hlayout i).mpr ⟨hkeep i ?_, ?_⟩, (hpurged.has_iff hlayout _).mpr ⟨?_, ?_⟩⟩
    · rwa [← hpurged.sequence]
    · rwa [← hpurged.sequence]
    · exact hpurged.onward _ (le_of_eq hpurged.sequence.symm)
    · exact le_of_eq hpurged.sequence
  have hnone : ∀ op ∈ pre ++ post, op.keeps 0 := fun op _ => by
    cases op with
    | wal op => trivial
    | purge keepCount fails => exact Nat.zero_le _
  obtain ⟨closed, current, full, hposition, hbuf, hfollows⟩ :=
    follows_flushed crc config now (fun _ _ => True) (fun _ => trivial) (fun _ _ _ _ _ => trivial) pre post fun op _ => by
      cases op with
      | wal op => trivial
      | purge keepCount fails => exact fun _ _ _ _ _ _ _ _ => trivial
  refine ⟨?_, (hlast 0 hnone).2, fun k hk => (hlast k hk).1⟩
  rw [hposition]
  exact hfollows.readFrom hbuf henc

end Law

def purgingRun : List PurgingOp :=
  [.wal (.write (.nodeStart sampleTrace 1 2) 0 0), .wal (.write (.nodeStart sampleTrace 2 3) 0 0),
    .purge 1 fun n => n = walFileName 0, .wal (.write (.traceComplete sampleTrace 4) 0 0)]

theorem purged_log_reads_sample :
    let before := runPurging crc32 (Wal.open smallFiles ∅ 0) [.wal (.write (.traceStart sampleTrace 1) 0 0)]
    let after := runPurging crc32 before (purgingRun ++ [.wal .flush])
    readFrom crc32 after.disk.2 before.getCurrentPosition =
        .ok (((recorded crc32 before purgingRun).filter fun p => after.has p.1).map fun p => p.2.readBack) ∧
      after.has after.sequence = true ∧
      ∀ k, (∀ op ∈ [.wal (.write (.traceStart sampleTrace 1) 0 0)] ++ purgingRun, op.keeps k) →
        ∀ i ≤ after.sequence, after.sequence < i + k → after.has i = true :=
  purged_log_reads crc32 smallFiles 0 [.wal (.write (.traceStart sampleTrace 1) 0 0)] purgingRun (by decide)

/-! ### What recovery loses -/

theorem foldl_stepTrace_opens (t : TraceId) (rs : List WalRecord) (s s' : Option TraceRecoveryState)
    (h : ∃ r ∈ rs, r.opensOrEnds t = true) :
    (rs.filter fun r => r.traceId = t).foldl stepTrace s = (rs.filter fun r => r.traceId = t).foldl stepTrace s' := by
  induction rs generalizing s s' with
  | nil =>
    obtain ⟨r, hr, -⟩ := h
    cases hr
  | cons r rs ih =>
    by_cases hlater : ∃ r ∈ rs, r.opensOrEnds t = true
    · by_cases htrace : r.traceId = t
      · simp only [List.filter_cons, htrace, decide_true, if_true, List.foldl_cons]
        exact ih _ _ hlater
      · simp only [List.filter_cons, htrace, decide_false, Bool.false_eq_true, if_false]
        exact ih s s' hlater
    · obtain ⟨x, hx, hopens⟩ := h
      rcases List.mem_cons.mp hx with rfl | hx
      · have htrace : x.traceId = t := by
          simp only [WalRecord.opensOrEnds, Bool.and_eq_true, decide_eq_true_eq] at hopens
          exact hopens.1
        have hstep : stepTrace s x = stepTrace s' x := by
          simp only [WalRecord.opensOrEnds, Bool.and_eq_true, Bool.or_eq_true, decide_eq_true_eq] at hopens
          rcases hopens.2 with (hkind | hkind) | hkind
          · simp [stepTrace, applyRecordToTraces, hkind]
          · simp [stepTrace, applyRecordToTraces, hkind]
          · simp [stepTrace, applyRecordToTraces, hkind]
        simp only [List.filter_cons, htrace, decide_true, if_true, List.foldl_cons, hstep]
      · exact absurd ⟨x, hx, hopens⟩ hlater

theorem lastOf_append (p : WalRecord → Bool) (rs ts : List WalRecord) :
    lastOf p (rs ++ ts) = (lastOf p ts).or (lastOf p rs) := by
  unfold lastOf
  rw [List.reverse_append, List.find?_append]

/-- A trace is recovered from the end of a log as from all of it, unless it was open at the cut and nothing behind
the cut starts or ends it. -/
theorem replay_end_iff (t : TraceId) (lost kept : List WalRecord) :
    replay Table.empty kept t = replay Table.empty (lost ++ kept) t ↔
      isOpen t lost = false ∨ ∃ r ∈ kept, r.opensOrEnds t = true := by
  by_cases hopens : ∃ r ∈ kept, r.opensOrEnds t = true
  · refine iff_of_true ?_ (.inr hopens)
    rw [replay_append, replay_apply, replay_apply (replay Table.empty lost)]
    exact foldl_stepTrace_opens t kept _ _ hopens
  · have hlast : lastOf (WalRecord.opensOrEnds t) kept = none := by
      rw [lastOf, List.find?_eq_none]
      exact fun r hr hopen => hopens ⟨r, List.mem_reverse.mp hr, hopen⟩
    have hkept := isSome_replay t kept
    have hall := isSome_replay t (lost ++ kept)
    rw [isOpen, hlast] at hkept
    rw [isOpen, lastOf_append, hlast] at hall
    have hlost : (replay Table.empty (lost ++ kept) t).isSome = isOpen t lost := hall
    constructor
    · intro h
      rw [← hlost, ← h, hkept]
      exact .inl rfl
    · intro h
      rcases h with h | h
      · rw [replay_append, replay_apply, replay_apply (replay Table.empty lost)]
        have hnone : replay Table.empty lost t = none := by
          rw [← Option.not_isSome_iff_eq_none, isSome_replay t lost, h]
          exact Bool.false_ne_true
        rw [hnone]
        rfl
      · exact absurd h hopens

theorem tagSegments_bounds (first : ℕ) (segments : List (List WalRecord)) :
    (∀ p ∈ tagSegments first segments, first ≤ p.1 ∧ p.1 < first + segments.length) ∧
      (tagSegments first segments).Pairwise fun p q => p.1 ≤ q.1 := by
  induction segments generalizing first with
  | nil => exact ⟨by simp [tagSegments], List.Pairwise.nil⟩
  | cons segment segments ih =>
    obtain ⟨hbounds, hsorted⟩ := ih (first + 1)
    rw [tagSegments, List.length_cons]
    have hfront : ∀ p ∈ segment.map fun record => (first, record), p.1 = first := by
      intro p hp
      obtain ⟨r, -, rfl⟩ := List.mem_map.mp hp
      rfl
    constructor
    · intro p hp
      rcases List.mem_append.mp hp with hp | hp
      · rw [hfront p hp]
        omega
      · have hb := hbounds p hp
        omega
    · refine List.pairwise_append.mpr ⟨?_, hsorted, fun p hp q hq => ?_⟩
      · exact List.pairwise_map.mpr (List.pairwise_of_forall fun _ _ => le_rfl)
      · have hb := hbounds q hq
        rw [hfront p hp]
        omega

section Recovery
variable {crc : Bytes → UInt32}

/-- With a file all later ones are kept, wherever the log ends. -/
def KeptOnward (_ : ℕ) (keep : ℕ → Prop) : Prop := ∀ i j, keep i → i ≤ j → keep j

theorem Follows.recovers {full w : Wal} {all : List (ℕ × WalRecord)}
    (h : Follows crc KeptOnward [] [] all full w) (hbuf : full.disk.1.buf = [])
    (henc : ∀ p ∈ all, p.2.Encodable) :
    ∃ traces, getIncompleteTraces crc w.disk.2 = .ok traces ∧ ∀ t,
      traces t = replay Table.empty (all.map fun p => p.2.readBack) t ↔
        isOpen t ((all.filter fun p => !w.has p.1).map Prod.snd) = false ∨
          ∃ p ∈ all, w.has p.1 = true ∧ p.2.opensOrEnds t = true := by
  have hread := h.readFrom hbuf henc
  obtain ⟨⟨keep, hpurged, hkeep⟩, closed, current, hlayout, -, htags⟩ := h
  obtain ⟨hbounds, hsorted⟩ := tagSegments_bounds 0 (closed ++ [current])
  have hempty : tagSegments 0 ([] ++ [([] : List WalRecord)]) = [] := rfl
  rw [hempty, List.nil_append] at htags
  rw [htags, List.length_append, hlayout.sequence, List.length_singleton] at hbounds
  rw [htags] at hsorted
  have hsplit : (all.filter fun p => !w.has p.1) ++ (all.filter fun p => w.has p.1) = all := by
    have hlast : all.Pairwise fun p q => w.has p.1 = true → w.has q.1 = true := by
      refine hsorted.imp_of_mem fun {p q} _ hq hle hp => ?_
      have hlt := (hbounds q hq).2
      rw [hpurged.has_iff hlayout] at hp ⊢
      exact ⟨hkeep _ _ hp.1 hle, by omega⟩
    exact filter_not_append (fun p : ℕ × WalRecord => w.has p.1) all hlast
  refine ⟨_, by rw [getIncompleteTraces_readAll, readAll]; exact congrArg _ hread, fun t => ?_⟩
  have hend := replay_end_iff t (((all.filter fun p => !w.has p.1).map Prod.snd).map WalRecord.readBack)
    ((all.filter fun p => w.has p.1).map fun p => p.2.readBack)
  have hrecords : ((all.filter fun p => !w.has p.1).map Prod.snd).map WalRecord.readBack ++
      ((all.filter fun p => w.has p.1).map fun p => p.2.readBack) = all.map fun p => p.2.readBack := by
    rw [List.map_map]
    exact List.map_append.symm.trans (congrArg _ hsplit)
  rw [hrecords, isOpen_readBack] at hend
  refine hend.trans (or_congr Iff.rfl ⟨fun ⟨r, hr, hopens⟩ => ?_, fun ⟨p, hp, hhas, hopens⟩ => ?_⟩)
  · obtain ⟨p, hp, rfl⟩ := List.mem_map.mp hr
    obtain ⟨hmem, hhas⟩ := List.mem_filter.mp hp
    exact ⟨p, hmem, hhas, hopens⟩
  · exact ⟨p.2.readBack, List.mem_map.mpr ⟨p, List.mem_filter.mpr ⟨hp, hhas⟩, rfl⟩, hopens⟩

/-- Every file that a purge means to remove is removed. -/
def PurgingOp.removes : PurgingOp → Prop
  | .wal _ => True
  | .purge _ fails => ∀ n, fails n = false

/-- After any run whose removals succeed, a trace is recovered from a purged log as from a log that was never purged
if and only if it was not open where the deleted files end or a record that is still there starts or ends it. -/
theorem purge_recovers_iff (crc : Bytes → UInt32) (config : WalConfig) (now : ℕ) (ops : List PurgingOp)
    (hremoves : ∀ op ∈ ops, op.removes) (henc : ∀ p ∈ recorded crc (Wal.open config ∅ now) ops, p.2.Encodable) :
    let all := recorded crc (Wal.open config ∅ now) ops
    let w := runPurging crc (Wal.open config ∅ now) (ops ++ [.wal .flush])
    ∃ traces, getIncompleteTraces crc w.disk.2 = .ok traces ∧ ∀ t,
      traces t = replay Table.empty (all.map fun p => p.2.readBack) t ↔
        isOpen t ((all.filter fun p => !w.has p.1).map Prod.snd) = false ∨
          ∃ p ∈ all, w.has p.1 = true ∧ p.2.opensOrEnds t = true := by
  have hall : KeptOnward (Wal.open config ∅ now).sequence fun _ => True := fun _ _ _ _ => trivial
  have hkeeps : ∀ op ∈ ops ++ [.wal .flush], PurgeKeeps crc KeptOnward op := by
    intro op hop
    rcases List.mem_append.mp hop with hop | hop
    · cases op with
      | wal op => trivial
      | purge keepCount fails =>
        obtain rfl : fails = fun _ => false := funext (hremoves _ hop)
        exact fun keep full w closed current h hlayout hkeep => h.purge_last hlayout keepCount hkeep
    · rw [List.mem_singleton.mp hop]
      trivial
  have hfollows := (purged_open config now).run (WalLayout.fresh crc config now) hall (fun _ _ _ _ h => h)
    (ops ++ [.wal .flush]) hkeeps
  rw [recorded_flush] at hfollows
  exact hfollows.recovers (by rw [unpurged_flush, runWal_append]; rfl) henc

theorem purge_recovers_sample :
    let ops := [PurgingOp.wal (.write (.traceStart sampleTrace 1) 0 0), .wal (.write (.nodeStart sampleTrace 2 3) 0 0),
      .wal (.write (.nodeStart sampleTrace 4 5) 0 0), .purge 1 fun _ => false]
    let all := recorded crc32 (Wal.open smallFiles ∅ 0) ops
    let w := runPurging crc32 (Wal.open smallFiles ∅ 0) (ops ++ [.wal .flush])
    ∃ traces, getIncompleteTraces crc32 w.disk.2 = .ok traces ∧ ∀ t,
      traces t = replay Table.empty (all.map fun p => p.2.readBack) t ↔
        isOpen t ((all.filter fun p => !w.has p.1).map Prod.snd) = false ∨
          ∃ p ∈ all, w.has p.1 = true ∧ p.2.opensOrEnds t = true :=
  purge_recovers_iff crc32 smallFiles 0 _ (by simp [PurgingOp.removes]) (by decide)

end Recovery

end Xerv
