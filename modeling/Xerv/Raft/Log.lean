import Xerv.Raft.Storage

/-!
# The segmented log

An abstract view of the storage: for every segment the entries it holds, the
in-memory map, and the segment open for writing with its entry count. Bytes,
names and buffers are gone. Each operation of the storage carries out the
operation of the same name on this view (`Refines`), as long as every segment
start has at most twelve digits.
-/

namespace Xerv.Raft
open Xerv.Lib

structure SegmentedLog (P : Type) where
  files : SortedMap (List (ClusterEntry P))
  logs : SortedMap (ClusterEntry P)
  purged : Option LogId
  saved : Option LogId
  active : Option (ℕ × ℕ)

namespace SegmentedLog
variable {P : Type}

def fresh : SegmentedLog P := ⟨SortedMap.empty, SortedMap.empty, none, none, none⟩

def entriesAt (a : SegmentedLog P) (first : ℕ) : List (ClusterEntry P) := (a.files.get first).getD []

def openSegment (a : SegmentedLog P) (index : ℕ) : SegmentedLog P :=
  let first := LogStorage.alignFirst index
  { a with files := a.files.insert first (a.entriesAt first), active := some (first, 0) }

def ensure (a : SegmentedLog P) (index : ℕ) : SegmentedLog P :=
  match a.active with
  | none => a.openSegment index
  | some (_, count) => if segmentMaxEntries ≤ count then a.openSegment index else a

def write (a : SegmentedLog P) (e : ClusterEntry P) : SegmentedLog P :=
  match a.active with
  | none => a
  | some (first, count) =>
    { a with
      files := a.files.insert first (a.entriesAt first ++ [e])
      active := some (first, count + 1)
      logs := LogStorage.insertEntry a.logs e }

def appendOne (a : SegmentedLog P) (e : ClusterEntry P) : SegmentedLog P :=
  (a.ensure e.index).write e

def append (a : SegmentedLog P) (es : List (ClusterEntry P)) : SegmentedLog P := es.foldl appendOne a

def dropFile (a : SegmentedLog P) (first : ℕ) : SegmentedLog P :=
  { a with files := a.files.remove first, active := a.active.filter fun p => p.1 ≠ first }

def purgeFile (i : ℕ) (a : SegmentedLog P) (first : ℕ) : SegmentedLog P :=
  if first + segmentMaxEntries - 1 ≤ i then a.dropFile first else a

def purge (a : SegmentedLog P) (logId : LogId) : SegmentedLog P :=
  let a := { a with purged := some logId, logs := a.logs.retain fun k => logId.index < k }
  { a.files.keys.foldl (purgeFile logId.index) a with saved := some logId }

def between (a : SegmentedLog P) (first last : ℕ) : List (ClusterEntry P) :=
  (a.logs.retain fun k => first ≤ k && k < last).values

def truncateFile (i : ℕ) (a : SegmentedLog P) (first : ℕ) : SegmentedLog P :=
  if i ≤ first then a.dropFile first
  else if i < first + segmentMaxEntries then
    let es := a.between first i
    if es.isEmpty then a.dropFile first
    else { a with files := a.files.insert first es, active := some (first, es.length) }
  else a

def truncate (a : SegmentedLog P) (logId : LogId) : SegmentedLog P :=
  let a := { a with logs := a.logs.retain fun k => k < logId.index }
  a.files.keys.foldl (truncateFile logId.index) a

/-- All entries on disk, in the order in which they are loaded. -/
def diskEntries (a : SegmentedLog P) : List (ClusterEntry P) := a.files.values.flatten

def reload (a : SegmentedLog P) : SortedMap (ClusterEntry P) :=
  a.diskEntries.foldl LogStorage.insertEntry SortedMap.empty

/-- The last segment is reopened if the map has fewer than 1000 entries from its start on. -/
def reopened (a : SegmentedLog P) : Option (ℕ × ℕ) :=
  a.files.lastKey?.bind fun first =>
    let count := (a.reload.retain fun k => first ≤ k).entries.length
    if count < segmentMaxEntries then some (first, count) else none

def restart (a : SegmentedLog P) : SegmentedLog P :=
  { a with logs := a.reload, purged := a.saved, active := a.reopened }

end SegmentedLog

/-! ### The storage refines the segmented log -/

section Refinement
variable {P : Type} (codec : EntryCodec P)

def pending (s : LogStorage P) (first : ℕ) : Bytes :=
  match s.active with
  | some a => if a.firstIndex = first then a.writer.buf else []
  | none => []

structure Refines (s : LogStorage P) (a : SegmentedLog P) : Prop where
  logs : s.logs = a.logs
  purged : s.lastPurgedLogId = a.purged
  saved : s.metaFile.bind PersistedLogMeta.lastPurgedLogId = a.saved
  names : ∀ n, n ∈ s.segments ↔ ∃ first ∈ a.files.keys, n = segmentFilename first
  bound : ∀ first ∈ a.files.keys, first < indexBound
  active : s.active.map (fun x => (x.firstIndex, x.entryCount)) = a.active
  writer : ∀ x, s.active = some x → x.writer.path = segmentFilename x.firstIndex ∧
    x.firstIndex ∈ a.files.keys ∧ x.writer.buf.length ≤ x.writer.capacity
  file : ∀ first es, a.files.get first = some es →
    ∃ f, s.segments.get (segmentFilename first) = some f ∧
      f.data ++ pending s first = encodeEntries codec es

/-- Nothing is buffered: the state between two operations. -/
def Idle (s : LogStorage P) : Prop := ∀ x, s.active = some x → x.writer.buf = []

theorem pending_idle (s : LogStorage P) (h : Idle s) (first : ℕ) : pending s first = [] := by
  unfold pending
  cases hs : s.active with
  | none => rfl
  | some x =>
    dsimp only
    split
    · exact h x hs
    · rfl

variable {codec} {s : LogStorage P} {a : SegmentedLog P}

theorem Refines.absent (h : Refines codec s a) (first : ℕ) (hnone : a.files.get first = none) :
    segmentFilename first ∉ s.segments := by
  intro hmem
  obtain ⟨j, hj, he⟩ := (h.names _).mp hmem
  have hij := segmentFilename_injective he
  obtain ⟨v, hv⟩ := (a.files.mem_keys_iff j).mp hj
  rw [← hij, hnone] at hv
  exact absurd hv (by simp)

theorem Refines.listing (h : Refines codec s a) :
    listSegments s.segments = .ok (a.files.keys.map fun i => (i, segmentFilename i)) :=
  listSegments_eq s.segments a.files.keys h.bound a.files.keys_sorted h.names

theorem Refines.file_kept (h : Refines codec s a) (hidle : Idle s) {s' : LogStorage P} (hidle' : Idle s')
    (first : ℕ) (es : List (ClusterEntry P)) (hes : a.files.get first = some es)
    (hget : s'.segments.get (segmentFilename first) = s.segments.get (segmentFilename first)) :
    ∃ f, s'.segments.get (segmentFilename first) = some f ∧
      f.data ++ pending s' first = encodeEntries codec es := by
  obtain ⟨f, hf, hd⟩ := h.file first es hes
  rw [pending_idle s hidle] at hd
  rw [pending_idle s' hidle']
  exact ⟨f, hget.trans hf, hd⟩

theorem alignFirst_le (index : ℕ) : LogStorage.alignFirst index ≤ index :=
  Nat.div_mul_le_self index segmentMaxEntries

theorem Refines.openSegment (h : Refines codec s a) (hidle : Idle s) (index : ℕ)
    (hbound : index < indexBound) :
    Refines codec (s.startNewSegment index) (a.openSegment index) := by
  have hfirst : LogStorage.alignFirst index < indexBound := lt_of_le_of_lt (alignFirst_le index) hbound
  refine ⟨h.logs, h.purged, h.saved, ?_, ?_, rfl, ?_, ?_⟩
  · intro n
    show n ∈ openAppend s.segments _ ↔ _
    rw [mem_openAppend, h.names]
    constructor
    · intro hn
      rcases hn with hn | ⟨first, hf, hn⟩
      · exact ⟨_, (a.files.mem_keys_insert _ _ _).mpr (.inl rfl), hn⟩
      · exact ⟨first, (a.files.mem_keys_insert _ _ _).mpr (.inr hf), hn⟩
    · intro hn
      obtain ⟨first, hf, hn⟩ := hn
      rcases (a.files.mem_keys_insert _ _ _).mp hf with hf | hf
      · exact .inl (by rw [hn, hf])
      · exact .inr ⟨first, hf, hn⟩
  · intro first hf
    rcases (a.files.mem_keys_insert _ _ _).mp hf with hf | hf
    · rw [hf]
      exact hfirst
    · exact h.bound first hf
  · intro x hx
    have hx' : _ = x := Option.some.inj hx
    subst hx'
    exact ⟨rfl, (a.files.mem_keys_insert _ _ _).mpr (.inl rfl), Nat.zero_le _⟩
  · intro first es hes
    have hidle' : Idle (s.startNewSegment index) := by
      intro x hx
      have hx' : _ = x := Option.some.inj hx
      rw [← hx']
    by_cases hne : first = LogStorage.alignFirst index
    · subst hne
      have hes' : es = a.entriesAt (LogStorage.alignFirst index) := by
        unfold SegmentedLog.openSegment at hes
        dsimp only at hes
        rw [SortedMap.get_insert_self] at hes
        exact (Option.some.inj hes).symm
      rw [hes', SegmentedLog.entriesAt]
      cases hold : a.files.get (LogStorage.alignFirst index) with
      | none =>
        -- a segment that does not exist yet is created empty
        have hnot := (Directory.get_eq_none _ _).mpr (h.absent _ hold)
        rw [pending_idle _ hidle']
        show ∃ f, (openAppend s.segments _).get _ = some f ∧ _
        rw [openAppend_self, hnot]
        exact ⟨_, rfl, rfl⟩
      | some old =>
        obtain ⟨f, hf, _⟩ := h.file _ old hold
        refine h.file_kept hidle hidle' _ old hold ?_
        show (openAppend s.segments _).get _ = _
        rw [openAppend_existing _ _ f hf]
    · have hes' : a.files.get first = some es := by
        unfold SegmentedLog.openSegment at hes
        dsimp only at hes
        rwa [SortedMap.get_insert_ne _ _ _ _ hne] at hes
      exact h.file_kept hidle hidle' first es hes'
        (openAppend_other _ _ _ (segmentFilename_injective.ne hne))

theorem Refines.holds (h : Refines codec s a) (x : ActiveSegment) (hx : s.active = some x) :
    BufWriter.Holds (x.writer, s.segments) (encodeEntries codec (a.entriesAt x.firstIndex)) := by
  obtain ⟨hpath, hmem, _⟩ := h.writer x hx
  obtain ⟨es, hes⟩ := (a.files.mem_keys_iff _).mp hmem
  obtain ⟨f, hf, hd⟩ := h.file _ es hes
  refine ⟨f, ?_, ?_⟩
  · rw [hpath]
    exact hf
  · have hpend : pending s x.firstIndex = x.writer.buf := by simp [pending, hx]
    rw [hpend] at hd
    rw [hd, SegmentedLog.entriesAt, hes]
    rfl

theorem Refines.extend (h : Refines codec s a) (x : ActiveSegment) (hx : s.active = some x)
    (s' : LogStorage P) (a' : SegmentedLog P) (disk : BufWriter.OnDisk) (count : ℕ)
    (es : List (ClusterEntry P))
    (hext : BufWriter.Extends (x.writer, s.segments) disk (encodeEntries codec es))
    (hcap : disk.1.buf.length ≤ disk.1.capacity)
    (hsegments : s'.segments = disk.2)
    (hactive : s'.active = some { x with entryCount := count, writer := disk.1 })
    (hmeta : s'.metaFile = s.metaFile) (hpurged : s'.lastPurgedLogId = s.lastPurgedLogId)
    (hlogs : s'.logs = a'.logs) (hactive' : a'.active = some (x.firstIndex, count))
    (hpurged' : a'.purged = a.purged) (hsaved' : a'.saved = a.saved)
    (hself : a'.files.get x.firstIndex = some (a.entriesAt x.firstIndex ++ es))
    (hother : ∀ j, j ≠ x.firstIndex → a'.files.get j = a.files.get j) :
    Refines codec s' a' := by
  obtain ⟨hpath, hmem, _⟩ := h.writer x hx
  have hkeys : ∀ j, j ∈ a'.files.keys ↔ j ∈ a.files.keys := by
    intro j
    by_cases hj : j = x.firstIndex
    · subst hj
      exact ⟨fun _ => hmem, fun _ => (a'.files.mem_keys_iff _).mpr ⟨_, hself⟩⟩
    · rw [SortedMap.mem_keys_iff, SortedMap.mem_keys_iff, hother j hj]
  refine ⟨hlogs, ?_, ?_, ?_, ?_, ?_, ?_, ?_⟩
  · rw [hpurged, hpurged', h.purged]
  · rw [hmeta, hsaved', h.saved]
  · intro n
    rw [hsegments, hext.names]
    simp only [hkeys]
    exact h.names n
  · intro first hf
    exact h.bound first ((hkeys first).mp hf)
  · rw [hactive, hactive']
    rfl
  · intro y hy
    rw [hactive] at hy
    have hy' : _ = y := Option.some.inj hy
    subst hy'
    exact ⟨hext.path.trans hpath, (hkeys _).mpr hmem, hcap⟩
  · intro first fs hfs
    have hpend : pending s' first = if x.firstIndex = first then disk.1.buf else [] := by
      simp [pending, hactive]
    rw [hpend, hsegments]
    by_cases hj : first = x.firstIndex
    · subst hj
      rw [hself] at hfs
      have hfs' : _ = fs := Option.some.inj hfs
      subst hfs'
      obtain ⟨f, hf, hd⟩ := hext.holds _ (h.holds x hx)
      rw [hext.path, hpath] at hf
      rw [if_pos rfl, encodeEntries_append]
      exact ⟨f, hf, hd⟩
    · have hfs' : a.files.get first = some fs := by rwa [hother first hj] at hfs
      obtain ⟨f, hf, hd⟩ := h.file first fs hfs'
      have hold : pending s first = [] := by
        have hne : x.firstIndex ≠ first := fun he => hj he.symm
        simp [pending, hx, hne]
      rw [hold] at hd
      have hne : segmentFilename first ≠ x.writer.path := by
        rw [hpath]
        exact segmentFilename_injective.ne hj
      rw [if_neg fun he => hj he.symm]
      exact ⟨f, by rw [hext.others _ hne, hf], hd⟩

theorem Refines.active_eq (h : Refines codec s a) (x : ActiveSegment) (hx : s.active = some x) :
    a.active = some (x.firstIndex, x.entryCount) := by
  rw [← h.active, hx]
  rfl

theorem Refines.active_none (h : Refines codec s a) (hx : s.active = none) : a.active = none := by
  rw [← h.active, hx]
  rfl

theorem flushActive_idle (s : LogStorage P) : Idle s.flushActive := by
  unfold LogStorage.flushActive
  cases hs : s.active with
  | none =>
    intro x hx
    rw [hs] at hx
    exact absurd hx (by simp)
  | some x =>
    intro y hy
    have hy' : _ = y := Option.some.inj hy
    subst hy'
    rfl

theorem Refines.flushActive (h : Refines codec s a) : Refines codec s.flushActive a := by
  unfold LogStorage.flushActive
  cases hs : s.active with
  | none => exact h
  | some x =>
    have hext : BufWriter.Extends (x.writer, s.segments)
        (BufWriter.syncData (BufWriter.flush (x.writer, s.segments))) (encodeEntries codec []) :=
      (BufWriter.flush_extends _).trans (BufWriter.syncData_extends _)
    obtain ⟨es, hes⟩ := (a.files.mem_keys_iff _).mp (h.writer x hs).2.1
    refine h.extend x hs _ a _ x.entryCount [] hext (Nat.zero_le _) rfl rfl rfl rfl h.logs
      (h.active_eq x hs) rfl rfl ?_ fun _ _ => rfl
    rw [List.append_nil, SegmentedLog.entriesAt, hes]
    rfl

theorem Refines.ensure (h : Refines codec s a) (index : ℕ) (hbound : index < indexBound) :
    Refines codec (s.ensureActive index) (a.ensure index) := by
  unfold LogStorage.ensureActive SegmentedLog.ensure
  cases hs : s.active with
  | none =>
    have hidle : Idle s := fun x hx => by
      rw [hs] at hx
      exact absurd hx (by simp)
    rw [h.active_none hs]
    exact h.openSegment hidle index hbound
  | some x =>
    have hnone : (some x : Option ActiveSegment).isNone = false := rfl
    rw [h.active_eq x hs]
    simp only [hnone, Bool.false_eq_true, if_false, hs]
    split
    · exact h.flushActive.openSegment (flushActive_idle s) index hbound
    · exact h

theorem writeLine_extends (codec : EntryCodec P) (w : BufWriter.OnDisk) (e : ClusterEntry P)
    (hcap : w.1.buf.length ≤ w.1.capacity) :
    BufWriter.Extends w (BufWriter.writeAll (BufWriter.writeAll w (codec.toJson e)) [10])
        (encodeEntries codec [e]) ∧
      (BufWriter.writeAll (BufWriter.writeAll w (codec.toJson e)) [10]).1.buf.length ≤
        (BufWriter.writeAll (BufWriter.writeAll w (codec.toJson e)) [10]).1.capacity := by
  have hfirst := BufWriter.writeAll_cap w (codec.toJson e) hcap
  have hline : encodeEntries codec [e] = codec.toJson e ++ [10] := by
    simp [encodeEntries, entryLine]
  rw [hline]
  exact ⟨(BufWriter.writeAll_extends _ _ hcap).trans (BufWriter.writeAll_extends _ _ hfirst),
    BufWriter.writeAll_cap _ _ hfirst⟩

theorem Refines.write (h : Refines codec s a) (e : ClusterEntry P) :
    Refines codec (s.writeEntry codec e) (a.write e) := by
  unfold LogStorage.writeEntry SegmentedLog.write
  cases hs : s.active with
  | none =>
    rw [h.active_none hs]
    exact h
  | some x =>
    have hcap := (h.writer x hs).2.2
    obtain ⟨hext, hcap'⟩ := writeLine_extends codec (x.writer, s.segments) e hcap
    rw [h.active_eq x hs]
    refine h.extend x hs _ _ _ (x.entryCount + 1) [e] hext hcap'
      rfl rfl rfl rfl ?_ rfl rfl rfl ?_ ?_
    · show LogStorage.insertEntry s.logs e = LogStorage.insertEntry a.logs e
      rw [h.logs]
    · exact SortedMap.get_insert_self _ _ _
    · intro j hj
      exact SortedMap.get_insert_ne _ _ _ _ hj

theorem Refines.append (h : Refines codec s a) (hidle : Idle s) (es : List (ClusterEntry P))
    (hbound : ∀ e ∈ es, e.index < indexBound) :
    Refines codec (s.appendEntries codec es) (a.append es) ∧ Idle (s.appendEntries codec es) := by
  have hfold : Refines codec (es.foldl (LogStorage.appendOne codec) s) (a.append es) := by
    clear hidle
    induction es generalizing s a with
    | nil => exact h
    | cons e es ih =>
      have he := (h.ensure e.index (hbound e List.mem_cons_self)).write e
      exact ih he fun x hx => hbound x (List.mem_cons_of_mem _ hx)
  unfold LogStorage.appendEntries
  cases es with
  | nil => exact ⟨h, hidle⟩
  | cons e es => exact ⟨hfold.flushActive, flushActive_idle _⟩

/-! ### Removing and rewriting segments -/

theorem closeActive_get (hidle : Idle s) (n : String) :
    s.closeActive.segments.get n = s.segments.get n := by
  unfold LogStorage.closeActive
  cases hs : s.active with
  | none => rfl
  | some x =>
    have hbuf := hidle x hs
    show (modifyFile s.segments x.writer.path _).get n = s.segments.get n
    by_cases hn : n = x.writer.path
    · subst hn
      rw [modifyFile_self, hbuf]
      cases s.segments.get x.writer.path with
      | none => rfl
      | some f => simp
    · exact modifyFile_other _ _ _ _ hn

theorem closeActive_active (s : LogStorage P) : s.closeActive.active = none := by
  unfold LogStorage.closeActive
  cases hs : s.active with
  | none => exact hs
  | some x => rfl

/-- The fields that neither segments nor the active writer touch. -/
def SameLog (s s' : LogStorage P) : Prop :=
  s'.logs = s.logs ∧ s'.lastPurgedLogId = s.lastPurgedLogId ∧ s'.metaFile = s.metaFile

theorem closeActive_sameLog (s : LogStorage P) : SameLog s s.closeActive := by
  unfold LogStorage.closeActive
  cases hs : s.active with
  | none => exact ⟨rfl, rfl, rfl⟩
  | some x => exact ⟨rfl, rfl, rfl⟩

theorem Refines.dropFile (h : Refines codec s a) (hidle : Idle s) (first : ℕ)
    (s' : LogStorage P) (hsame : SameLog s s')
    (hget : ∀ n, s'.segments.get n = if n = segmentFilename first then none else s.segments.get n)
    (hactive : s'.active = s.active.filter fun x => x.firstIndex ≠ first) :
    Refines codec s' (a.dropFile first) ∧ Idle s' := by
  have hkeys : ∀ j, j ∈ (a.dropFile first).files.keys ↔ j ∈ a.files.keys ∧ j ≠ first :=
    fun j => a.files.mem_keys_remove j first
  have hidle' : Idle s' := by
    intro x hx
    rw [hactive] at hx
    exact hidle x (Option.filter_eq_some_iff.mp hx).1
  refine ⟨⟨?_, ?_, ?_, ?_, ?_, ?_, ?_, ?_⟩, hidle'⟩
  · exact hsame.1.trans h.logs
  · exact hsame.2.1.trans h.purged
  · rw [hsame.2.2]
    exact h.saved
  · intro n
    have hmem : n ∈ s'.segments ↔ n ≠ segmentFilename first ∧ n ∈ s.segments := by
      rw [← Directory.get_isSome, ← Directory.get_isSome, hget]
      by_cases hn : n = segmentFilename first <;> simp [hn]
    rw [hmem, h.names]
    constructor
    · intro hex
      obtain ⟨hne, j, hj, rfl⟩ := hex
      exact ⟨j, (hkeys j).mpr ⟨hj, fun hjf => hne (congrArg segmentFilename hjf)⟩, rfl⟩
    · intro hex
      obtain ⟨j, hj, rfl⟩ := hex
      obtain ⟨hjk, hjne⟩ := (hkeys j).mp hj
      exact ⟨segmentFilename_injective.ne hjne, j, hjk, rfl⟩
  · intro j hj
    exact h.bound j ((hkeys j).mp hj).1
  · rw [hactive]
    show _ = a.active.filter fun p => p.1 ≠ first
    rw [← h.active]
    cases s.active with
    | none => rfl
    | some x => by_cases hx : x.firstIndex = first <;> simp [Option.filter, hx]
  · intro x hx
    rw [hactive] at hx
    obtain ⟨hsx, hne⟩ := Option.filter_eq_some_iff.mp hx
    obtain ⟨hpath, hmem, hcap⟩ := h.writer x hsx
    exact ⟨hpath, (hkeys _).mpr ⟨hmem, by simpa using hne⟩, hcap⟩
  · intro j es hes
    have hj : j ≠ first := by
      intro he
      subst he
      have hnone : (a.dropFile j).files.get j = none := SortedMap.get_remove_self _ _
      rw [hnone] at hes
      exact absurd hes (by simp)
    have hes' : a.files.get j = some es := by
      have hsame' : (a.dropFile first).files.get j = a.files.get j :=
        SortedMap.get_remove_ne _ _ _ hj
      rwa [hsame'] at hes
    refine h.file_kept hidle hidle' j es hes' ?_
    rw [hget, if_neg (segmentFilename_injective.ne hj)]

theorem removeFile_get (s : LogStorage P) (path n : String) :
    (s.removeFile path).segments.get n = if n = path then none else s.segments.get n := by
  show Directory.get (s.segments.erase path) n = _
  by_cases hn : n = path
  · subst hn
    rw [if_pos rfl, Directory.get_erase_self]
  · rw [if_neg hn, Directory.get_erase_ne _ _ _ hn]

theorem Refines.closeAndRemove (h : Refines codec s a) (hidle : Idle s) (first : ℕ) :
    let s' := (if s.isActiveSegment first then s.closeActive else s).removeFile
      (segmentFilename first)
    Refines codec s' (a.dropFile first) ∧ Idle s' := by
  intro s'
  by_cases hact : s.isActiveSegment first = true
  · have hs' : s' = s.closeActive.removeFile (segmentFilename first) := by simp [s', hact]
    rw [hs']
    refine h.dropFile hidle first _ (closeActive_sameLog s) ?_ ?_
    · intro n
      rw [removeFile_get, closeActive_get hidle]
    · show s.closeActive.active = _
      rw [closeActive_active]
      unfold LogStorage.isActiveSegment at hact
      cases hs : s.active with
      | none => rfl
      | some x =>
        rw [hs] at hact
        have hx : x.firstIndex = first := by simpa using hact
        simp [Option.filter, hx]
  · have hs' : s' = s.removeFile (segmentFilename first) := by simp [s', hact]
    rw [hs']
    refine h.dropFile hidle first _ ⟨rfl, rfl, rfl⟩ (removeFile_get s _) ?_
    show s.active = _
    unfold LogStorage.isActiveSegment at hact
    cases hs : s.active with
    | none => rfl
    | some x =>
      rw [hs] at hact
      have hx : x.firstIndex ≠ first := by simpa using hact
      simp [Option.filter, hx]

theorem purgeSegment_refines (h : Refines codec s a) (hidle : Idle s) (i first : ℕ) :
    Refines codec (s.purgeSegment i (first, segmentFilename first)) (a.purgeFile i first) ∧
      Idle (s.purgeSegment i (first, segmentFilename first)) := by
  have hclose := h.closeAndRemove hidle first
  unfold LogStorage.purgeSegment SegmentedLog.purgeFile
  dsimp only
  by_cases hle : first + segmentMaxEntries - 1 ≤ i
  · rw [if_pos hle, if_pos hle]
    by_cases hact : s.isActiveSegment first = true
    · simp only [hact, if_true] at hclose ⊢
      exact hclose
    · simp only [hact] at hclose ⊢
      exact hclose
  · rw [if_neg hle, if_neg hle]
    exact ⟨h, hidle⟩

theorem tmp_ne_segmentFilename (i j : ℕ) : segmentFilename i ++ ".tmp" ≠ segmentFilename j := by
  intro he
  have hlast := congrArg (fun n : String => n.toList.getLast?) he
  simp [segmentFilename, segSuffix] at hlast

theorem writeSegmentFile_get (s : LogStorage P) (first : ℕ) (es : List (ClusterEntry P))
    (htmp : segmentFilename first ++ ".tmp" ∉ s.segments) (n : String) :
    (s.writeSegmentFile codec first es).segments.get n =
      if n = segmentFilename first then
        some ⟨encodeEntries codec es, (encodeEntries codec es).length⟩
      else s.segments.get n := by
  show Directory.get ((s.segments.erase (segmentFilename first ++ ".tmp")).insert
    (segmentFilename first) _) n = _
  by_cases hn : n = segmentFilename first
  · subst hn
    rw [if_pos rfl, Directory.get_insert_self]
  · rw [if_neg hn, Directory.get_insert_ne _ _ _ _ hn]
    by_cases hnt : n = segmentFilename first ++ ".tmp"
    · subst hnt
      rw [Directory.get_erase_self, (Directory.get_eq_none _ _).mpr htmp]
    · exact Directory.get_erase_ne _ _ _ hnt

theorem Refines.rewrite (h : Refines codec s a) (hidle : Idle s) (first : ℕ)
    (hin : first ∈ a.files.keys) (es : List (ClusterEntry P)) (s' : LogStorage P)
    (hsame : SameLog s s')
    (hget : ∀ n, s'.segments.get n = if n = segmentFilename first then
      some ⟨encodeEntries codec es, (encodeEntries codec es).length⟩ else s.segments.get n)
    (hactive : s'.active =
      some ⟨first, es.length, ⟨segmentFilename first, defaultCapacity, []⟩⟩) :
    Refines codec s'
        { a with files := a.files.insert first es, active := some (first, es.length) } ∧
      Idle s' := by
  have hkeys : ∀ j, j ∈ (a.files.insert first es).keys ↔ j ∈ a.files.keys := by
    intro j
    rw [SortedMap.mem_keys_insert]
    constructor
    · intro hj
      rcases hj with hj | hj
      · rw [hj]
        exact hin
      · exact hj
    · exact fun hj => .inr hj
  have hidle' : Idle s' := by
    intro x hx
    rw [hactive] at hx
    have hx' : _ = x := Option.some.inj hx
    rw [← hx']
  refine ⟨⟨?_, ?_, ?_, ?_, ?_, ?_, ?_, ?_⟩, hidle'⟩
  · exact hsame.1.trans h.logs
  · exact hsame.2.1.trans h.purged
  · rw [hsame.2.2]
    exact h.saved
  · intro n
    simp only [hkeys]
    rw [← h.names n, ← Directory.get_isSome, ← Directory.get_isSome, hget]
    by_cases hn : n = segmentFilename first
    · have hsome : (s.segments.get n).isSome = true := by
        rw [Directory.get_isSome, h.names]
        exact ⟨first, hin, hn⟩
      rw [if_pos hn, hsome]
      rfl
    · rw [if_neg hn]
  · intro j hj
    exact h.bound j ((hkeys j).mp hj)
  · rw [hactive]
    rfl
  · intro x hx
    rw [hactive] at hx
    have hx' : _ = x := Option.some.inj hx
    subst hx'
    exact ⟨rfl, (hkeys _).mpr hin, Nat.zero_le _⟩
  · intro j fs hfs
    by_cases hj : j = first
    · subst hj
      have hfs' : es = fs := by
        dsimp only at hfs
        rw [SortedMap.get_insert_self] at hfs
        exact Option.some.inj hfs
      subst hfs'
      rw [pending_idle s' hidle', hget, if_pos rfl]
      exact ⟨_, rfl, List.append_nil _⟩
    · have hfs' : a.files.get j = some fs := by
        dsimp only at hfs
        rwa [SortedMap.get_insert_ne _ _ _ _ hj] at hfs
      refine h.file_kept hidle hidle' j fs hfs' ?_
      rw [hget, if_neg (segmentFilename_injective.ne hj)]

theorem logsBetween_eq (h : Refines codec s a) (first last : ℕ) :
    s.logsBetween first last = a.between first last := by
  unfold LogStorage.logsBetween SegmentedLog.between
  rw [h.logs]

theorem Refines.rewriteSegment (h : Refines codec s a) (hidle : Idle s) (first : ℕ)
    (hin : first ∈ a.files.keys) (es : List (ClusterEntry P)) :
    let s₁ := if s.isActiveSegment first then s.closeActive else s
    let s₂ := (s₁.writeSegmentFile codec first es).closeActive
    let s' := { s₂ with
      segments := openAppend s₂.segments (segmentFilename first)
      active := some ⟨first, es.length, ⟨segmentFilename first, defaultCapacity, []⟩⟩ }
    Refines codec s'
        { a with files := a.files.insert first es, active := some (first, es.length) } ∧
      Idle s' := by
  intro s₁ s₂ s'
  have hsame₁ : SameLog s s₁ := by
    by_cases hact : s.isActiveSegment first = true
    · simp only [s₁, hact, if_true]
      exact closeActive_sameLog s
    · simp only [s₁, hact]
      exact ⟨rfl, rfl, rfl⟩
  have hget₁ : ∀ n, s₁.segments.get n = s.segments.get n := by
    intro n
    by_cases hact : s.isActiveSegment first = true
    · simp only [s₁, hact, if_true]
      exact closeActive_get hidle n
    · simp only [s₁, hact]
      rfl
  have hidle₁ : Idle s₁ := by
    intro x hx
    by_cases hact : s.isActiveSegment first = true
    · simp only [s₁, hact, if_true, closeActive_active] at hx
      exact absurd hx (by simp)
    · simp only [s₁, hact] at hx
      exact hidle x hx
  have htmp : segmentFilename first ++ ".tmp" ∉ s₁.segments := by
    rw [← Directory.get_isSome, hget₁, Directory.get_isSome, h.names]
    intro hex
    obtain ⟨j, _, hj⟩ := hex
    exact tmp_ne_segmentFilename first j hj
  have hclosed : ∀ n, s₂.segments.get n = (s₁.writeSegmentFile codec first es).segments.get n :=
    fun n => closeActive_get (s := s₁.writeSegmentFile codec first es) hidle₁ n
  have hsame : SameLog s s' := by
    have hclose := closeActive_sameLog (s₁.writeSegmentFile codec first es)
    exact ⟨hclose.1.trans hsame₁.1, hclose.2.1.trans hsame₁.2.1, hclose.2.2.trans hsame₁.2.2⟩
  refine h.rewrite hidle first hin es s' hsame ?_ rfl
  intro n
  show (openAppend s₂.segments (segmentFilename first)).get n = _
  by_cases hn : n = segmentFilename first
  · subst hn
    rw [openAppend_self, hclosed, writeSegmentFile_get s₁ first es htmp, if_pos rfl,
      if_pos rfl]
    rfl
  · rw [openAppend_other _ _ _ hn, hclosed, writeSegmentFile_get s₁ first es htmp, if_neg hn, hget₁,
      if_neg hn]

theorem truncateSegment_refines (h : Refines codec s a) (hidle : Idle s) (i first : ℕ)
    (hin : first ∈ a.files.keys) :
    Refines codec (s.truncateSegment codec i (first, segmentFilename first))
        (a.truncateFile i first) ∧
      Idle (s.truncateSegment codec i (first, segmentFilename first)) := by
  have hdrop := h.closeAndRemove hidle first
  have hrewrite := h.rewriteSegment hidle first hin (a.between first i)
  unfold LogStorage.truncateSegment SegmentedLog.truncateFile
  dsimp only
  rw [logsBetween_eq h]
  by_cases hle : i ≤ first
  · rw [if_pos hle, if_pos hle]
    exact hdrop
  · rw [if_neg hle, if_neg hle]
    by_cases hlt : i < first + segmentMaxEntries
    · rw [if_pos hlt, if_pos hlt]
      by_cases hempty : (a.between first i).isEmpty = true
      · rw [if_pos hempty, if_pos hempty]
        exact hdrop
      · rw [if_neg hempty, if_neg hempty]
        exact hrewrite
    · rw [if_neg hlt, if_neg hlt]
      exact ⟨h, hidle⟩

/-! ### Loops over the listed segments -/

theorem foldl_refines (concrete : LogStorage P → ℕ × String → LogStorage P)
    (abstract : SegmentedLog P → ℕ → SegmentedLog P)
    (hstep : ∀ s a first, Refines codec s a → Idle s → first ∈ a.files.keys →
      Refines codec (concrete s (first, segmentFilename first)) (abstract a first) ∧
        Idle (concrete s (first, segmentFilename first)))
    (hkeep : ∀ a first j, j ∈ a.files.keys → j ≠ first → j ∈ (abstract a first).files.keys)
    (ks : List ℕ) (hnodup : ks.Nodup) (h : Refines codec s a) (hidle : Idle s)
    (hin : ∀ k ∈ ks, k ∈ a.files.keys) :
    Refines codec ((ks.map fun k => (k, segmentFilename k)).foldl concrete s)
        (ks.foldl abstract a) ∧
      Idle ((ks.map fun k => (k, segmentFilename k)).foldl concrete s) := by
  induction ks generalizing s a with
  | nil => exact ⟨h, hidle⟩
  | cons k ks ih =>
    obtain ⟨hnot, hrest⟩ := List.nodup_cons.mp hnodup
    obtain ⟨h₁, hidle₁⟩ := hstep s a k h hidle (hin k List.mem_cons_self)
    refine ih hrest h₁ hidle₁ fun j hj => ?_
    refine hkeep a k j (hin j (List.mem_cons_of_mem _ hj)) ?_
    intro hjk
    exact hnot (hjk ▸ hj)

theorem mem_keys_dropFile (a : SegmentedLog P) (first j : ℕ) (hj : j ∈ a.files.keys)
    (hne : j ≠ first) : j ∈ (a.dropFile first).files.keys :=
  (a.files.mem_keys_remove j first).mpr ⟨hj, hne⟩

theorem mem_keys_purgeFile (i : ℕ) (a : SegmentedLog P) (first j : ℕ) (hj : j ∈ a.files.keys)
    (hne : j ≠ first) : j ∈ (a.purgeFile i first).files.keys := by
  unfold SegmentedLog.purgeFile
  split
  · exact mem_keys_dropFile a first j hj hne
  · exact hj

theorem mem_keys_truncateFile (i : ℕ) (a : SegmentedLog P) (first j : ℕ) (hj : j ∈ a.files.keys)
    (hne : j ≠ first) : j ∈ (a.truncateFile i first).files.keys := by
  unfold SegmentedLog.truncateFile
  split
  · exact mem_keys_dropFile a first j hj hne
  · split
    · dsimp only
      split
      · exact mem_keys_dropFile a first j hj hne
      · exact (a.files.mem_keys_insert _ _ _).mpr (.inr hj)
    · exact hj

theorem foldl_purgeFile_purged (i : ℕ) (ks : List ℕ) (a : SegmentedLog P) :
    (ks.foldl (SegmentedLog.purgeFile i) a).purged = a.purged := by
  induction ks generalizing a with
  | nil => rfl
  | cons k ks ih =>
    rw [List.foldl_cons, ih]
    unfold SegmentedLog.purgeFile
    split
    · rfl
    · rfl

theorem Refines.purge (h : Refines codec s a) (hidle : Idle s) (logId : LogId) :
    ∃ s', s.purgeEntries logId = .ok s' ∧ Refines codec s' (a.purge logId) ∧ Idle s' := by
  have h₀ : Refines codec
      { s with lastPurgedLogId := some logId, logs := s.logs.retain fun k => logId.index < k }
      { a with purged := some logId, logs := a.logs.retain fun k => logId.index < k } :=
    ⟨by rw [h.logs], rfl, h.saved, h.names, h.bound, h.active, h.writer, h.file⟩
  have hfold := foldl_refines (LogStorage.purgeSegment logId.index)
    (SegmentedLog.purgeFile logId.index)
    (fun _ _ first hr hi _ => purgeSegment_refines hr hi logId.index first)
    (mem_keys_purgeFile logId.index) _ a.files.keys_nodup h₀ hidle fun _ hk => hk
  obtain ⟨hr, hi⟩ := hfold
  have hlist := h.listing
  unfold LogStorage.purgeEntries
  dsimp only
  rw [hlist]
  refine ⟨_, rfl, ⟨hr.logs, hr.purged, ?_, hr.names, hr.bound, hr.active, hr.writer, hr.file⟩, hi⟩
  show (LogStorage.lastPurgedLogId _) = some logId
  rw [hr.purged, foldl_purgeFile_purged]

theorem Refines.truncate (h : Refines codec s a) (hidle : Idle s) (logId : LogId) :
    ∃ s', s.truncateEntries codec logId = .ok s' ∧ Refines codec s' (a.truncate logId) ∧
      Idle s' := by
  have h₀ : Refines codec { s with logs := s.logs.retain fun k => k < logId.index }
      { a with logs := a.logs.retain fun k => k < logId.index } :=
    ⟨by rw [h.logs], h.purged, h.saved, h.names, h.bound, h.active, h.writer, h.file⟩
  have hfold := foldl_refines (LogStorage.truncateSegment codec logId.index)
    (SegmentedLog.truncateFile logId.index)
    (fun _ _ first hr hi hin => truncateSegment_refines hr hi logId.index first hin)
    (mem_keys_truncateFile logId.index) _ a.files.keys_nodup h₀ hidle fun _ hk => hk
  have hlist := h.listing
  unfold LogStorage.truncateEntries
  dsimp only
  rw [hlist]
  exact ⟨_, rfl, hfold.1, hfold.2⟩

/-! ### Loading -/

theorem loadFiles_ok (d : FileDir) (full : ℕ × String → List (ClusterEntry P))
    (segments : List (ℕ × String))
    (h : ∀ p ∈ segments, loadEntries codec (((d.get p.2).map DiskFile.data).getD []) = .ok (full p))
    (logs : SortedMap (ClusterEntry P)) : LogStorage.loadFiles codec d segments logs =
      .ok ((segments.flatMap full).foldl LogStorage.insertEntry logs) := by
  induction segments generalizing logs with
  | nil => rfl
  | cons p segments ih =>
    obtain ⟨i, name⟩ := p
    rw [LogStorage.loadFiles, h (i, name) List.mem_cons_self, List.flatMap_cons, List.foldl_append]
    exact ih (fun p hp => h p (List.mem_cons_of_mem _ hp)) _

theorem diskEntries_eq (a : SegmentedLog P) : a.diskEntries = a.files.keys.flatMap a.entriesAt := by
  unfold SegmentedLog.diskEntries SortedMap.values SortedMap.keys
  rw [List.flatMap_map, List.flatMap]
  congr 1
  refine List.map_congr_left fun p hp => ?_
  have hes : a.files.get p.1 = some p.2 := (a.files.get_eq_some_iff p.1 p.2).mpr hp
  rw [SegmentedLog.entriesAt, hes]
  rfl

theorem Refines.loadFiles (h : Refines codec s a) (hidle : Idle s) :
    LogStorage.loadFiles codec s.segments (a.files.keys.map fun i => (i, segmentFilename i))
      SortedMap.empty = .ok a.reload := by
  rw [loadFiles_ok s.segments (fun p => a.entriesAt p.1), List.flatMap_map, SegmentedLog.reload,
    diskEntries_eq]
  intro p hp
  obtain ⟨first, hfirst, rfl⟩ := List.mem_map.mp hp
  obtain ⟨es, hes⟩ := (a.files.mem_keys_iff first).mp hfirst
  obtain ⟨f, hf, hd⟩ := h.file first es hes
  rw [pending_idle s hidle, List.append_nil] at hd
  rw [hf, Option.map_some, Option.getD_some, hd, loadEntries_encodeEntries, SegmentedLog.entriesAt, hes]
  rfl

theorem getLast?_listed (a : SegmentedLog P) :
    (a.files.keys.map fun i => (i, segmentFilename i)).getLast? =
      a.files.lastKey?.map fun i => (i, segmentFilename i) := by
  rw [List.getLast?_map]
  rfl

theorem Refines.reopenLast_get (h : Refines codec s a) (logs : SortedMap (ClusterEntry P)) (n : String) :
    (LogStorage.reopenLast s.segments logs
      (a.files.keys.map fun i => (i, segmentFilename i))).1.get n = s.segments.get n := by
  unfold LogStorage.reopenLast
  rw [getLast?_listed]
  cases hk : a.files.lastKey? with
  | none => rfl
  | some first =>
    have hin : first ∈ a.files.keys := ((a.files.lastKey?_eq_some_iff first).mp hk).1
    obtain ⟨es, hes⟩ := (a.files.mem_keys_iff first).mp hin
    obtain ⟨f, hf, _⟩ := h.file first es hes
    simp only [Option.map_some]
    split
    · rw [openAppend_existing _ _ f hf]
    · rfl

theorem reopenLast_active (d : FileDir) (a : SegmentedLog P) :
    (LogStorage.reopenLast d a.reload (a.files.keys.map fun i => (i, segmentFilename i))).2 =
      a.reopened.map fun p => ⟨p.1, p.2, ⟨segmentFilename p.1, defaultCapacity, []⟩⟩ := by
  unfold LogStorage.reopenLast SegmentedLog.reopened
  rw [getLast?_listed]
  cases hk : a.files.lastKey? with
  | none => rfl
  | some first =>
    simp only [Option.map_some, Option.bind_some]
    split
    · rfl
    · rfl

theorem reopened_mem (a : SegmentedLog P) (p : ℕ × ℕ) (hp : a.reopened = some p) :
    p.1 ∈ a.files.keys := by
  obtain ⟨first, hfirst, hsome⟩ := Option.bind_eq_some_iff.mp hp
  dsimp only at hsome
  split at hsome
  · have hp' : _ = p := Option.some.inj hsome
    rw [← hp']
    exact ((a.files.lastKey?_eq_some_iff first).mp hfirst).1
  · exact absurd hsome (by simp)

theorem Refines.restart (h : Refines codec s a) (hidle : Idle s) :
    ∃ s', s.restart codec = .ok s' ∧ Refines codec s' a.restart ∧ Idle s' := by
  have hget := h.reopenLast_get a.reload
  have hactive := reopenLast_active s.segments a
  unfold LogStorage.restart LogStorage.openStorage
  rw [h.listing]
  dsimp only
  rw [h.loadFiles hidle]
  dsimp only
  generalize LogStorage.reopenLast s.segments a.reload _ = reopened at hget hactive ⊢
  have hidle' : Idle (P := P) ⟨reopened.1, s.metaFile, a.reload,
      s.metaFile.bind PersistedLogMeta.lastPurgedLogId, s.metaFile.bind PersistedLogMeta.committed,
      reopened.2⟩ := by
    intro x hx
    obtain ⟨p, _, hp⟩ := Option.map_eq_some_iff.mp (hactive.symm.trans hx)
    rw [← hp]
  refine ⟨_, rfl, ⟨rfl, h.saved, h.saved, ?_, h.bound, ?_, ?_, ?_⟩, hidle'⟩
  · intro n
    rw [← Directory.get_isSome, hget, Directory.get_isSome]
    exact h.names n
  · rw [hactive, Option.map_map]
    exact Option.map_id'
  · intro x hx
    rw [hactive] at hx
    obtain ⟨p, hp, hpx⟩ := Option.map_eq_some_iff.mp hx
    subst hpx
    exact ⟨rfl, reopened_mem a p hp, Nat.zero_le _⟩
  · intro first es hes
    exact h.file_kept hidle hidle' first es hes (hget _)

/-! ### Runs -/

def SegmentedLog.apply (a : SegmentedLog P) : StorageOp P → SegmentedLog P
  | .append es => a.append es
  | .truncate logId => a.truncate logId
  | .purge logId => a.purge logId
  | .restart => a.restart

def SegmentedLog.run (a : SegmentedLog P) (ops : List (StorageOp P)) : SegmentedLog P :=
  ops.foldl SegmentedLog.apply a

def StorageOp.appended : StorageOp P → List (ClusterEntry P)
  | .append es => es
  | _ => []

def appendedBy (ops : List (StorageOp P)) : List (ClusterEntry P) := ops.flatMap StorageOp.appended

/-- Every appended index has at most twelve digits. -/
def Bounded (ops : List (StorageOp P)) : Prop := ∀ e ∈ appendedBy ops, e.index < indexBound

instance (ops : List (StorageOp P)) : Decidable (Bounded ops) :=
  inferInstanceAs (Decidable (∀ e ∈ appendedBy ops, e.index < indexBound))

theorem Refines.apply (h : Refines codec s a) (hidle : Idle s) (op : StorageOp P)
    (hbound : ∀ e ∈ op.appended, e.index < indexBound) :
    ∃ s', op.apply codec s = .ok s' ∧ Refines codec s' (a.apply op) ∧ Idle s' := by
  cases op with
  | append es => exact ⟨_, rfl, h.append hidle es hbound⟩
  | truncate logId => exact h.truncate hidle logId
  | purge logId => exact h.purge hidle logId
  | restart => exact h.restart hidle

theorem Refines.run (h : Refines codec s a) (hidle : Idle s) (ops : List (StorageOp P))
    (hbound : Bounded ops) :
    ∃ s', runStorage codec s ops = .ok s' ∧ Refines codec s' (a.run ops) ∧ Idle s' := by
  induction ops generalizing s a with
  | nil => exact ⟨s, rfl, h, hidle⟩
  | cons op ops ih =>
    have happ : appendedBy (op :: ops) = op.appended ++ appendedBy ops := List.flatMap_cons
    unfold Bounded at hbound ih
    rw [happ] at hbound
    obtain ⟨s₁, hs₁, h₁, hidle₁⟩ := h.apply hidle op
      fun e he => hbound e (List.mem_append_left _ he)
    obtain ⟨s₂, hs₂, h₂, hidle₂⟩ := ih h₁ hidle₁ fun e he => hbound e (List.mem_append_right _ he)
    refine ⟨s₂, ?_, h₂, hidle₂⟩
    rw [runStorage, hs₁]
    exact hs₂

theorem refines_fresh (codec : EntryCodec P) :
    Refines codec LogStorage.fresh SegmentedLog.fresh := by
  refine ⟨rfl, rfl, rfl, ?_, ?_, rfl, ?_, ?_⟩
  · intro n
    constructor
    · intro hn
      exact absurd hn (AList.notMem_empty n)
    · intro hex
      obtain ⟨_, hf, _⟩ := hex
      exact absurd hf List.not_mem_nil
  · exact fun _ hf => absurd hf List.not_mem_nil
  · exact fun _ hx => absurd hx (by simp [LogStorage.fresh])
  · exact fun _ _ hes => absurd hes (by simp [SegmentedLog.fresh])

theorem idle_fresh : Idle (LogStorage.fresh : LogStorage P) :=
  fun _ hx => absurd hx (by simp [LogStorage.fresh])

end Refinement

end Xerv.Raft
