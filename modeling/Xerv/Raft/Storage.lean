import Xerv.Raft.Segment

/-!
# Raft log storage (`xerv-cluster/src/raft/storage/{inner,entries,persistence}.rs`)

`LogStorage` is `LogStorageInner` together with what it keeps on disk: the
segments directory and `meta.json`. `append_entries`, `purge_entries` and
`truncate_entries` follow the source; `restart` is a new process that opens the
same directory. The vote file and the migration from `logs.json` do not touch
the log and are left out.
-/

namespace Xerv.Raft
open Xerv.Lib

def defaultCapacity : ℕ := 8192

structure ActiveSegment where
  firstIndex : ℕ
  entryCount : ℕ
  writer : BufWriter

structure PersistedLogMeta where
  lastPurgedLogId : Option LogId
  committed : Option LogId

structure LogStorage (P : Type) where
  segments : FileDir
  metaFile : Option PersistedLogMeta
  logs : SortedMap (ClusterEntry P)
  lastPurgedLogId : Option LogId
  committed : Option LogId
  active : Option ActiveSegment

namespace LogStorage
variable {P : Type} (codec : EntryCodec P)

def insertEntry (logs : SortedMap (ClusterEntry P)) (e : ClusterEntry P) :
    SortedMap (ClusterEntry P) :=
  logs.insert e.index e

/-- The index of a segment start: a multiple of 1000. -/
def alignFirst (index : ℕ) : ℕ := index / segmentMaxEntries * segmentMaxEntries

def startNewSegment (s : LogStorage P) (firstIndex : ℕ) : LogStorage P :=
  let aligned := alignFirst firstIndex
  let path := segmentFilename aligned
  { s with
    segments := openAppend s.segments path
    active := some ⟨aligned, 0, ⟨path, defaultCapacity, []⟩⟩ }

def isActiveSegment (s : LogStorage P) (firstIndex : ℕ) : Bool :=
  s.active.any fun a => a.firstIndex = firstIndex

/-- `writer.flush()` and `sync_all()` on the active segment. -/
def flushActive (s : LogStorage P) : LogStorage P :=
  match s.active with
  | none => s
  | some a =>
    let disk := BufWriter.syncData (BufWriter.flush (a.writer, s.segments))
    { s with segments := disk.2, active := some { a with writer := disk.1 } }

/-- `self.active_segment = None`: dropping the writer flushes it. -/
def closeActive (s : LogStorage P) : LogStorage P :=
  match s.active with
  | none => s
  | some a => { s with segments := (BufWriter.flush (a.writer, s.segments)).2, active := none }

/-- An active segment with room for an entry at `index`. -/
def ensureActive (s : LogStorage P) (index : ℕ) : LogStorage P :=
  let s := if s.active.isNone then s.startNewSegment index else s
  match s.active with
  | none => s
  | some a => if segmentMaxEntries ≤ a.entryCount then s.flushActive.startNewSegment index else s

/-- `writeln!` of the entry to the active segment, and the insertion into the map. -/
def writeEntry (s : LogStorage P) (e : ClusterEntry P) : LogStorage P :=
  match s.active with
  | none => s
  | some a =>
    let disk := BufWriter.writeAll (BufWriter.writeAll (a.writer, s.segments) (codec.toJson e)) [10]
    { s with
      segments := disk.2
      active := some { a with entryCount := a.entryCount + 1, writer := disk.1 }
      logs := insertEntry s.logs e }

def appendOne (s : LogStorage P) (e : ClusterEntry P) : LogStorage P :=
  (s.ensureActive e.index).writeEntry codec e

def appendEntries (s : LogStorage P) (entries : List (ClusterEntry P)) : LogStorage P :=
  if entries.isEmpty then s else (entries.foldl (appendOne codec) s).flushActive

def saveMeta (s : LogStorage P) : LogStorage P :=
  { s with metaFile := some ⟨s.lastPurgedLogId, s.committed⟩ }

def removeFile (s : LogStorage P) (path : String) : LogStorage P :=
  { s with segments := s.segments.erase path }

/-- One round of the loop of `purge_entries`. -/
def purgeSegment (purgeIndex : ℕ) (s : LogStorage P) (segment : ℕ × String) : LogStorage P :=
  if segment.1 + segmentMaxEntries - 1 ≤ purgeIndex then
    if s.isActiveSegment segment.1 then s.closeActive.removeFile segment.2
    else s.removeFile segment.2
  else s

def purgeEntries (s : LogStorage P) (logId : LogId) : Except StorageError (LogStorage P) :=
  let s := { s with
    lastPurgedLogId := some logId
    logs := s.logs.retain fun k => logId.index < k }
  match listSegments s.segments with
  | .error e => .error e
  | .ok segments => .ok (segments.foldl (purgeSegment logId.index) s).saveMeta

/-- `write_segment_file`: written to a temporary file that is then renamed over the segment. -/
def writeSegmentFile (s : LogStorage P) (firstIndex : ℕ) (entries : List (ClusterEntry P)) :
    LogStorage P :=
  let path := segmentFilename firstIndex
  let data := encodeEntries codec entries
  { s with segments := (s.segments.erase (path ++ ".tmp")).insert path ⟨data, data.length⟩ }

/-- The entries of the map in `first_index..truncate_index`. -/
def logsBetween (s : LogStorage P) (first last : ℕ) : List (ClusterEntry P) :=
  (s.logs.retain fun k => first ≤ k && k < last).values

/-- One round of the loop of `truncate_entries`. -/
def truncateSegment (truncateIndex : ℕ) (s : LogStorage P) (segment : ℕ × String) : LogStorage P :=
  let (firstIndex, path) := segment
  if truncateIndex ≤ firstIndex then
    let s := if s.isActiveSegment firstIndex then s.closeActive else s
    s.removeFile path
  else if truncateIndex < firstIndex + segmentMaxEntries then
    let entries := s.logsBetween firstIndex truncateIndex
    let s := if s.isActiveSegment firstIndex then s.closeActive else s
    if entries.isEmpty then s.removeFile path
    else
      -- the writer of another active segment is dropped by the assignment
      let s := (s.writeSegmentFile codec firstIndex entries).closeActive
      { s with
        segments := openAppend s.segments path
        active := some ⟨firstIndex, entries.length, ⟨path, defaultCapacity, []⟩⟩ }
  else s

def truncateEntries (s : LogStorage P) (logId : LogId) : Except StorageError (LogStorage P) :=
  let s := { s with logs := s.logs.retain fun k => k < logId.index }
  match listSegments s.segments with
  | .error e => .error e
  | .ok segments => .ok (segments.foldl (truncateSegment codec logId.index) s)

/-- The loop of `load_segments` over the listed files. -/
def loadFiles (d : FileDir) :
    List (ℕ × String) → SortedMap (ClusterEntry P) → Except StorageError (SortedMap (ClusterEntry P))
  | [], logs => .ok logs
  | (_, path) :: segments, logs =>
    match loadEntries codec ((d.get path).map DiskFile.data |>.getD []) with
    | .error e => .error e
    | .ok es => loadFiles d segments (es.foldl insertEntry logs)

/-- The last segment is reopened for writing if it has room. -/
def reopenLast (d : FileDir) (logs : SortedMap (ClusterEntry P)) (segments : List (ℕ × String)) :
    FileDir × Option ActiveSegment :=
  match segments.getLast? with
  | none => (d, none)
  | some (first, path) =>
    let count := (logs.retain fun k => first ≤ k).entries.length
    if count < segmentMaxEntries then
      (openAppend d path, some ⟨first, count, ⟨path, defaultCapacity, []⟩⟩)
    else (d, none)

/-- `LogStorage::open`: `load_segments`, then `load_meta`. -/
def openStorage (d : FileDir) (metaFile : Option PersistedLogMeta) :
    Except StorageError (LogStorage P) :=
  match listSegments d with
  | .error e => .error e
  | .ok segments =>
    match loadFiles codec d segments SortedMap.empty with
    | .error e => .error e
    | .ok logs =>
      let (d', active) := reopenLast d logs segments
      .ok
        { segments := d'
          metaFile := metaFile
          logs := logs
          lastPurgedLogId := metaFile.bind PersistedLogMeta.lastPurgedLogId
          committed := metaFile.bind PersistedLogMeta.committed
          active := active }

def restart (s : LogStorage P) : Except StorageError (LogStorage P) :=
  openStorage codec s.segments s.metaFile

/-- `get_log_state`: the last log id, or the last purged one when the map is empty. -/
def lastLogIndex (s : LogStorage P) : Option ℕ :=
  s.logs.lastKey?.or (s.lastPurgedLogId.map LogId.index)

def fresh : LogStorage P := ⟨∅, none, SortedMap.empty, none, none, none⟩

end LogStorage

/-! ### Runs -/

inductive StorageOp (P : Type) where
  | append (entries : List (ClusterEntry P))
  | truncate (logId : LogId)
  | purge (logId : LogId)
  | restart

section Runs
variable {P : Type} (codec : EntryCodec P)

def StorageOp.apply (s : LogStorage P) : StorageOp P → Except StorageError (LogStorage P)
  | .append entries => .ok (s.appendEntries codec entries)
  | .truncate logId => s.truncateEntries codec logId
  | .purge logId => s.purgeEntries logId
  | .restart => s.restart codec

def runStorage : LogStorage P → List (StorageOp P) → Except StorageError (LogStorage P)
  | s, [] => .ok s
  | s, op :: ops =>
    match op.apply codec s with
    | .error e => .error e
    | .ok s' => runStorage s' ops

end Runs

end Xerv.Raft
