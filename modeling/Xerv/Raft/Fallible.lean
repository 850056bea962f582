import Xerv.Lib.Fallible
import Xerv.Raft.Reload

/-!
# Failing storage operations (`xerv-cluster/src/raft/storage/{entries,mod}.rs`)

`append_entries`, `purge_entries` and `truncate_entries` with every `?` of the
source: each step that can return an `io::Error` is an `IoStep`, and the state a
call leaves keeps what was done before the step that failed. With no fault the
calls are those of `Storage`.
-/

namespace Xerv.Raft
open Xerv.Lib

/-- The steps of the three operations that can return an error; those in a loop carry their round.
`writeTemp` stands for the writes, the flush, the fsync and the rename of `write_segment_file`, and
`saveMeta` for those of `save_meta`. -/
inductive IoStep where
  | openSegment (round : ℕ)
  | rotateFlush (round : ℕ)
  | rotateSync (round : ℕ)
  | rotateOpen (round : ℕ)
  | encode (round : ℕ)
  | writeFlush (round : ℕ)
  | writeDirect (round : ℕ)
  | newlineFlush (round : ℕ)
  | newlineDirect (round : ℕ)
  | flush
  | sync
  | readDir
  | removeFile (round : ℕ)
  | openTemp (round : ℕ)
  | writeTemp (round : ℕ)
  | reopen (round : ℕ)
  | saveMeta
  deriving DecidableEq

abbrev IoFault := Fault IoStep

abbrev StorageM (P : Type) := EStateM (Stop IoStep) (LogStorage P)

namespace LogStorage
variable {P : Type} (codec : EntryCodec P) (fault : Option IoFault)

def onActive (f : BufWriter.OnDisk → BufWriter.OnDisk) (s : LogStorage P) : LogStorage P :=
  match s.active with
  | none => s
  | some a =>
    let disk := f (a.writer, s.segments)
    { s with segments := disk.2, active := some { a with writer := disk.1 } }

def tryStartNewSegment (step : IoStep) (firstIndex : ℕ) : StorageM P Unit :=
  attempt fault step (fun _ s => s) fun s => s.startNewSegment firstIndex

def tryFlushActive (flushStep syncStep : IoStep) : StorageM P Unit := do
  attempt fault flushStep (fun n => onActive fun disk => BufWriter.flushPartly disk n)
    (onActive BufWriter.flush)
  attempt fault syncStep (fun _ s => s) (onActive BufWriter.syncData)

def tryEnsureActive (round index : ℕ) : StorageM P Unit := do
  if (← get).active.isNone then tryStartNewSegment fault (.openSegment round) index
  match (← get).active with
  | none => throw .panic
  | some a =>
    if segmentMaxEntries ≤ a.entryCount then
      tryFlushActive fault (.rotateFlush round) (.rotateSync round)
      tryStartNewSegment fault (.rotateOpen round) index

/-- Where a `write_all` to the active segment fails. -/
def writeAllFault (flushStep directStep : IoStep) : Option (IoStep × BufWriter.WriteAllFault) :=
  match hits fault flushStep with
  | some n => some (flushStep, .flush n)
  | none => (hits fault directStep).map fun n => (directStep, .direct n)

def tryWrite (flushStep directStep : IoStep) (bytes : Bytes) : StorageM P Unit := fun s =>
  match s.active with
  | none => .error .panic s
  | some a =>
    match writeAllFault fault flushStep directStep with
    | none => .ok () (s.onActive fun disk => BufWriter.writeAll disk bytes)
    | some (step, f) =>
      let s' := s.onActive fun disk => (BufWriter.tryWriteAll disk bytes (some f)).1
      if (BufWriter.tryWriteAll (a.writer, s.segments) bytes (some f)).2 then .ok () s'
      else .error (.failed step) s'

/-- The entry counts and enters the map once its line has been written. -/
def noteEntry (e : ClusterEntry P) (s : LogStorage P) : LogStorage P :=
  { s with
    active := s.active.map fun a => { a with entryCount := a.entryCount + 1 }
    logs := insertEntry s.logs e }

def tryWriteEntry (round : ℕ) (e : ClusterEntry P) : StorageM P Unit := do
  attempt fault (.encode round) (fun _ s => s) id
  tryWrite fault (.writeFlush round) (.writeDirect round) (codec.toJson e)
  tryWrite fault (.newlineFlush round) (.newlineDirect round) [10]
  modify (noteEntry e)

def tryAppendOne (round : ℕ) (e : ClusterEntry P) : StorageM P Unit := do
  tryEnsureActive fault round e.index
  tryWriteEntry codec fault round e

def tryAppendEntries (entries : List (ClusterEntry P)) : StorageM P Unit := do
  if entries.isEmpty then return ()
  rounds (tryAppendOne codec fault) 0 entries
  if (← get).active.isSome then tryFlushActive fault .flush .sync

def tryListSegments : StorageM P (List (ℕ × String)) := do
  attempt fault .readDir (fun _ s => s) id
  match listSegments (← get).segments with
  | .error _ => throw .panic
  | .ok segments => pure segments

def tryRemoveFile (round : ℕ) (path : String) : StorageM P Unit :=
  attempt fault (.removeFile round) (fun _ s => s) fun s => s.removeFile path

def closeIfActive (firstIndex : ℕ) (s : LogStorage P) : LogStorage P :=
  if s.isActiveSegment firstIndex then s.closeActive else s

def tryPurgeSegment (purgeIndex round : ℕ) (segment : ℕ × String) : StorageM P Unit := do
  if segment.1 + segmentMaxEntries - 1 ≤ purgeIndex then
    modify (closeIfActive segment.1)
    tryRemoveFile fault round segment.2

def dropPurged (logId : LogId) (s : LogStorage P) : LogStorage P :=
  { s with
    lastPurgedLogId := some logId
    logs := s.logs.retain fun k => logId.index < k }

def tryPurgeEntries (logId : LogId) : StorageM P Unit := do
  modify (dropPurged logId)
  let segments ← tryListSegments fault
  rounds (tryPurgeSegment fault logId.index) 0 segments
  attempt fault .saveMeta (fun _ s => s) saveMeta

/-- A failed rewrite leaves a temporary file with the bytes written so far. -/
def leaveTemp (firstIndex : ℕ) (entries : List (ClusterEntry P)) (written : ℕ) (s : LogStorage P) :
    LogStorage P :=
  let temp : DiskFile := ⟨(encodeEntries codec entries).take written, 0⟩
  { s with segments := s.segments.insert (segmentFilename firstIndex ++ ".tmp") temp }

def tryWriteSegmentFile (round firstIndex : ℕ) (entries : List (ClusterEntry P)) : StorageM P Unit := do
  attempt fault (.openTemp round) (fun _ s => s) id
  attempt fault (.writeTemp round) (leaveTemp codec firstIndex entries)
    fun s => s.writeSegmentFile codec firstIndex entries

/-- The rewritten segment becomes the active one. -/
def reopenSegment (firstIndex count : ℕ) (path : String) (s : LogStorage P) : LogStorage P :=
  let s := s.closeActive
  { s with
    segments := openAppend s.segments path
    active := some ⟨firstIndex, count, ⟨path, defaultCapacity, []⟩⟩ }

def tryTruncateSegment (truncateIndex round : ℕ) (segment : ℕ × String) : StorageM P Unit := do
  if truncateIndex ≤ segment.1 then
    modify (closeIfActive segment.1)
    tryRemoveFile fault round segment.2
  else if truncateIndex < segment.1 + segmentMaxEntries then
    let entries := (← get).logsBetween segment.1 truncateIndex
    modify (closeIfActive segment.1)
    if entries.isEmpty then tryRemoveFile fault round segment.2
    else
      tryWriteSegmentFile codec fault round segment.1 entries
      attempt fault (.reopen round) (fun _ s => s) (reopenSegment segment.1 entries.length segment.2)

def dropTruncated (logId : LogId) (s : LogStorage P) : LogStorage P :=
  { s with logs := s.logs.retain fun k => k < logId.index }

def tryTruncateEntries (logId : LogId) : StorageM P Unit := do
  modify (dropTruncated logId)
  let segments ← tryListSegments fault
  rounds (tryTruncateSegment codec fault logId.index) 0 segments

end LogStorage

/-! ### Calls without a fault -/

section Faultless
variable {P : Type} (codec : EntryCodec P)

theorem tryFlushActive_none (flushStep syncStep : IoStep) (s : LogStorage P) :
    LogStorage.tryFlushActive none flushStep syncStep s = .ok () s.flushActive := by
  obtain ⟨segments, metaFile, logs, purged, committed, active⟩ := s
  cases active with
  | none => rfl
  | some a => rfl

theorem ensureActive_isSome (s : LogStorage P) (index : ℕ) : (s.ensureActive index).active.isSome := by
  unfold LogStorage.ensureActive
  cases hs : s.active with
  | none => rfl
  | some a =>
    simp only [hs, Option.isNone_some, Bool.false_eq_true, if_false]
    split_ifs with hfull
    · rfl
    · rw [hs]
      rfl

theorem tryEnsureActive_some (fault : Option IoFault) (round index : ℕ) (s : LogStorage P)
    (a : ActiveSegment) (h : s.active = some a) : LogStorage.tryEnsureActive fault round index s =
      (if segmentMaxEntries ≤ a.entryCount then do
        LogStorage.tryFlushActive fault (.rotateFlush round) (.rotateSync round)
        LogStorage.tryStartNewSegment fault (.rotateOpen round) index
      else pure () : StorageM P Unit) s := by
  obtain ⟨segments, metaFile, logs, purged, committed, active⟩ := s
  subst h
  rfl

theorem tryEnsureActive_none (round index : ℕ) (s : LogStorage P) :
    LogStorage.tryEnsureActive none round index s = .ok () (s.ensureActive index) := by
  cases hs : s.active with
  | none =>
    obtain ⟨segments, metaFile, logs, purged, committed, active⟩ := s
    subst hs
    rfl
  | some a =>
    rw [tryEnsureActive_some none round index s a hs, LogStorage.ensureActive]
    simp only [hs, Option.isNone_some, Bool.false_eq_true, if_false]
    split_ifs with hfull
    · rw [bind_ok (tryFlushActive_none _ _ s)]
      rfl
    · rfl

theorem tryWriteEntry_none (round : ℕ) (e : ClusterEntry P) (s : LogStorage P) (h : s.active.isSome) :
    LogStorage.tryWriteEntry codec none round e s = .ok () (s.writeEntry codec e) := by
  obtain ⟨segments, metaFile, logs, purged, committed, active⟩ := s
  cases active with
  | none => exact absurd h (by simp)
  | some a => rfl

theorem tryAppendOne_none (round : ℕ) (e : ClusterEntry P) (s : LogStorage P) :
    LogStorage.tryAppendOne codec none round e s = .ok () (s.appendOne codec e) := by
  unfold LogStorage.tryAppendOne LogStorage.appendOne
  rw [bind_ok (tryEnsureActive_none round e.index s)]
  exact tryWriteEntry_none codec round e _ (ensureActive_isSome s e.index)

theorem flushActive_of_none (s : LogStorage P) (h : s.active = none) : s.flushActive = s := by
  unfold LogStorage.flushActive
  rw [h]

theorem tryAppendEntries_none (entries : List (ClusterEntry P)) (s : LogStorage P) :
    LogStorage.tryAppendEntries codec none entries s = .ok () (s.appendEntries codec entries) := by
  unfold LogStorage.tryAppendEntries LogStorage.appendEntries
  cases entries with
  | nil => rfl
  | cons e es =>
    have hloop := rounds_eq_foldl _ _ (tryAppendOne_none codec) (e :: es) 0 s
    refine (bind_ok hloop).trans ?_
    generalize (e :: es).foldl (LogStorage.appendOne codec) s = s'
    show (if s'.active.isSome then LogStorage.tryFlushActive none .flush .sync else pure () :
      StorageM P Unit) s' = .ok () s'.flushActive
    by_cases hsome : s'.active.isSome
    · rw [if_pos hsome, tryFlushActive_none]
    · rw [if_neg hsome, flushActive_of_none s' (Option.not_isSome_iff_eq_none.mp hsome)]
      rfl

theorem tryPurgeSegment_none (purgeIndex round : ℕ) (segment : ℕ × String) (s : LogStorage P) :
    LogStorage.tryPurgeSegment none purgeIndex round segment s =
      .ok () (s.purgeSegment purgeIndex segment) := by
  unfold LogStorage.tryPurgeSegment LogStorage.purgeSegment
  by_cases hold : segment.1 + segmentMaxEntries - 1 ≤ purgeIndex
  · rw [if_pos hold, if_pos hold]
    show EStateM.Result.ok () ((s.closeIfActive segment.1).removeFile segment.2) = _
    rw [LogStorage.closeIfActive]
    split_ifs with hactive
    · rfl
    · rfl
  · rw [if_neg hold, if_neg hold]
    rfl

theorem tryTruncateSegment_none (truncateIndex round : ℕ) (segment : ℕ × String) (s : LogStorage P) :
    LogStorage.tryTruncateSegment codec none truncateIndex round segment s =
      .ok () (s.truncateSegment codec truncateIndex segment) := by
  obtain ⟨firstIndex, path⟩ := segment
  unfold LogStorage.tryTruncateSegment LogStorage.truncateSegment
  dsimp only
  by_cases hwhole : truncateIndex ≤ firstIndex
  · rw [if_pos hwhole, if_pos hwhole]
    rfl
  · rw [if_neg hwhole, if_neg hwhole]
    by_cases hpart : truncateIndex < firstIndex + segmentMaxEntries
    · rw [if_pos hpart, if_pos hpart]
      show (if (s.logsBetween firstIndex truncateIndex).isEmpty then _ else _ : StorageM P Unit)
        (s.closeIfActive firstIndex) = _
      by_cases hnone : (s.logsBetween firstIndex truncateIndex).isEmpty
      · rw [if_pos hnone, if_pos hnone]
        rfl
      · rw [if_neg hnone, if_neg hnone]
        rfl
    · rw [if_neg hpart, if_neg hpart]
      rfl

/-- The outcome of an infallible operation as that of a call; a name that cannot be sliced panics. -/
def asCall (before : LogStorage P) : Except StorageError (LogStorage P) →
    EStateM.Result (Stop IoStep) (LogStorage P) Unit
  | .ok s => .ok () s
  | .error _ => .error .panic before

theorem tryListSegments_bind_none (rest : List (ℕ × String) → StorageM P Unit) (s : LogStorage P) :
    (LogStorage.tryListSegments none >>= rest) s = match listSegments s.segments with
      | .error _ => .error .panic s
      | .ok segments => rest segments s := by
  have hlist : LogStorage.tryListSegments none s = (match listSegments s.segments with
    | .error _ => throw .panic
    | .ok segments => pure segments : StorageM P (List (ℕ × String))) s := rfl
  rw [bind_run, hlist]
  cases listSegments s.segments with
  | error e => rfl
  | ok segments => rfl

theorem tryPurgeEntries_none (logId : LogId) (s : LogStorage P) :
    LogStorage.tryPurgeEntries none logId s = asCall (s.dropPurged logId) (s.purgeEntries logId) := by
  refine (tryListSegments_bind_none _ (s.dropPurged logId)).trans ?_
  unfold LogStorage.purgeEntries
  show _ = asCall _ (match listSegments (s.dropPurged logId).segments with | .error e => _ | .ok segments => _)
  cases listSegments (s.dropPurged logId).segments with
  | error e => rfl
  | ok segments => exact bind_ok (rounds_eq_foldl _ _ (tryPurgeSegment_none logId.index) segments 0 _)

theorem tryTruncateEntries_none (logId : LogId) (s : LogStorage P) :
    LogStorage.tryTruncateEntries codec none logId s =
      asCall (s.dropTruncated logId) (s.truncateEntries codec logId) := by
  refine (tryListSegments_bind_none _ (s.dropTruncated logId)).trans ?_
  unfold LogStorage.truncateEntries
  show _ = asCall _ (match listSegments (s.dropTruncated logId).segments with
    | .error e => _
    | .ok segments => _)
  cases listSegments (s.dropTruncated logId).segments with
  | error e => rfl
  | ok segments => exact rounds_eq_foldl _ _ (tryTruncateSegment_none codec logId.index) segments 0 _

end Faultless

/-! ### What a failed call leaves -/

/-- The part of the storage that its readers see. -/
def logView {P : Type} (s : LogStorage P) : SortedMap (ClusterEntry P) × Option LogId :=
  (s.logs, s.lastPurgedLogId)

def IoStep.inserted (total : ℕ) : IoStep → ℕ
  | .openSegment round | .rotateFlush round | .rotateSync round | .rotateOpen round => round
  | .encode round | .writeFlush round | .writeDirect round => round
  | .newlineFlush round | .newlineDirect round => round
  | .flush | .sync => total
  | .readDir | .removeFile _ | .openTemp _ | .writeTemp _ | .reopen _ | .saveMeta => 0

section Failed
variable {P : Type} (codec : EntryCodec P) (fault : Option IoFault)

/-- The error is one of a step at which `count` of `total` entries are in the map. -/
def FailsAt (total count : ℕ) (stop : Stop IoStep) : Prop :=
  ∀ step, stop = .failed step → step.inserted total = count

theorem failsAt_step (total count : ℕ) (step : IoStep) (h : step.inserted total = count) :
    FailsAt total count (.failed step) := by
  intro step' hs
  cases hs
  exact h

theorem onActive_view (f : BufWriter.OnDisk → BufWriter.OnDisk) (s : LogStorage P) :
    logView (s.onActive f) = logView s := by
  unfold LogStorage.onActive
  cases s.active with
  | none => rfl
  | some a => rfl

theorem tryStartNewSegment_keeps (errors : Stop IoStep → Prop) (step : IoStep) (index : ℕ)
    (h : errors (.failed step)) :
    Keeps (logView (P := P)) errors (LogStorage.tryStartNewSegment fault step index) :=
  Keeps.attempt fault step _ _ h (fun _ _ => rfl) fun _ => rfl

theorem tryFlushActive_keeps (errors : Stop IoStep → Prop) (flushStep syncStep : IoStep)
    (hflush : errors (.failed flushStep)) (hsync : errors (.failed syncStep)) :
    Keeps (logView (P := P)) errors (LogStorage.tryFlushActive fault flushStep syncStep) := by
  refine Keeps.bind ?_ fun _ => ?_
  · exact Keeps.attempt fault flushStep _ _ hflush (fun n s => onActive_view _ s) fun s => onActive_view _ s
  · exact Keeps.attempt fault syncStep _ _ hsync (fun _ _ => rfl) fun s => onActive_view _ s

theorem tryEnsureActive_keeps (total round index : ℕ) :
    Keeps (logView (P := P)) (FailsAt total round) (LogStorage.tryEnsureActive fault round index) := by
  have hopen : Keeps (logView (P := P)) (FailsAt total round)
      (LogStorage.tryStartNewSegment fault (.openSegment round) index) :=
    tryStartNewSegment_keeps fault _ _ index (failsAt_step total round _ rfl)
  have hrotate : Keeps (logView (P := P)) (FailsAt total round) (do
      LogStorage.tryFlushActive fault (.rotateFlush round) (.rotateSync round)
      LogStorage.tryStartNewSegment fault (.rotateOpen round) index) := by
    refine Keeps.bind ?_ fun _ => ?_
    · exact tryFlushActive_keeps fault _ _ _ (failsAt_step total round _ rfl) (failsAt_step total round _ rfl)
    · exact tryStartNewSegment_keeps fault _ _ index (failsAt_step total round _ rfl)
  have hroom : Keeps (logView (P := P)) (FailsAt total round) (do
      match (← get).active with
      | none => throw .panic
      | some a =>
        if segmentMaxEntries ≤ a.entryCount then
          LogStorage.tryFlushActive fault (.rotateFlush round) (.rotateSync round)
          LogStorage.tryStartNewSegment fault (.rotateOpen round) index) := by
    refine Keeps.get_bind fun s => ?_
    cases s.active with
    | none => exact Keeps.throw _ nofun
    | some a =>
      dsimp only
      split_ifs with hfull
      · exact hrotate
      · exact Keeps.pure ()
  refine Keeps.get_bind fun s => ?_
  split_ifs with hnone
  · exact hopen.bind fun _ => hroom
  · exact hroom

theorem writeAllFault_failsAt (total round : ℕ) (flushStep directStep step : IoStep)
    (f : BufWriter.WriteAllFault) (hflush : flushStep.inserted total = round)
    (hdirect : directStep.inserted total = round)
    (h : LogStorage.writeAllFault fault flushStep directStep = some (step, f)) :
    step.inserted total = round := by
  unfold LogStorage.writeAllFault at h
  cases hf : hits fault flushStep with
  | some n =>
    rw [hf] at h
    cases h
    exact hflush
  | none =>
    rw [hf] at h
    obtain ⟨n, -, he⟩ := Option.map_eq_some_iff.mp h
    cases he
    exact hdirect

theorem tryWrite_keeps (total round : ℕ) (flushStep directStep : IoStep) (bytes : Bytes)
    (hflush : flushStep.inserted total = round) (hdirect : directStep.inserted total = round) :
    Keeps (logView (P := P)) (FailsAt total round)
      (LogStorage.tryWrite fault flushStep directStep bytes) := by
  intro s
  unfold Meets LogStorage.tryWrite
  cases s.active with
  | none => exact ⟨rfl, nofun⟩
  | some a =>
    dsimp only
    cases hf : LogStorage.writeAllFault fault flushStep directStep with
    | none => exact onActive_view _ s
    | some at_ =>
      have hstep := writeAllFault_failsAt fault total round _ _ _ _ hflush hdirect hf
      dsimp only
      by_cases hok : (BufWriter.tryWriteAll (a.writer, s.segments) bytes (some at_.2)).2 = true
      · rw [if_pos hok]
        exact onActive_view _ s
      · rw [if_neg hok]
        exact ⟨onActive_view _ s, failsAt_step total round _ hstep⟩

theorem tryAppendOne_meets (total round : ℕ) (e : ClusterEntry P) (s : LogStorage P) :
    Meets (LogStorage.tryAppendOne codec fault round e) s
      (fun _ s' => logView s' = (LogStorage.insertEntry s.logs e, s.lastPurgedLogId))
      fun stop s' => logView s' = logView s ∧ FailsAt total round stop := by
  refine (tryEnsureActive_keeps fault total round e.index).bind_meets s rfl fun _ s₁ h₁ => ?_
  refine Keeps.bind_meets (Keeps.attempt fault _ _ _ (failsAt_step total round _ rfl) (fun _ _ => rfl)
    fun _ => rfl) s₁ h₁ fun _ s₂ h₂ => ?_
  refine (tryWrite_keeps fault total round _ _ _ rfl rfl).bind_meets s₂ h₂ fun _ s₃ h₃ => ?_
  refine (tryWrite_keeps fault total round _ _ _ rfl rfl).bind_meets s₃ h₃ fun _ s₄ h₄ => ?_
  obtain ⟨hlogs, hpurged⟩ := Prod.mk.inj h₄
  show (LogStorage.insertEntry s₄.logs e, s₄.lastPurgedLogId) = _
  rw [hlogs, hpurged]

theorem tryAppendEntries_meets (entries : List (ClusterEntry P)) (s : LogStorage P) :
    Meets (LogStorage.tryAppendEntries codec fault entries) s (fun _ _ => True) fun stop s' =>
      ∀ step, stop = .failed step → logView s' =
        ((entries.take (step.inserted entries.length)).foldl LogStorage.insertEntry s.logs,
          s.lastPurgedLogId) := by
  let logsAfter (n : ℕ) := (entries.take n).foldl LogStorage.insertEntry s.logs
  -- the loop invariant: the entries of the rounds done are in the map
  have hround : ∀ i e, entries[i]? = some e → ∀ t, logView t = (logsAfter (0 + i), s.lastPurgedLogId) →
      Meets (LogStorage.tryAppendOne codec fault (0 + i) e) t
        (fun _ t' => logView t' = (logsAfter (0 + i + 1), s.lastPurgedLogId))
        fun stop t' => ∀ step, stop = .failed step →
          logView t' = (logsAfter (step.inserted entries.length), s.lastPurgedLogId) := by
    intro i e he t ht
    obtain ⟨hlogs, hpurged⟩ := Prod.mk.inj ht
    have hnext : LogStorage.insertEntry (logsAfter i) e = logsAfter (i + 1) := by
      show _ = (entries.take (i + 1)).foldl LogStorage.insertEntry s.logs
      rw [List.take_add_one, he, Option.toList_some, List.foldl_append]
      rfl
    rw [Nat.zero_add] at hlogs ht ⊢
    refine (tryAppendOne_meets codec fault entries.length i e t).imp ?_ ?_
    · intro _ t' ht'
      rw [ht', hlogs, hpurged, hnext]
    · intro stop t' ht' step hstep
      rw [ht'.1, ht'.2 step hstep, ht]
  unfold LogStorage.tryAppendEntries
  split_ifs with hempty
  · trivial
  · refine (meets_rounds _ (fun n t => logView t = (logsAfter n, s.lastPurgedLogId)) _ entries 0 s
      hround rfl).bind fun _ t ht => ?_
    have hall : logsAfter (0 + entries.length) = logsAfter entries.length := by rw [Nat.zero_add]
    rw [hall] at ht
    rw [meets_get_bind]
    split_ifs with hsome
    · refine (tryFlushActive_keeps fault (FailsAt entries.length entries.length) _ _
        (failsAt_step _ _ _ rfl) (failsAt_step _ _ _ rfl) t).imp (fun _ _ _ => trivial) ?_
      intro stop t' ht' step hstep
      rw [ht'.1, ht'.2 step hstep, ht]
    · trivial

theorem tryRemoveFile_keeps (round : ℕ) (path : String) :
    Keeps (logView (P := P)) (fun _ => True) (LogStorage.tryRemoveFile fault round path) :=
  Keeps.attempt fault _ _ _ trivial (fun _ _ => rfl) fun _ => rfl

theorem closeActive_view (s : LogStorage P) : logView s.closeActive = logView s := by
  unfold LogStorage.closeActive
  cases s.active with
  | none => rfl
  | some a => rfl

theorem closeIfActive_view (firstIndex : ℕ) (s : LogStorage P) :
    logView (s.closeIfActive firstIndex) = logView s := by
  unfold LogStorage.closeIfActive
  split_ifs with hactive
  · exact closeActive_view s
  · rfl

theorem tryListSegments_keeps :
    Keeps (logView (P := P)) (fun _ => True) (LogStorage.tryListSegments fault) := by
  refine Keeps.bind ?_ fun _ => ?_
  · exact Keeps.attempt fault _ _ _ trivial (fun _ _ => rfl) fun _ => rfl
  · refine Keeps.get_bind fun s => ?_
    cases listSegments s.segments with
    | error e => exact Keeps.throw _ trivial
    | ok segments => exact Keeps.pure segments

theorem tryPurgeSegment_keeps (purgeIndex round : ℕ) (segment : ℕ × String) :
    Keeps (logView (P := P)) (fun _ => True) (LogStorage.tryPurgeSegment fault purgeIndex round segment) := by
  unfold LogStorage.tryPurgeSegment
  split_ifs with hold
  · refine Keeps.bind (Keeps.modify _ (closeIfActive_view segment.1)) fun _ => ?_
    exact tryRemoveFile_keeps fault round segment.2
  · exact Keeps.pure ()

theorem tryTruncateSegment_keeps (truncateIndex round : ℕ) (segment : ℕ × String) :
    Keeps (logView (P := P)) (fun _ => True)
      (LogStorage.tryTruncateSegment codec fault truncateIndex round segment) := by
  have hclose : Keeps (logView (P := P)) (fun _ => True)
      (modify (LogStorage.closeIfActive segment.1) : StorageM P Unit) :=
    Keeps.modify _ (closeIfActive_view segment.1)
  unfold LogStorage.tryTruncateSegment
  split_ifs with hwhole hpart
  · exact hclose.bind fun _ => tryRemoveFile_keeps fault round segment.2
  · refine Keeps.get_bind fun s => hclose.bind fun _ => ?_
    split_ifs with hnone
    · exact tryRemoveFile_keeps fault round segment.2
    · refine Keeps.bind (Keeps.bind ?_ fun _ => ?_) fun _ => ?_
      · exact Keeps.attempt fault _ _ _ trivial (fun _ _ => rfl) fun _ => rfl
      · exact Keeps.attempt fault _ _ _ trivial (fun _ _ => rfl) fun _ => rfl
      · exact Keeps.attempt fault _ _ _ trivial (fun _ _ => rfl) closeActive_view
  · exact Keeps.pure ()

theorem tryPurgeEntries_meets (logId : LogId) (s : LogStorage P) :
    Meets (LogStorage.tryPurgeEntries fault logId) s (fun _ _ => True) fun _ s' =>
      logView s' = (s.logs.retain fun k => logId.index < k, some logId) := by
  have hrest : Keeps (logView (P := P)) (fun _ => True) (do
      let segments ← LogStorage.tryListSegments fault
      rounds (LogStorage.tryPurgeSegment fault logId.index) 0 segments
      attempt fault .saveMeta (fun _ s => s) LogStorage.saveMeta) := by
    refine (tryListSegments_keeps fault).bind fun segments => ?_
    refine (Keeps.rounds (tryPurgeSegment_keeps fault logId.index) 0 segments).bind fun _ => ?_
    exact Keeps.attempt fault _ _ _ trivial (fun _ _ => rfl) fun _ => rfl
  exact (hrest (s.dropPurged logId)).imp (fun _ _ _ => trivial) fun _ _ h => h.1

theorem tryTruncateEntries_meets (logId : LogId) (s : LogStorage P) :
    Meets (LogStorage.tryTruncateEntries codec fault logId) s (fun _ _ => True) fun _ s' =>
      logView s' = (s.logs.retain fun k => k < logId.index, s.lastPurgedLogId) := by
  have hrest : Keeps (logView (P := P)) (fun _ => True) (do
      let segments ← LogStorage.tryListSegments fault
      rounds (LogStorage.tryTruncateSegment codec fault logId.index) 0 segments) := by
    refine (tryListSegments_keeps fault).bind fun segments => ?_
    exact Keeps.rounds (tryTruncateSegment_keeps codec fault logId.index) 0 segments
  exact (hrest (s.dropTruncated logId)).imp (fun _ _ _ => trivial) fun _ _ h => h.1

end Failed

end Xerv.Raft
