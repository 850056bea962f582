import Xerv.Wal.Replay

/-!
# WAL snapshots (`snapshot.rs`, `snapshot_manager.rs`)

A snapshot keeps one `SnapshotTraceState` per open trace, with every field of the
recovery state except the suspension metadata. Recovery from a snapshot resumes
the replay fold at the snapshot's position, starting from the converted states.
-/

namespace Xerv
open Xerv.Lib

structure SnapshotNodeOutput where
  offset : ArenaOffset
  size : UInt32
  schemaHash : UInt64
  deriving DecidableEq

structure SnapshotTraceState where
  traceId : TraceId
  lastCompletedNode : Option NodeId
  suspendedAt : Option NodeId
  startedNodes : List NodeId
  completedNodes : Table NodeId SnapshotNodeOutput

structure WalSnapshot where
  id : ℕ
  walPosition : WalPosition
  traceStates : Table TraceId SnapshotTraceState
  createdAt : ℕ
  recordCount : ℕ

def snapshotState (tid : TraceId) (s : TraceRecoveryState) : SnapshotTraceState where
  traceId := tid
  lastCompletedNode := s.lastCompletedNode
  suspendedAt := s.suspendedAt
  startedNodes := s.startedNodes
  completedNodes := s.completedNodes.mapValues fun loc => ⟨loc.offset, loc.size, loc.schemaHash⟩

/-- The snapshot built by `SnapshotManager::create_snapshot`, before it is written to disk. -/
def createSnapshot (id : ℕ) (walPosition : WalPosition) (traces : TraceMap) (recordCount now : ℕ) :
    WalSnapshot where
  id := id
  walPosition := walPosition
  traceStates := fun tid => (traces tid).map (snapshotState tid)
  createdAt := now
  recordCount := recordCount

def recoveryState (tid : TraceId) (s : SnapshotTraceState) : TraceRecoveryState where
  traceId := tid
  lastCompletedNode := s.lastCompletedNode
  suspendedAt := s.suspendedAt
  startedNodes := s.startedNodes
  completedNodes := s.completedNodes.mapValues fun out => ⟨out.offset, out.size, out.schemaHash⟩
  suspensionMetadata := none

def snapshotToRecoveryStates (snapshot : WalSnapshot) : TraceMap :=
  fun tid => (snapshot.traceStates tid).map (recoveryState tid)

/-! ### What a snapshot loses -/

def TraceRecoveryState.dropMetadata (s : TraceRecoveryState) : TraceRecoveryState :=
  { s with suspensionMetadata := none }

theorem traceId_stepTrace (s : Option TraceRecoveryState) (r : WalRecord)
    (h : ∀ x, s = some x → x.traceId = r.traceId) (y : TraceRecoveryState)
    (hy : stepTrace s r = some y) : y.traceId = r.traceId := by
  unfold stepTrace applyRecordToTraces at hy
  cases s with
  | none =>
    cases ht : r.recordType <;> simp [ht, TraceRecoveryState.started] at hy
    simp [← hy]
  | some x =>
    have hx := h x rfl
    cases ht : r.recordType <;>
      simp [ht, TraceRecoveryState.started, TraceRecoveryState.nodeDone] at hy <;>
      simp [← hy, hx]

theorem traceId_replay (rs : List WalRecord) (t : TraceId) (s : TraceRecoveryState)
    (h : replay Table.empty rs t = some s) : s.traceId = t := by
  induction rs using List.reverseRecOn generalizing s with
  | nil => simp [replay] at h
  | append_singleton rs r ih =>
    rw [replay_append, replay_singleton] at h
    by_cases ht : t = r.traceId
    · subst ht
      rw [applyRecordToTraces_self] at h
      exact traceId_stepTrace _ r ih s h
    · rw [applyRecordToTraces_other _ r t ht] at h
      exact ih s h

theorem recoveryState_snapshotState (tid : TraceId) (s : TraceRecoveryState)
    (h : s.traceId = tid) : recoveryState tid (snapshotState tid s) = s.dropMetadata := by
  have hnodes : ((s.completedNodes.mapValues
      (fun loc => (⟨loc.offset, loc.size, loc.schemaHash⟩ : SnapshotNodeOutput))).mapValues
        fun out => (⟨out.offset, out.size, out.schemaHash⟩ : NodeOutputLocation)) =
      s.completedNodes := by
    funext n
    rw [Table.mapValues_apply, Table.mapValues_apply, Option.map_map]
    exact Option.map_id'
  unfold recoveryState snapshotState TraceRecoveryState.dropMetadata
  rw [hnodes, h]

theorem snapshot_round_trip (id count now : ℕ) (pos : WalPosition) (pre : List WalRecord)
    (t : TraceId) :
    snapshotToRecoveryStates (createSnapshot id pos (replay Table.empty pre) count now) t =
      (replay Table.empty pre t).map TraceRecoveryState.dropMetadata := by
  unfold snapshotToRecoveryStates createSnapshot
  dsimp only
  cases h : replay Table.empty pre t with
  | none => rfl
  | some s =>
    rw [Option.map_some, Option.map_some, Option.map_some,
      recoveryState_snapshotState t s (traceId_replay pre t s h)]

/-! ### Resuming the fold -/

section Resume
variable (s : Option TraceRecoveryState) (r : WalRecord)

theorem stepTrace_sets (h : r.setsMetadata r.traceId = true) :
    stepTrace (s.map TraceRecoveryState.dropMetadata) r = stepTrace s r := by
  unfold stepTrace applyRecordToTraces
  cases s <;> cases ht : r.recordType <;>
    simp_all [WalRecord.setsMetadata, WalRecord.opensOrEnds, TraceRecoveryState.dropMetadata]

theorem stepTrace_keeps (h : r.setsMetadata r.traceId = false) :
    stepTrace (s.map TraceRecoveryState.dropMetadata) r =
      (stepTrace s r).map TraceRecoveryState.dropMetadata := by
  unfold stepTrace applyRecordToTraces
  cases s <;> cases ht : r.recordType <;>
    simp_all [WalRecord.setsMetadata, WalRecord.opensOrEnds, TraceRecoveryState.dropMetadata,
      TraceRecoveryState.nodeDone]

theorem metadataOf_stepTrace (h : r.setsMetadata r.traceId = false) :
    metadataOf (stepTrace s r) = metadataOf s := by
  unfold stepTrace applyRecordToTraces metadataOf
  cases s <;> cases ht : r.recordType <;>
    simp_all [WalRecord.setsMetadata, WalRecord.opensOrEnds, TraceRecoveryState.nodeDone]

theorem metadataOf_drop : metadataOf (s.map TraceRecoveryState.dropMetadata) = none := by
  cases s with
  | none => rfl
  | some s => rfl

theorem map_dropMetadata (h : metadataOf s = none) : s.map TraceRecoveryState.dropMetadata = s := by
  cases s with
  | none => rfl
  | some s =>
    have hm : s.suspensionMetadata = none := h
    obtain ⟨a, b, c, d, e, m⟩ := s
    subst hm
    rfl

end Resume

theorem foldl_stepTrace_sets (t : TraceId) (rs : List WalRecord) (s : Option TraceRecoveryState)
    (ht : ∀ r ∈ rs, r.traceId = t) (h : ∃ r ∈ rs, r.setsMetadata t = true) :
    rs.foldl stepTrace (s.map TraceRecoveryState.dropMetadata) = rs.foldl stepTrace s := by
  induction rs generalizing s with
  | nil =>
    obtain ⟨r, hr, _⟩ := h
    exact absurd hr List.not_mem_nil
  | cons r rs ih =>
    have hr : r.traceId = t := ht r List.mem_cons_self
    rw [List.foldl_cons, List.foldl_cons]
    cases hs : r.setsMetadata t with
    | true => rw [stepTrace_sets s r (hr ▸ hs)]
    | false =>
      rw [stepTrace_keeps s r (hr ▸ hs)]
      refine ih _ (fun x hx => ht x (List.mem_cons_of_mem _ hx)) ?_
      obtain ⟨x, hx, hxs⟩ := h
      rcases List.mem_cons.mp hx with hxr | hxrs
      · rw [hxr, hs] at hxs
        exact absurd hxs Bool.false_ne_true
      · exact ⟨x, hxrs, hxs⟩

theorem metadataOf_foldl (t : TraceId) (rs : List WalRecord) (s : Option TraceRecoveryState)
    (ht : ∀ r ∈ rs, r.traceId = t) (h : ∀ r ∈ rs, r.setsMetadata t = false) :
    metadataOf (rs.foldl stepTrace s) = metadataOf s := by
  induction rs generalizing s with
  | nil => rfl
  | cons r rs ih =>
    have hr : r.traceId = t := ht r List.mem_cons_self
    have hs : r.setsMetadata r.traceId = false := by
      rw [hr]
      exact h r List.mem_cons_self
    rw [List.foldl_cons, ih _ (fun x hx => ht x (List.mem_cons_of_mem _ hx))
      (fun x hx => h x (List.mem_cons_of_mem _ hx)), metadataOf_stepTrace s r hs]

/-- One trace after the split: the snapshot agrees iff no metadata was lost or some record sets it. -/
theorem resume_trace_iff (pre post : List WalRecord) (t : TraceId) :
    (post.filter fun r => r.traceId = t).foldl stepTrace
        ((replay Table.empty pre t).map TraceRecoveryState.dropMetadata) =
      (post.filter fun r => r.traceId = t).foldl stepTrace (replay Table.empty pre t) ↔
    (carriesMetadata t pre = true → ∃ r ∈ post, r.setsMetadata t = true) := by
  have hown : ∀ r ∈ post.filter (fun r => r.traceId = t), r.traceId = t := by
    intro r hr
    simpa using (List.mem_filter.mp hr).2
  have hcarries := isSome_metadataOf_replay t pre
  constructor
  · intro heq hcar
    by_contra hnone
    have hkeep : ∀ r ∈ post.filter (fun r => r.traceId = t), r.setsMetadata t = false := by
      intro r hr
      cases hs : r.setsMetadata t with
      | false => rfl
      | true => exact absurd ⟨r, (List.mem_filter.mp hr).1, hs⟩ hnone
    have hmeta := congrArg metadataOf heq
    rw [metadataOf_foldl t _ _ hown hkeep, metadataOf_foldl t _ _ hown hkeep, metadataOf_drop]
      at hmeta
    rw [← hmeta, hcar] at hcarries
    exact absurd hcarries Bool.false_ne_true
  · intro himp
    cases hcar : carriesMetadata t pre with
    | false =>
      rw [hcar] at hcarries
      rw [map_dropMetadata _ (by simpa using hcarries)]
    | true =>
      obtain ⟨r, hr, hs⟩ := himp hcar
      have hrt : r.traceId = t := by
        unfold WalRecord.setsMetadata WalRecord.opensOrEnds at hs
        by_contra hne
        simp [hne] at hs
      exact foldl_stepTrace_sets t _ _ hown ⟨r, List.mem_filter.mpr ⟨hr, by simpa using hrt⟩, hs⟩

theorem replay_snapshot_iff (pre post : List WalRecord) (id count now : ℕ) (pos : WalPosition) :
    replay (snapshotToRecoveryStates
        (createSnapshot id pos (replay Table.empty pre) count now)) post =
      replay Table.empty (pre ++ post) ↔
    ∀ t, carriesMetadata t pre = true → ∃ r ∈ post, r.setsMetadata t = true := by
  rw [replay_append, funext_iff]
  refine forall_congr' fun t => ?_
  rw [replay_apply, replay_apply, snapshot_round_trip]
  exact resume_trace_iff pre post t

section Disk
variable (crc : Bytes → UInt32) (d : FileDir) (pos : WalPosition) (pre post : List WalRecord)

theorem getIncompleteTracesFrom_eq (initial : TraceMap) (h : readFrom crc d pos = .ok post) :
    getIncompleteTracesFrom crc d pos initial = .ok (replay initial post) := by
  rw [getIncompleteTracesFrom, h]
  rfl

theorem getIncompleteTraces_eq (h : readAll crc d = .ok (pre ++ post)) :
    getIncompleteTraces crc d = .ok (replay Table.empty (pre ++ post)) :=
  getIncompleteTracesFrom_eq crc d ⟨0, 0⟩ (pre ++ post) Table.empty h

/-- Recovery from a snapshot taken at a split of the log agrees with full replay exactly when every
trace that carries suspension metadata at the split has it set again after the split. -/
theorem snapshot_recovery_iff (id count now : ℕ) (hall : readAll crc d = .ok (pre ++ post))
    (hfrom : readFrom crc d pos = .ok post) :
    getIncompleteTracesFrom crc d pos (snapshotToRecoveryStates
        (createSnapshot id pos (replay Table.empty pre) count now)) = getIncompleteTraces crc d ↔
      ∀ t, carriesMetadata t pre = true → ∃ r ∈ post, r.setsMetadata t = true := by
  rw [getIncompleteTracesFrom_eq crc d pos post _ hfrom, getIncompleteTraces_eq crc d pre post hall,
    Except.ok.injEq]
  exact replay_snapshot_iff pre post id count now pos

end Disk

def sampleStart : WalRecord := .traceStart sampleTrace 1

def sampleSuspended : WalRecord := (WalRecord.traceSuspended sampleTrace 3 4).withMetadata "hook"

def suspendedPrefix : List WalOp := [.write sampleStart 0 0, .write sampleSuspended 0 0]

def whileSuspended : WalPosition :=
  (runWal crc32 (Wal.open smallFiles ∅ 0) suspendedPrefix).getCurrentPosition

def sampleDir (post : List WalOp) : FileDir :=
  (runWal crc32 (Wal.open smallFiles ∅ 0) (suspendedPrefix ++ post ++ [.flush])).disk.2

theorem snapshot_recovery_of_completed_trace :
    getIncompleteTracesFrom crc32 (sampleDir [.write (.traceComplete sampleTrace 9) 0 0])
      whileSuspended (snapshotToRecoveryStates (createSnapshot 1 whileSuspended
        (replay Table.empty [sampleStart, sampleSuspended]) 2 0)) =
      getIncompleteTraces crc32 (sampleDir [.write (.traceComplete sampleTrace 9) 0 0]) := by
  refine (snapshot_recovery_iff crc32 _ whileSuspended [sampleStart, sampleSuspended]
    [.traceComplete sampleTrace 9] 1 2 0 ?_ ?_).mpr ?_
  · exact (readAll_run crc32 smallFiles 0 _ (by decide)).trans (by decide)
  · exact (readFrom_run crc32 smallFiles 0 suspendedPrefix _ (by decide)).trans
      (by decide)
  · intro t ht
    by_cases hs : sampleTrace = t
    · subst hs
      exact ⟨_, List.mem_singleton_self _, by decide⟩
    · simp [carriesMetadata, isOpen, lastOf, WalRecord.setsMetadata, WalRecord.opensOrEnds,
        sampleStart, sampleSuspended, WalRecord.withMetadata, WalRecord.traceStart,
        WalRecord.traceSuspended, WalRecord.base, hs] at ht

/-- A snapshot taken while the trace is suspended, with nothing after it, loses the metadata. -/
theorem snapshot_recovery_loses_metadata :
    getIncompleteTracesFrom crc32 (sampleDir []) whileSuspended
      (snapshotToRecoveryStates (createSnapshot 1 whileSuspended
        (replay Table.empty [sampleStart, sampleSuspended]) 2 0)) ≠
      getIncompleteTraces crc32 (sampleDir []) := by
  have hall : readAll crc32 (sampleDir []) = .ok ([sampleStart, sampleSuspended] ++ []) :=
    (readAll_run crc32 smallFiles 0 suspendedPrefix (by decide)).trans (by decide)
  have hfrom : readFrom crc32 (sampleDir []) whileSuspended = .ok [] :=
    readFrom_run crc32 smallFiles 0 suspendedPrefix [] (by decide)
  rw [getIncompleteTracesFrom_eq crc32 _ _ [] _ hfrom, getIncompleteTraces_eq crc32 _ _ [] hall]
  intro heq
  have hlost := (replay_snapshot_iff _ [] 1 2 0 _).mp (Except.ok.inj heq) sampleTrace
    (by decide)
  obtain ⟨r, hr, _⟩ := hlost
  exact absurd hr List.not_mem_nil

end Xerv
