import Xerv.Lib.Table
import Xerv.Wal.Reader

/-!
# Replaying the WAL (`reader.rs:143-258`)

`replay` folds the records into one recovery state per trace. A record only
touches the state of its own trace, so every fact about the fold is a fact about
`stepTrace` on the records of one trace.
-/

namespace Xerv
open Xerv.Lib

structure NodeOutputLocation where
  offset : ArenaOffset
  size : UInt32
  schemaHash : UInt64
  deriving DecidableEq

structure TraceRecoveryState where
  traceId : TraceId
  lastCompletedNode : Option NodeId
  suspendedAt : Option NodeId
  startedNodes : List NodeId
  completedNodes : Table NodeId NodeOutputLocation
  suspensionMetadata : Option String

abbrev TraceMap := Table TraceId TraceRecoveryState

def TraceRecoveryState.started (traceId : TraceId) : TraceRecoveryState :=
  ⟨traceId, none, none, [], Table.empty, none⟩

def TraceRecoveryState.nodeDone (s : TraceRecoveryState) (r : WalRecord) : TraceRecoveryState :=
  { s with
    lastCompletedNode := some r.nodeId
    startedNodes := s.startedNodes.filter (· ≠ r.nodeId)
    completedNodes := s.completedNodes.insert r.nodeId ⟨r.outputOffset, r.outputSize, r.schemaHash⟩ }

def applyRecordToTraces (traces : TraceMap) (r : WalRecord) : TraceMap :=
  match r.recordType with
  | .traceStart => traces.insert r.traceId (.started r.traceId)
  | .nodeStart =>
    traces.modify r.traceId fun s => { s with startedNodes := s.startedNodes ++ [r.nodeId] }
  | .nodeDone => traces.modify r.traceId fun s => s.nodeDone r
  | .traceComplete | .traceFailed => traces.remove r.traceId
  | .traceSuspended =>
    traces.modify r.traceId fun s =>
      { s with suspendedAt := some r.nodeId, suspensionMetadata := r.metadata }
  | .traceResumed => traces.modify r.traceId fun s => { s with suspendedAt := none }
  | .nodeError | .checkpoint | .loopIteration | .loopExit => traces

def replay (traces : TraceMap) (records : List WalRecord) : TraceMap :=
  records.foldl applyRecordToTraces traces

def getIncompleteTracesFrom (crc : Bytes → UInt32) (d : FileDir) (start : WalPosition)
    (initial : TraceMap) : Except XervError TraceMap :=
  (readFrom crc d start).map (replay initial)

def getIncompleteTraces (crc : Bytes → UInt32) (d : FileDir) : Except XervError TraceMap :=
  getIncompleteTracesFrom crc d ⟨0, 0⟩ Table.empty

theorem getIncompleteTraces_readAll (crc : Bytes → UInt32) (d : FileDir) :
    getIncompleteTraces crc d = (readAll crc d).map (replay Table.empty) := rfl

theorem getIncompleteTraces_run (crc : Bytes → UInt32) (config : WalConfig) (now : ℕ)
    (ops : List WalOp) (henc : ∀ r ∈ writtenBy ops, r.Encodable) :
    getIncompleteTraces crc (runWal crc (Wal.open config ∅ now) (ops ++ [.flush])).disk.2 =
      .ok (replay Table.empty ((writtenBy ops).map WalRecord.readBack)) := by
  rw [getIncompleteTraces_readAll, readAll_run crc config now ops henc]
  rfl

/-! ### One trace -/

/-- What a record does to the state of its own trace. -/
def stepTrace (s : Option TraceRecoveryState) (r : WalRecord) : Option TraceRecoveryState :=
  applyRecordToTraces (fun _ => s) r r.traceId

theorem applyRecordToTraces_self (traces : TraceMap) (r : WalRecord) :
    applyRecordToTraces traces r r.traceId = stepTrace (traces r.traceId) r := by
  unfold stepTrace applyRecordToTraces
  cases r.recordType <;> simp

theorem applyRecordToTraces_other (traces : TraceMap) (r : WalRecord) (t : TraceId)
    (h : t ≠ r.traceId) : applyRecordToTraces traces r t = traces t := by
  unfold applyRecordToTraces
  cases r.recordType <;> simp [h]

theorem replay_append (traces : TraceMap) (rs ts : List WalRecord) :
    replay traces (rs ++ ts) = replay (replay traces rs) ts := List.foldl_append

theorem replay_apply (traces : TraceMap) (rs : List WalRecord) (t : TraceId) :
    replay traces rs t = (rs.filter fun r => r.traceId = t).foldl stepTrace (traces t) := by
  induction rs generalizing traces with
  | nil => rfl
  | cons r rs ih =>
    have hcons : replay traces (r :: rs) = replay (applyRecordToTraces traces r) rs := rfl
    rw [hcons, ih]
    by_cases h : r.traceId = t
    · subst h
      simp [applyRecordToTraces_self]
    · have hne : t ≠ r.traceId := fun he => h he.symm
      simp [applyRecordToTraces_other traces r t hne, h]

/-! ### The last record of a kind -/

def lastOf (p : WalRecord → Bool) (rs : List WalRecord) : Option WalRecord := rs.reverse.find? p

theorem lastOf_append_singleton (p : WalRecord → Bool) (rs : List WalRecord) (r : WalRecord) :
    lastOf p (rs ++ [r]) = if p r then some r else lastOf p rs := by
  unfold lastOf
  rw [List.reverse_append, List.reverse_singleton, List.singleton_append, List.find?_cons]
  cases p r <;> rfl

def WalRecord.opensOrEnds (t : TraceId) (r : WalRecord) : Bool :=
  r.traceId = t && (r.recordType = .traceStart || r.recordType = .traceComplete ||
    r.recordType = .traceFailed)

/-- Records after which the suspension metadata of trace `t` does not depend on what it was. -/
def WalRecord.setsMetadata (t : TraceId) (r : WalRecord) : Bool :=
  r.opensOrEnds t || (r.traceId = t && r.recordType = .traceSuspended)

/-- The last opening or closing record of the trace is a start. -/
def isOpen (t : TraceId) (rs : List WalRecord) : Bool :=
  (lastOf (WalRecord.opensOrEnds t) rs).any fun r => r.recordType = .traceStart

/-- The trace is open and the last record that set its metadata is a suspension that has some. -/
def carriesMetadata (t : TraceId) (rs : List WalRecord) : Bool :=
  isOpen t rs && (lastOf (WalRecord.setsMetadata t) rs).any fun r =>
    r.recordType = .traceSuspended && r.metadata.isSome

theorem replay_singleton (traces : TraceMap) (r : WalRecord) :
    replay traces [r] = applyRecordToTraces traces r := rfl

theorem replay_snoc (wal : List WalRecord) (r : WalRecord) :
    replay Table.empty ((wal ++ [r]).map WalRecord.readBack) =
      applyRecordToTraces (replay Table.empty (wal.map WalRecord.readBack)) r.readBack := by
  rw [List.map_append, replay_append]
  rfl

theorem isSome_replay (t : TraceId) (rs : List WalRecord) :
    (replay Table.empty rs t).isSome = isOpen t rs := by
  induction rs using List.reverseRecOn with
  | nil => rfl
  | append_singleton rs r ih =>
    rw [replay_append, replay_singleton, isOpen, lastOf_append_singleton]
    by_cases h : t = r.traceId
    · subst h
      rw [applyRecordToTraces_self, stepTrace, applyRecordToTraces]
      cases ht : r.recordType <;> simp [WalRecord.opensOrEnds, ht, ih, isOpen]
    · have hne : r.traceId ≠ t := fun he => h he.symm
      rw [applyRecordToTraces_other _ r t h, ih, isOpen]
      simp [WalRecord.opensOrEnds, hne]

theorem isOpen_readBack (t : TraceId) (rs : List WalRecord) :
    isOpen t (rs.map WalRecord.readBack) = isOpen t rs := by
  unfold isOpen lastOf
  rw [← List.map_reverse, List.find?_map, Option.any_map]
  rfl

theorem replay_others (traces : TraceMap) (rs : List WalRecord) (t : TraceId)
    (h : ∀ r ∈ rs, r.traceId ≠ t) : replay traces rs t = traces t := by
  have hnone : (rs.filter fun r => r.traceId = t) = [] := by
    rw [List.filter_eq_nil_iff]
    intro r hr
    simpa using h r hr
  rw [replay_apply, hnone]
  rfl

theorem replay_suspended (t : TraceId) (rs : List WalRecord) (state : TraceRecoveryState) (n : NodeId)
    (h : replay Table.empty rs t = some state) (hn : state.suspendedAt = some n) :
    ∃ r ∈ rs, r.traceId = t ∧ r.recordType = .traceSuspended ∧ r.nodeId = n ∧
      state.suspensionMetadata = r.metadata := by
  induction rs using List.reverseRecOn generalizing state with
  | nil => cases h
  | append_singleton rs r ih =>
    have hkeep (state' : TraceRecoveryState) (h' : replay Table.empty rs t = some state')
        (hat : state'.suspendedAt = some n)
        (hmeta : state.suspensionMetadata = state'.suspensionMetadata) :
        ∃ x ∈ rs ++ [r], x.traceId = t ∧ x.recordType = .traceSuspended ∧ x.nodeId = n ∧
          state.suspensionMetadata = x.metadata := by
      obtain ⟨x, hx, hid, htype, hnode, hm⟩ := ih state' h' hat
      exact ⟨x, List.mem_append_left _ hx, hid, htype, hnode, hmeta.trans hm⟩
    rw [replay_append, replay_singleton] at h
    by_cases ht : t = r.traceId
    · rw [ht, applyRecordToTraces_self, ← ht] at h
      unfold stepTrace applyRecordToTraces at h
      cases htype : r.recordType with
      | traceStart =>
        simp only [htype, Table.insert_self, Option.some.injEq] at h
        subst h
        cases hn
      | traceSuspended =>
        simp only [htype, Table.modify_self] at h
        obtain ⟨state', _, rfl⟩ := Option.map_eq_some_iff.mp h
        exact ⟨r, by simp, ht.symm, htype, Option.some.inj hn, rfl⟩
      | traceResumed =>
        simp only [htype, Table.modify_self] at h
        obtain ⟨state', _, rfl⟩ := Option.map_eq_some_iff.mp h
        cases hn
      | nodeStart | nodeDone =>
        simp only [htype, Table.modify_self] at h
        obtain ⟨state', h', rfl⟩ := Option.map_eq_some_iff.mp h
        exact hkeep state' h' hn rfl
      | traceComplete | traceFailed =>
        simp only [htype, Table.remove_self] at h
        cases h
      | nodeError | checkpoint | loopIteration | loopExit =>
        simp only [htype] at h
        exact hkeep state h hn rfl
    · rw [applyRecordToTraces_other _ r t ht] at h
      exact hkeep state h hn rfl

def metadataOf (s : Option TraceRecoveryState) : Option String := s.bind (·.suspensionMetadata)

theorem isSome_metadataOf_replay (t : TraceId) (rs : List WalRecord) :
    (metadataOf (replay Table.empty rs t)).isSome = carriesMetadata t rs := by
  induction rs using List.reverseRecOn with
  | nil => rfl
  | append_singleton rs r ih =>
    have hopen := isSome_replay t rs
    unfold carriesMetadata at ih ⊢
    rw [replay_append, replay_singleton, isOpen, lastOf_append_singleton, lastOf_append_singleton]
    rw [isOpen] at hopen ih
    by_cases h : t = r.traceId
    · subst h
      rw [applyRecordToTraces_self, stepTrace, applyRecordToTraces]
      cases hs : replay Table.empty rs r.traceId with
      | none =>
        rw [hs] at hopen ih
        cases ht : r.recordType <;>
          simp_all [WalRecord.opensOrEnds, WalRecord.setsMetadata, metadataOf,
            TraceRecoveryState.started]
      | some s =>
        rw [hs] at hopen ih
        cases ht : r.recordType <;>
          simp_all [WalRecord.opensOrEnds, WalRecord.setsMetadata, metadataOf,
            TraceRecoveryState.started, TraceRecoveryState.nodeDone]
    · have hne : r.traceId ≠ t := fun he => h he.symm
      rw [applyRecordToTraces_other _ r t h, ih]
      simp [WalRecord.opensOrEnds, WalRecord.setsMetadata, hne]

end Xerv
