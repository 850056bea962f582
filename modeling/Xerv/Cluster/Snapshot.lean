import Xerv.Cluster.State

/-!
# Snapshots of the cluster state (`xerv-cluster/src/state/machine/{mod,traits}.rs`)

`ClusterStateMachine` applies committed entries, serialises its whole state into a snapshot
and replaces it by that of a snapshot it is given. `serde_json` and the `Display` of an
`openraft` leader id are not part of the repository and are parameters.
-/

namespace Xerv.Cluster
open Xerv.Lib

/-- `openraft::EntryPayload`. -/
inductive EntryPayload (M : Type) where
  | blank
  | normal (cmd : ClusterCommand)
  | membership (m : M)

abbrev Entry (M : Type) := Raft.ClusterEntry (EntryPayload M)

/-- `serde_json` on the cluster state, and the text of the leader of a log id. -/
structure Externals (M : Type) where
  toVec : ClusterState M → Except String Bytes
  fromSlice : Bytes → Except String (ClusterState M)
  leaderText : Raft.LogId → String

/-- `serde_json` encodes this state, and decodes what it has encoded. -/
def Externals.Decodes {M : Type} (ext : Externals M) (s : ClusterState M) : Prop :=
  ∃ data, ext.toVec s = .ok data ∧ ext.fromSlice data = .ok s

structure SnapshotMeta (M : Type) where
  lastLogId : Option Raft.LogId
  lastMembership : StoredMembership M
  snapshotId : String

structure StoredSnapshot (M : Type) where
  snapshotMeta : SnapshotMeta M
  data : Bytes

/-- The parts of `meta.signature()`. -/
structure SnapshotSignature where
  lastLogId : Option Raft.LogId
  lastMembershipLogId : Option Raft.LogId
  snapshotId : String

def SnapshotMeta.signature {M : Type} (m : SnapshotMeta M) : SnapshotSignature :=
  ⟨m.lastLogId, m.lastMembership.logId, m.snapshotId⟩

inductive StateMachineError where
  | readStateMachine (cause : String)
  | readSnapshot (signature : SnapshotSignature) (cause : String)

structure ClusterStateMachine (M : Type) where
  state : ClusterState M
  snapshotIdx : UInt64
  currentSnapshot : Option (StoredSnapshot M)

namespace ClusterStateMachine
variable {M : Type}

def new [Inhabited M] : ClusterStateMachine M := ⟨.default, 0, none⟩

/-- One round of the loop of `apply`. -/
def applyEntry (s : ClusterState M) (entry : Entry M) : ClusterState M × ClusterResponse :=
  let s := { s with lastAppliedLog := some entry.logId }
  match entry.payload with
  | .blank => (s, .ok)
  | .normal cmd => s.applyCommand cmd
  | .membership m => ({ s with lastMembership := ⟨some entry.logId, m⟩ }, .ok)

def applyEntries : ClusterState M → List (Entry M) → ClusterState M × List ClusterResponse
  | s, [] => (s, [])
  | s, entry :: entries =>
    let (s, response) := applyEntry s entry
    let (s, responses) := applyEntries s entries
    (s, response :: responses)

def apply (sm : ClusterStateMachine M) (entries : List (Entry M)) :
    ClusterStateMachine M × List ClusterResponse :=
  let (state, responses) := applyEntries sm.state entries
  ({ sm with state }, responses)

def snapshotIdOf (ext : Externals M) (lastApplied : Option Raft.LogId) (idx : UInt64) : String :=
  let idxText := String.ofList (padded 10 1 idx.toNat)
  match lastApplied with
  | some last => ext.leaderText last ++ "-" ++ String.ofList (padded 10 1 last.index) ++ "-" ++ idxText
  | none => "--" ++ idxText

def buildSnapshot (ext : Externals M) (sm : ClusterStateMachine M) :
    Except StateMachineError (ClusterStateMachine M × StoredSnapshot M) :=
  match ext.toVec sm.state with
  | .error e => .error (.readStateMachine e)
  | .ok data =>
    let idx := sm.snapshotIdx + 1
    let snapshot : StoredSnapshot M :=
      ⟨⟨sm.state.lastAppliedLog, sm.state.lastMembership,
        snapshotIdOf ext sm.state.lastAppliedLog idx⟩, data⟩
    .ok ({ sm with snapshotIdx := idx, currentSnapshot := some snapshot }, snapshot)

def installSnapshot (ext : Externals M) (sm : ClusterStateMachine M) (m : SnapshotMeta M)
    (snapshot : Bytes) : Except StateMachineError (ClusterStateMachine M) :=
  match ext.fromSlice snapshot with
  | .error e => .error (.readSnapshot m.signature e)
  | .ok newState =>
    .ok { sm with
      state := { newState with lastAppliedLog := m.lastLogId, lastMembership := m.lastMembership }
      currentSnapshot := some ⟨m, snapshot⟩ }

theorem applyEntries_append (s : ClusterState M) (first rest : List (Entry M)) :
    (applyEntries s (first ++ rest)).1 = (applyEntries (applyEntries s first).1 rest).1 := by
  induction first generalizing s with
  | nil => rfl
  | cons entry first ih => exact ih (applyEntry s entry).1

theorem apply_state (sm : ClusterStateMachine M) (entries : List (Entry M)) :
    (sm.apply entries).1.state = (applyEntries sm.state entries).1 := rfl

theorem buildSnapshot_ok (ext : Externals M) (sm : ClusterStateMachine M) (data : Bytes)
    (hto : ext.toVec sm.state = .ok data) :
    ∃ sm' snapshot, sm.buildSnapshot ext = .ok (sm', snapshot) ∧ snapshot.data = data ∧
      snapshot.snapshotMeta.lastLogId = sm.state.lastAppliedLog ∧
      snapshot.snapshotMeta.lastMembership = sm.state.lastMembership := by
  unfold buildSnapshot
  rw [hto]
  exact ⟨_, _, rfl, rfl, rfl, rfl⟩

theorem installSnapshot_ok (ext : Externals M) (prior : ClusterStateMachine M) (m : SnapshotMeta M)
    (data : Bytes) (s : ClusterState M) (hfrom : ext.fromSlice data = .ok s)
    (hlog : m.lastLogId = s.lastAppliedLog) (hmembership : m.lastMembership = s.lastMembership) :
    ∃ installed, prior.installSnapshot ext m data = .ok installed ∧ installed.state = s := by
  unfold installSnapshot
  rw [hfrom, hlog, hmembership]
  exact ⟨_, rfl, rfl⟩

theorem install_built (ext : Externals M) (sm prior : ClusterStateMachine M)
    (hdecodes : ext.Decodes sm.state) :
    ∃ sm' snapshot installed, sm.buildSnapshot ext = .ok (sm', snapshot) ∧
      prior.installSnapshot ext snapshot.snapshotMeta snapshot.data = .ok installed ∧
      installed.state = sm.state := by
  obtain ⟨data, hto, hfrom⟩ := hdecodes
  obtain ⟨sm', snapshot, hbuild, hdata, hlog, hmembership⟩ := buildSnapshot_ok ext sm data hto
  obtain ⟨installed, hinstall, hstate⟩ :=
    installSnapshot_ok ext prior snapshot.snapshotMeta snapshot.data sm.state (hdata ▸ hfrom) hlog hmembership
  exact ⟨sm', snapshot, installed, hbuild, hinstall, hstate⟩

/-- For every list of committed entries and every split point: a snapshot of the first entries, installed
into a state machine in any state, followed by the remaining entries, gives the state of a fresh
state machine to which all entries are applied. -/
theorem snapshot_then_rest [Inhabited M] (ext : Externals M) (entries : List (Entry M)) (k : ℕ)
    (prior : ClusterStateMachine M)
    (hdecodes : ext.Decodes ((new : ClusterStateMachine M).apply (entries.take k)).1.state) :
    ∃ sm snapshot installed,
      ((new : ClusterStateMachine M).apply (entries.take k)).1.buildSnapshot ext = .ok (sm, snapshot) ∧
      prior.installSnapshot ext snapshot.snapshotMeta snapshot.data = .ok installed ∧
      (installed.apply (entries.drop k)).1.state = ((new : ClusterStateMachine M).apply entries).1.state := by
  obtain ⟨sm, snapshot, installed, hbuild, hinstall, hstate⟩ := install_built ext _ prior hdecodes
  refine ⟨sm, snapshot, installed, hbuild, hinstall, ?_⟩
  rw [apply_state, apply_state, hstate, apply_state, ← applyEntries_append, List.take_append_drop]

/-! ### A snapshot of one deployed pipeline -/

structure BasicMembership where
  configs : List (List UInt64)
  nodes : List (UInt64 × String)
  deriving DecidableEq, Inhabited

def committed (index : ℕ) (payload : EntryPayload BasicMembership) : Entry BasicMembership :=
  ⟨⟨1, 1, index⟩, payload⟩

def deployedEntries : List (Entry BasicMembership) :=
  [committed 1 (.normal (.deployPipeline samplePipeline [] 1)),
    committed 2 (.membership ⟨[[1]], [(1, "127.0.0.1:5000")]⟩),
    committed 3 (.normal (.startPipeline samplePipeline))]

def deployedMachine : ClusterStateMachine BasicMembership := (new.apply (deployedEntries.take 1)).1

def deployedText : String :=
  "\x7b\"traces\":[],\"pipelines\":[[\x7b\"name\":\"order_processing\",\"version\":1\x7d," ++
    "\x7b\"state\":\"Initializing\",\"config\":[],\"deployed_at_ms\":1,\"active_traces\":0\x7d]]," ++
    "\"nodes\":\x7b\x7d,\"last_applied_log\":\x7b\"leader_id\":\x7b\"term\":1,\"node_id\":1\x7d," ++
    "\"index\":1\x7d,\"last_membership\":\x7b\"log_id\":null,\"membership\":\x7b\"configs\":[]," ++
    "\"nodes\":\x7b\x7d\x7d\x7d\x7d"

def deployedExternals : Externals BasicMembership where
  toVec s := if s = deployedMachine.state then .ok deployedText.toUTF8.toList else .error "not modelled"
  fromSlice data :=
    if data = deployedText.toUTF8.toList then .ok deployedMachine.state else .error "not modelled"
  leaderText id := "T" ++ String.ofList (padded 10 1 id.term) ++ "-N" ++ String.ofList (padded 10 1 id.nodeId)

theorem deployed_decodes : deployedExternals.Decodes deployedMachine.state := by
  refine ⟨deployedText.toUTF8.toList, ?_, ?_⟩
  · simp only [deployedExternals, if_true]
  · simp only [deployedExternals, if_true]

theorem deployed_then_rest :
    ∃ sm snapshot installed,
      deployedMachine.buildSnapshot deployedExternals = .ok (sm, snapshot) ∧
      installSnapshot deployedExternals ⟨.runCommands .default startedCommands, 7, none⟩
        snapshot.snapshotMeta snapshot.data = .ok installed ∧
      (installed.apply (deployedEntries.drop 1)).1.state =
        ((new : ClusterStateMachine BasicMembership).apply deployedEntries).1.state :=
  snapshot_then_rest deployedExternals deployedEntries 1 ⟨.runCommands .default startedCommands, 7, none⟩
    deployed_decodes

end ClusterStateMachine
end Xerv.Cluster
