import Xerv.Cluster.Snapshot
import Xerv.Lib.Machine
import Xerv.Lib.Replay

/-!
# Replicas of the cluster state (`xerv-cluster/src/state/machine/traits.rs`)

The state machines of all nodes, over the log that the nodes have agreed on. `openraft` decides which node does
what and when: it hands a node committed entries in order, from the one after `applied_state` on, asks for
snapshots, and delivers any snapshot that a node has handed out, again and late as it likes. A restarted
node has a new state machine, since `ClusterStateMachine` lives in memory.
-/

namespace Xerv.Cluster.Replicas
open Xerv.Lib ClusterStateMachine

variable {M : Type}

/-! ### What applying an entry does to the log id -/

section Metadata
variable (s : ClusterState M)

def metadata (s : ClusterState M) : Option Raft.LogId × StoredMembership M := (s.lastAppliedLog, s.lastMembership)

@[simp] theorem metadata_setTrace (traceId : TraceId) (info : TraceStateInfo) :
    metadata (s.setTrace traceId info) = metadata s := rfl

@[simp] theorem metadata_setPipeline (p : PipelineId) (info : PipelineStateInfo) :
    metadata (s.setPipeline p info) = metadata s := rfl

@[simp] theorem metadata_decrementActive (p : PipelineId) : metadata (s.decrementActive p) = metadata s := by
  unfold ClusterState.decrementActive
  split
  · rfl
  · exact metadata_setPipeline s p _

theorem metadata_applyCommand (cmd : ClusterCommand) : metadata (s.applyCommand cmd).1 = metadata s := by
  cases cmd with
  | startTrace traceId pipelineId startedAtMs =>
    simp only [ClusterState.applyCommand, ClusterState.applyStartTrace]
    split
    · rfl
    · split
      · rfl
      · simp
  | completeNode traceId nodeId =>
    simp only [ClusterState.applyCommand, ClusterState.applyCompleteNode]
    split <;> simp
  | completeTrace traceId completedAtMs =>
    simp only [ClusterState.applyCommand, ClusterState.applyCompleteTrace]
    split <;> simp
  | failTrace traceId error failedAtMs =>
    simp only [ClusterState.applyCommand, ClusterState.applyFailTrace]
    split <;> simp
  | suspendTrace traceId suspendedAtNode =>
    simp only [ClusterState.applyCommand, ClusterState.applySuspendTrace]
    split <;> simp
  | resumeTrace traceId =>
    simp only [ClusterState.applyCommand, ClusterState.applyResumeTrace]
    split
    · rfl
    · split <;> simp
  | deployPipeline pipelineId config deployedAtMs => exact metadata_setPipeline s pipelineId _
  | startPipeline pipelineId | pausePipeline pipelineId | drainPipeline pipelineId | stopPipeline pipelineId =>
    simp only [ClusterState.applyCommand, ClusterState.applyPipelineStateChange]
    split <;> simp
  | resumePipeline pipelineId =>
    simp only [ClusterState.applyCommand, ClusterState.applyResumePipeline]
    split
    · rfl
    · split <;> simp
  | undeployPipeline pipelineId =>
    simp only [ClusterState.applyCommand, ClusterState.applyUndeployPipeline]
    split <;> rfl
  | registerNode clusterNodeId address registeredAtMs => rfl
  | deregisterNode clusterNodeId =>
    simp only [ClusterState.applyCommand, ClusterState.applyDeregisterNode]
    split <;> rfl

end Metadata

theorem applyEntry_lastAppliedLog (s : ClusterState M) (entry : Entry M) :
    (applyEntry s entry).1.lastAppliedLog = some entry.logId := by
  unfold applyEntry
  cases entry.payload with
  | blank => rfl
  | normal cmd => exact congrArg Prod.fst (metadata_applyCommand { s with lastAppliedLog := some entry.logId } cmd)
  | membership m => rfl

theorem applyEntries_eq_replay (s : ClusterState M) (entries : List (Entry M)) :
    applyEntries s entries = replay applyEntry s entries := by
  induction entries generalizing s with
  | nil => rfl
  | cons entry entries ih => simp only [applyEntries, replay, ih]

theorem replay_lastAppliedLog (s : ClusterState M) (log : List (Entry M)) :
    (replay applyEntry s log).1.lastAppliedLog = (log.getLast?.map (·.logId)).or s.lastAppliedLog := by
  induction log generalizing s with
  | nil => rfl
  | cons entry log ih =>
    rw [replay, ih, applyEntry_lastAppliedLog, List.getLast?_cons]
    cases log.getLast? <;> rfl

/-! ### What a snapshot does -/

theorem buildSnapshot_spec {ext : Externals M} {sm sm' : ClusterStateMachine M} {snapshot : StoredSnapshot M}
    (hbuild : sm.buildSnapshot ext = .ok (sm', snapshot)) :
    ext.toVec sm.state = .ok snapshot.data ∧ sm'.state = sm.state ∧ sm'.currentSnapshot = some snapshot ∧
      snapshot.snapshotMeta.lastLogId = sm.state.lastAppliedLog ∧
      snapshot.snapshotMeta.lastMembership = sm.state.lastMembership := by
  unfold buildSnapshot at hbuild
  cases hdata : ext.toVec sm.state with
  | error e =>
    rw [hdata] at hbuild
    cases hbuild
  | ok data =>
    rw [hdata] at hbuild
    cases hbuild
    exact ⟨rfl, rfl, rfl, rfl, rfl⟩

theorem installSnapshot_spec {ext : Externals M} {sm sm' : ClusterStateMachine M} {m : SnapshotMeta M} {data : Bytes}
    (hinstall : sm.installSnapshot ext m data = .ok sm') :
    ∃ s, ext.fromSlice data = .ok s ∧
      sm'.state = { s with lastAppliedLog := m.lastLogId, lastMembership := m.lastMembership } ∧
      sm'.currentSnapshot = some ⟨m, data⟩ := by
  unfold installSnapshot at hinstall
  cases hdata : ext.fromSlice data with
  | error e =>
    rw [hdata] at hinstall
    cases hinstall
  | ok s =>
    rw [hdata] at hinstall
    cases hinstall
    exact ⟨s, rfl, rfl, rfl⟩

/-! ### The nodes and what happens to them -/

variable [Inhabited M]

def entryIndex (e : Entry M) : ℕ := e.logId.index

/-- What `openraft` holds for the nodes, and what they have answered. -/
structure Replication (M : Type) where
  log : List (Entry M)
  machines : ℕ → ClusterStateMachine M
  sent : List (SnapshotMeta M × Bytes)
  answers : List (Raft.LogId × ClusterResponse)

namespace Replication

def fresh : Replication M := ⟨[], fun _ => .new, [], []⟩

def setMachine (c : Replication M) (node : ℕ) (sm : ClusterStateMachine M) : Replication M :=
  { c with machines := Function.update c.machines node sm }

/-- `applied_state` -/
def appliedState (sm : ClusterStateMachine M) : Option Raft.LogId × StoredMembership M :=
  (sm.state.lastAppliedLog, sm.state.lastMembership)

def pending (c : Replication M) (node : ℕ) : List (Entry M) :=
  after entryIndex ((appliedState (c.machines node)).1.map (·.index)) c.log

/-- `get_current_snapshot` -/
def getCurrentSnapshot (sm : ClusterStateMachine M) : Option (SnapshotMeta M × Bytes) :=
  sm.currentSnapshot.map fun stored => (stored.snapshotMeta, stored.data)

end Replication

inductive Action (M : Type) where
  | commit (entry : Entry M)
  | apply (node count : ℕ)
  | build (node : ℕ)
  | send (node : ℕ)
  | install (node message : ℕ)
  | restart (node : ℕ)

/-- A failing call of a state machine leaves it as it was. -/
def step (ext : Externals M) (c : Replication M) : Action M → Option (Replication M)
  | .commit entry =>
    if c.log.all fun e => e.logId.index < entry.logId.index then some { c with log := c.log ++ [entry] } else none
  | .apply node count =>
    let entries := (c.pending node).take count
    let (sm, responses) := (c.machines node).apply entries
    some { c.setMachine node sm with
      answers := c.answers ++ (entries.map (·.logId)).zip responses }
  | .build node =>
    match (c.machines node).buildSnapshot ext with
    | .error _ => some c
    | .ok (sm, snapshot) =>
      some { c.setMachine node sm with sent := c.sent ++ [(snapshot.snapshotMeta, snapshot.data)] }
  | .send node => some { c with sent := c.sent ++ (Replication.getCurrentSnapshot (c.machines node)).toList }
  | .install node message =>
    c.sent[message]?.map fun (m, data) =>
      match (c.machines node).installSnapshot ext m data with
      | .error _ => c
      | .ok sm => c.setMachine node sm
  | .restart node => some (c.setMachine node .new)

abbrev run (ext : Externals M) (actions : List (Action M)) : Option (Replication M) :=
  Machine.run (step ext) Replication.fresh actions

/-- What `serde_json` encodes, it decodes. -/
def RoundTrips (ext : Externals M) : Prop := ∀ s data, ext.toVec s = .ok data → ext.fromSlice data = .ok s

/-! ### A state machine is a replay of the log -/

/-- The state and the answers of one state machine that applies the whole log. -/
def ideal (log : List (Entry M)) : ClusterState M × List ClusterResponse := replay applyEntry .default log

/-- The replay of the first `k` entries. -/
def prefixState (log : List (Entry M)) (k : ℕ) : ClusterState M := (ideal (log.take k)).1

theorem prefixState_lastAppliedLog (log : List (Entry M)) (k : ℕ) :
    (prefixState log k).lastAppliedLog = (log.take k).getLast?.map (·.logId) := by
  rw [prefixState, ideal, replay_lastAppliedLog]
  cases (log.take k).getLast? <;> rfl

theorem prefixState_append (log more : List (Entry M)) (k : ℕ) (hk : k ≤ log.length) :
    prefixState (log ++ more) k = prefixState log k := by
  rw [prefixState, prefixState, List.take_append_of_le_length hk]

theorem after_prefixState {log : List (Entry M)} (h : Increasing entryIndex log) (k : ℕ) :
    after entryIndex ((prefixState log k).lastAppliedLog.map (·.index)) log = log.drop k := by
  have hmap : (prefixState log k).lastAppliedLog.map (·.index) = (log.take k).getLast?.map entryIndex := by
    rw [prefixState_lastAppliedLog, Option.map_map]
    rfl
  rw [hmap, h.after_take]

theorem prefixState_injective {log : List (Entry M)} (h : Increasing entryIndex log) {j k : ℕ}
    (hj : j ≤ log.length) (hk : k ≤ log.length)
    (hsame : (prefixState log j).lastAppliedLog = (prefixState log k).lastAppliedLog) : j = k := by
  have hdrop : log.drop j = log.drop k := by rw [← after_prefixState h j, hsame, after_prefixState h k]
  have := congrArg List.length hdrop
  rw [List.length_drop, List.length_drop] at this
  omega

/-! ### What holds in every reachable state -/

/-- A snapshot that decodes to the replay of the entries up to the log id it carries. -/
def Faithful (ext : Externals M) (log : List (Entry M)) (message : SnapshotMeta M × Bytes) : Prop :=
  ∃ k ≤ log.length, ext.fromSlice message.2 = .ok (prefixState log k) ∧
    message.1.lastLogId = (prefixState log k).lastAppliedLog ∧
    message.1.lastMembership = (prefixState log k).lastMembership

def IsPrefix (log : List (Entry M)) (s : ClusterState M) : Prop := ∃ k ≤ log.length, s = prefixState log k

def IsAnswer (log : List (Entry M)) (answer : Raft.LogId × ClusterResponse) : Prop :=
  ∃ (i : ℕ) (entry : Entry M), log[i]? = some entry ∧ entry.logId = answer.1 ∧ (ideal log).2[i]? = some answer.2

structure Follows (ext : Externals M) (c : Replication M) : Prop where
  increasing : Increasing entryIndex c.log
  machines : ∀ node, IsPrefix c.log (c.machines node).state
  stored : ∀ node message, Replication.getCurrentSnapshot (c.machines node) = some message → Faithful ext c.log message
  sent : ∀ message ∈ c.sent, Faithful ext c.log message
  answers : ∀ answer ∈ c.answers, IsAnswer c.log answer

variable {ext : Externals M} {c c' : Replication M} {log : List (Entry M)}

theorem Faithful.append {message : SnapshotMeta M × Bytes} (h : Faithful ext log message) (more : List (Entry M)) :
    Faithful ext (log ++ more) message := by
  obtain ⟨k, hk, hdata, hlog, hmembership⟩ := h
  refine ⟨k, by rw [List.length_append]; omega, ?_⟩
  rw [prefixState_append log more k hk]
  exact ⟨hdata, hlog, hmembership⟩

theorem IsPrefix.append {s : ClusterState M} (h : IsPrefix log s) (more : List (Entry M)) :
    IsPrefix (log ++ more) s := by
  obtain ⟨k, hk, hs⟩ := h
  exact ⟨k, by rw [List.length_append]; omega, by rw [prefixState_append log more k hk, hs]⟩

theorem IsAnswer.append {answer : Raft.LogId × ClusterResponse} (h : IsAnswer log answer) (more : List (Entry M)) :
    IsAnswer (log ++ more) answer := by
  obtain ⟨i, entry, hentry, hid, hanswer⟩ := h
  have hi : i < log.length := (List.getElem?_eq_some_iff.mp hentry).1
  refine ⟨i, entry, ?_, hid, replay_answer_kept applyEntry _ log more i answer.2 hanswer⟩
  rw [List.getElem?_append_left hi, hentry]

theorem isPrefix_new (log : List (Entry M)) : IsPrefix log (new : ClusterStateMachine M).state :=
  ⟨0, Nat.zero_le _, by rw [prefixState, List.take_zero]; rfl⟩

theorem follows_fresh : Follows ext (Replication.fresh : Replication M) where
  increasing := List.Pairwise.nil
  machines _ := isPrefix_new []
  stored _ _ h := by cases h
  sent _ h := absurd h List.not_mem_nil
  answers _ h := absurd h List.not_mem_nil

theorem Follows.setMachine (h : Follows ext c) (node : ℕ) (sm : ClusterStateMachine M)
    (hstate : IsPrefix c.log sm.state)
    (hstored : ∀ message, Replication.getCurrentSnapshot sm = some message → Faithful ext c.log message) :
    Follows ext (c.setMachine node sm) := by
  refine ⟨h.increasing, fun other => ?_, fun other message hmessage => ?_, h.sent, h.answers⟩
  · by_cases hother : other = node
    · simpa [Replication.setMachine, hother] using hstate
    · simpa [Replication.setMachine, hother] using h.machines other
  · by_cases hother : other = node
    · exact hstored message (by simpa [Replication.setMachine, hother] using hmessage)
    · exact h.stored other message (by simpa [Replication.setMachine, hother] using hmessage)

theorem Follows.send (h : Follows ext c) (messages : List (SnapshotMeta M × Bytes))
    (hmessages : ∀ message ∈ messages, Faithful ext c.log message) :
    Follows ext { c with sent := c.sent ++ messages } := by
  refine ⟨h.increasing, h.machines, h.stored, fun message hmessage => ?_, h.answers⟩
  rcases List.mem_append.mp hmessage with hold | hnew
  · exact h.sent message hold
  · exact hmessages message hnew

theorem Follows.commit (h : Follows ext c) (entry : Entry M)
    (hnew : ∀ e ∈ c.log, e.logId.index < entry.logId.index) :
    Follows ext { c with log := c.log ++ [entry] } where
  increasing := h.increasing.append entry hnew
  machines node := (h.machines node).append [entry]
  stored node message hmessage := (h.stored node message hmessage).append [entry]
  sent message hmessage := (h.sent message hmessage).append [entry]
  answers answer hanswer := (h.answers answer hanswer).append [entry]

theorem applyEntries_pending (log : List (Entry M)) (k count : ℕ) (hk : k ≤ log.length) :
    IsPrefix log (applyEntries (prefixState log k) ((log.drop k).take count)).1 ∧
      ∀ answer ∈ (((log.drop k).take count).map (·.logId)).zip
        (applyEntries (prefixState log k) ((log.drop k).take count)).2, IsAnswer log answer := by
  have hsame : log.take (k + count) = log.take k ++ (log.drop k).take count := List.take_add
  rw [applyEntries_eq_replay]
  constructor
  · have hall := replay_append applyEntry .default (log.take k) ((log.drop k).take count)
    rw [← List.take_add] at hall
    refine ⟨min (k + count) log.length, by omega, ?_⟩
    rw [prefixState, prefixState, ideal, ideal, ← List.take_eq_take_min, hall]
  · intro answer hanswer
    obtain ⟨i, hi⟩ := List.mem_iff_getElem?.mp hanswer
    obtain ⟨hid, hresponse⟩ := List.getElem?_zip_eq_some.mp hi
    obtain ⟨entry, hentry, hlogId⟩ : ∃ entry, ((log.drop k).take count)[i]? = some entry ∧ entry.logId = answer.1 := by
      rwa [List.getElem?_map, Option.map_eq_some_iff] at hid
    refine ⟨k + i, entry, ?_, hlogId, replay_segment_answer applyEntry _ log k count i _ hk hresponse⟩
    rw [List.getElem?_take] at hentry
    split at hentry
    · rwa [List.getElem?_drop] at hentry
    · cases hentry

theorem pending_eq_drop (h : Follows ext c) {node k : ℕ}
    (hstate : (c.machines node).state = prefixState c.log k) : c.pending node = c.log.drop k := by
  rw [Replication.pending, Replication.appliedState, hstate, after_prefixState h.increasing]

theorem follows_apply (h : Follows ext c) (node count : ℕ) (hstep : step ext c (.apply node count) = some c') :
    Follows ext c' := by
  obtain ⟨k, hk, hstate⟩ := h.machines node
  obtain ⟨hreplayed, hanswers⟩ := applyEntries_pending c.log k count hk
  simp only [step, ClusterStateMachine.apply, pending_eq_drop h hstate, hstate, Option.some.injEq] at hstep
  have hnext := h.setMachine node { c.machines node with
    state := (applyEntries (prefixState c.log k) ((c.log.drop k).take count)).1 } hreplayed (h.stored node)
  rw [← hstep]
  refine ⟨hnext.increasing, hnext.machines, hnext.stored, hnext.sent, fun answer hanswer => ?_⟩
  rcases List.mem_append.mp hanswer with hold | hnew
  · exact h.answers answer hold
  · exact hanswers answer hnew

theorem follows_build (hext : RoundTrips ext) (h : Follows ext c) (node : ℕ)
    (hstep : step ext c (.build node) = some c') : Follows ext c' := by
  simp only [step] at hstep
  cases hbuild : (c.machines node).buildSnapshot ext with
  | error e =>
    rw [hbuild] at hstep
    exact Option.some.inj hstep ▸ h
  | ok built =>
    obtain ⟨sm, snapshot⟩ := built
    rw [hbuild] at hstep
    obtain ⟨hdata, hstate, hstored, hlog, hmembership⟩ := buildSnapshot_spec hbuild
    obtain ⟨k, hk, hreplayed⟩ := h.machines node
    rw [hreplayed] at hdata hlog hmembership
    have hfaithful : Faithful ext c.log (snapshot.snapshotMeta, snapshot.data) :=
      ⟨k, hk, hext _ _ hdata, hlog, hmembership⟩
    have hset := h.setMachine node sm (hstate ▸ h.machines node) (by
      intro message hmessage
      rw [Replication.getCurrentSnapshot, hstored] at hmessage
      cases hmessage
      exact hfaithful)
    rw [← Option.some.inj hstep]
    refine hset.send [(snapshot.snapshotMeta, snapshot.data)] fun message hmessage => ?_
    rw [List.mem_singleton.mp hmessage]
    exact hfaithful

theorem follows_install (h : Follows ext c) (node message : ℕ)
    (hstep : step ext c (.install node message) = some c') : Follows ext c' := by
  simp only [step, Option.map_eq_some_iff] at hstep
  obtain ⟨⟨m, data⟩, hmessage, hstep⟩ := hstep
  obtain ⟨k, hk, hdecoded, hlog, hmembership⟩ := h.sent _ (List.mem_of_getElem? hmessage)
  cases hinstall : (c.machines node).installSnapshot ext m data with
  | error e =>
    rw [hinstall] at hstep
    exact hstep ▸ h
  | ok sm =>
    rw [hinstall] at hstep
    obtain ⟨s, hs, hstate, hstored⟩ := installSnapshot_spec hinstall
    -- the metadata of the snapshot is that of the state it decodes to
    have hreplayed : sm.state = prefixState c.log k := by
      rw [hdecoded] at hs
      rw [hstate, ← Except.ok.inj hs, hlog, hmembership]
    rw [← hstep]
    refine h.setMachine node sm ⟨k, hk, hreplayed⟩ fun kept hkept => ?_
    rw [Replication.getCurrentSnapshot, hstored] at hkept
    cases hkept
    exact ⟨k, hk, hdecoded, hlog, hmembership⟩

theorem follows_step (hext : RoundTrips ext) (action : Action M) (h : Follows ext c)
    (hstep : step ext c action = some c') : Follows ext c' := by
  cases action with
  | commit entry =>
    rw [step] at hstep
    split at hstep
    · rename_i hnew
      rw [← Option.some.inj hstep]
      exact h.commit entry (by simpa using hnew)
    · cases hstep
  | apply node count => exact follows_apply h node count hstep
  | build node => exact follows_build hext h node hstep
  | send node =>
    rw [← Option.some.inj hstep]
    refine h.send _ fun message hmessage => h.stored node message ?_
    simpa using hmessage
  | install node message => exact follows_install h node message hstep
  | restart node =>
    rw [← Option.some.inj hstep]
    exact h.setMachine node .new (isPrefix_new c.log) nofun

theorem follows_run (hext : RoundTrips ext) (actions : List (Action M)) (hrun : run ext actions = some c) :
    Follows ext c :=
  Machine.run_invariant (Follows ext) (fun _ action _ => follows_step hext action) actions follows_fresh hrun

/-- Over every order of commits, applications, snapshots and restarts, whatever snapshots were delivered late,
again or to whom: two nodes that have applied the same log id have the same state, and a node that applies
what it has not applied yet has the state of one machine that applies the whole log once. -/
theorem replicas_agree (ext : Externals M) (hext : RoundTrips ext) (actions : List (Action M))
    (c : Replication M) (hrun : run ext actions = some c) :
    (∀ a b, (c.machines a).state.lastAppliedLog = (c.machines b).state.lastAppliedLog →
      (c.machines a).state = (c.machines b).state) ∧
    ∀ node, ((c.machines node).apply (c.pending node)).1.state = (ideal c.log).1 := by
  have h := follows_run hext actions hrun
  constructor
  · intro a b hsame
    obtain ⟨j, hj, ha⟩ := h.machines a
    obtain ⟨k, hk, hb⟩ := h.machines b
    rw [ha, hb] at hsame ⊢
    rw [prefixState_injective h.increasing hj hk hsame]
  · intro node
    obtain ⟨k, hk, hstate⟩ := h.machines node
    rw [pending_eq_drop h hstate, apply_state, hstate, applyEntries_eq_replay]
    exact replay_take_drop applyEntry .default c.log k

/-- A node deploys a pipeline and sends its snapshot, which reaches a node that has seen nothing, and later the node
that has gone on itself. -/
def deployedActions : List (Action BasicMembership) :=
  deployedEntries.map .commit ++
    [.apply 1 1, .build 1, .install 2 0, .apply 2 2, .apply 1 2, .install 1 0, .restart 3, .send 2]

theorem deployed_roundTrips : RoundTrips deployedExternals := by
  intro s data hdata
  simp only [deployedExternals] at hdata ⊢
  split at hdata
  · rename_i hs
    cases hdata
    rw [if_pos rfl, hs]
  · cases hdata

theorem deployed_run_answers :
    (run deployedExternals deployedActions).map (·.answers) =
      some [(⟨1, 1, 1⟩, .ok), (⟨1, 1, 2⟩, .ok), (⟨1, 1, 3⟩, .ok), (⟨1, 1, 2⟩, .ok), (⟨1, 1, 3⟩, .ok)] := by
  -- `ByteArray.toList` is slow to evaluate, the bytes of a text are not
  simp only [deployedExternals, toUTF8_toList]
  decide +kernel

theorem deployed_replicas_agree :
    ∃ c, run deployedExternals deployedActions = some c ∧
      (∀ a b, (c.machines a).state.lastAppliedLog = (c.machines b).state.lastAppliedLog →
        (c.machines a).state = (c.machines b).state) ∧
      ∀ node, ((c.machines node).apply (c.pending node)).1.state = (ideal c.log).1 := by
  obtain ⟨c, hrun, -⟩ := Option.map_eq_some_iff.mp deployed_run_answers
  exact ⟨c, hrun, replicas_agree deployedExternals deployed_roundTrips deployedActions c hrun⟩

/-- What any node has ever answered for a log id is the answer of one machine that applies the whole log: an
entry is never applied to a state in which an earlier one is missing or counted twice. -/
theorem answers_agree (ext : Externals M) (hext : RoundTrips ext) (actions : List (Action M))
    (c : Replication M) (hrun : run ext actions = some c) (id : Raft.LogId) (response : ClusterResponse)
    (hanswer : (id, response) ∈ c.answers) :
    ∀ (i : ℕ) (entry : Entry M), c.log[i]? = some entry → entry.logId = id →
      (ideal c.log).2[i]? = some response := by
  intro i entry hentry hid
  have h := follows_run hext actions hrun
  obtain ⟨j, other, hother, hotherId, hresponse⟩ := h.answers _ hanswer
  have hposition : entryIndex other = entryIndex entry := by rw [entryIndex, entryIndex, hotherId, hid]
  rwa [h.increasing.position_injective hother hentry hposition] at hresponse

theorem deployed_answers_agree :
    ∃ c, run deployedExternals deployedActions = some c ∧
      ∀ (i : ℕ) (entry : Entry BasicMembership), c.log[i]? = some entry → entry.logId = ⟨1, 1, 3⟩ →
        (ideal c.log).2[i]? = some .ok := by
  obtain ⟨c, hrun, hanswers⟩ := Option.map_eq_some_iff.mp deployed_run_answers
  refine ⟨c, hrun, answers_agree deployedExternals deployed_roundTrips deployedActions c hrun ⟨1, 1, 3⟩ .ok ?_⟩
  simp [hanswers]

end Xerv.Cluster.Replicas
