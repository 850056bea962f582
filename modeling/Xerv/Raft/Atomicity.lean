import Xerv.Raft.Fallible

/-!
# Failed operations as the readers see them

The readers of the log are `try_get_log_entries` and `get_log_state`. The
operations change the map before the disk, so a call that fails has already
changed what the readers see, unless there was nothing to change.
-/

namespace Xerv.Raft
open Xerv.Lib

/-- `std::ops::Bound<u64>`. -/
inductive Bound where
  | included (index : ℕ)
  | excluded (index : ℕ)
  | unbounded

def Bound.isBelow : Bound → ℕ → Bool
  | .included i, k => i ≤ k
  | .excluded i, k => i < k
  | .unbounded, _ => true

def Bound.isAbove : Bound → ℕ → Bool
  | .included i, k => k ≤ i
  | .excluded i, k => k < i
  | .unbounded, _ => true

structure LogState where
  lastPurgedLogId : Option LogId
  lastLogId : Option LogId

section Readers
variable {P : Type}

def LogStorage.tryGetLogEntries (s : LogStorage P) (start stop : Bound) : List (ClusterEntry P) :=
  (s.logs.retain fun k => start.isBelow k && stop.isAbove k).values

def LogStorage.getLogState (s : LogStorage P) : LogState where
  lastPurgedLogId := s.lastPurgedLogId
  lastLogId := (s.logs.values.getLast?.map ClusterEntry.logId).or s.lastPurgedLogId

/-- The readers return the same from both storages. -/
def SameView (s s' : LogStorage P) : Prop :=
  (∀ start stop, s'.tryGetLogEntries start stop = s.tryGetLogEntries start stop) ∧
    s'.getLogState = s.getLogState

theorem tryGetLogEntries_single (s : LogStorage P) (k : ℕ) :
    s.tryGetLogEntries (.included k) (.included k) = (s.logs.get k).toList := by
  unfold LogStorage.tryGetLogEntries
  have hkeys : ∀ j ∈ (s.logs.retain fun j => (Bound.included k).isBelow j &&
      (Bound.included k).isAbove j).keys, j ≤ k := by
    intro j hj
    have hin := ((s.logs.mem_keys_retain _ j).mp hj).2
    simp only [Bound.isBelow, Bound.isAbove, Bool.and_eq_true, decide_eq_true_eq] at hin
    exact hin.2
  have hnone : ((s.logs.retain fun j => (Bound.included k).isBelow j &&
      (Bound.included k).isAbove j).retain fun j => j < k).values = [] := by
    rw [List.eq_nil_iff_forall_not_mem]
    intro e he
    obtain ⟨j, hj⟩ := (SortedMap.mem_values_iff _ _).mp he
    rw [SortedMap.get_retain] at hj
    split_ifs at hj with hlt
    rw [SortedMap.get_retain] at hj
    split_ifs at hj with hin
    simp only [Bound.isBelow, Bound.isAbove, Bool.and_eq_true, decide_eq_true_eq] at hin hlt
    omega
  rw [SortedMap.values_split_last _ k hkeys, hnone, SortedMap.get_retain]
  simp [Bound.isBelow, Bound.isAbove]

theorem sameView_iff (s s' : LogStorage P) : SameView s s' ↔ logView s' = logView s := by
  constructor
  · intro h
    obtain ⟨hentries, hstate⟩ := h
    have hlogs : s'.logs = s.logs := by
      refine SortedMap.ext_get fun k => ?_
      have hk := hentries (.included k) (.included k)
      rw [tryGetLogEntries_single, tryGetLogEntries_single] at hk
      simpa using congrArg List.head? hk
    have hpurged : s'.lastPurgedLogId = s.lastPurgedLogId := congrArg LogState.lastPurgedLogId hstate
    unfold logView
    rw [hlogs, hpurged]
  · intro h
    obtain ⟨hlogs, hpurged⟩ := Prod.mk.inj h
    refine ⟨fun start stop => ?_, ?_⟩
    · unfold LogStorage.tryGetLogEntries
      rw [hlogs]
    · unfold LogStorage.getLogState
      rw [hlogs, hpurged]

end Readers

/-! ### Calls -/

inductive LogCall (P : Type) where
  | append (entries : List (ClusterEntry P))
  | purge (logId : LogId)
  | truncate (logId : LogId)

section Calls
variable {P : Type} (codec : EntryCodec P)

def LogCall.perform (fault : Option IoFault) : LogCall P → StorageM P Unit
  | .append entries => LogStorage.tryAppendEntries codec fault entries
  | .purge logId => LogStorage.tryPurgeEntries fault logId
  | .truncate logId => LogStorage.tryTruncateEntries codec fault logId

/-- For each index, the last of the entries with that index is the one in the map. -/
def Stored (logs : SortedMap (ClusterEntry P)) (entries : List (ClusterEntry P)) : Prop :=
  ∀ k e, lastWith k entries = some e → logs.get k = some e

/-- The call has nothing to change in the map before `step`: the entries that an append inserts by
then are already stored; a purge or truncation finds no entry to remove, and the purged id stays. -/
def LogCall.NothingToChange (s : LogStorage P) (step : IoStep) : LogCall P → Prop
  | .append entries => Stored s.logs (entries.take (step.inserted entries.length))
  | .purge logId => s.lastPurgedLogId = some logId ∧ ∀ k ∈ s.logs.keys, logId.index < k
  | .truncate logId => ∀ k ∈ s.logs.keys, k < logId.index

theorem foldl_insertEntry_eq_iff (logs : SortedMap (ClusterEntry P)) (entries : List (ClusterEntry P)) :
    entries.foldl LogStorage.insertEntry logs = logs ↔ Stored logs entries := by
  constructor
  · intro h k e he
    rw [← h, get_foldl_insertEntry, he]
    rfl
  · intro h
    refine SortedMap.ext_get fun k => ?_
    rw [get_foldl_insertEntry]
    cases he : lastWith k entries with
    | none => rfl
    | some e => rw [h k e he, Option.some_or]

/-- A call that returns an error leaves the log as its readers saw it before if and only if it had
nothing to change before the step that failed. -/
theorem failed_call_unseen_iff (call : LogCall P) (fault : Option IoFault) (s s' : LogStorage P)
    (step : IoStep) (h : call.perform codec fault s = .error (.failed step) s') :
    SameView s s' ↔ call.NothingToChange s step := by
  rw [sameView_iff]
  cases call with
  | append entries =>
    have hspec := tryAppendEntries_meets codec fault entries s
    unfold Meets at hspec
    rw [show LogStorage.tryAppendEntries codec fault entries s = _ from h] at hspec
    rw [hspec step rfl, logView, Prod.mk.injEq, foldl_insertEntry_eq_iff]
    exact and_iff_left rfl
  | purge logId =>
    have hspec := tryPurgeEntries_meets fault logId s
    unfold Meets at hspec
    rw [show LogStorage.tryPurgeEntries fault logId s = _ from h] at hspec
    rw [show logView s' = _ from hspec, logView, Prod.mk.injEq, SortedMap.retain_eq_self_iff]
    simp only [decide_eq_true_eq, LogCall.NothingToChange]
    exact ⟨fun hv => ⟨hv.2.symm, hv.1⟩, fun hv => ⟨hv.2, hv.1.symm⟩⟩
  | truncate logId =>
    have hspec := tryTruncateEntries_meets codec fault logId s
    unfold Meets at hspec
    rw [show LogStorage.tryTruncateEntries codec fault logId s = _ from h] at hspec
    rw [show logView s' = _ from hspec, logView, Prod.mk.injEq, SortedMap.retain_eq_self_iff]
    simp only [decide_eq_true_eq, LogCall.NothingToChange, and_true]

def twoEntries : LogStorage Unit := LogStorage.fresh.appendEntries blankCodec [blankEntry 1, blankEntry 2]

theorem failed_encode_unseen :
    ∃ s', (LogCall.append [blankEntry 2, blankEntry 3]).perform blankCodec (some ⟨.encode 1, 0⟩) twoEntries =
        .error (.failed (.encode 1)) s' ∧ SameView twoEntries s' := by
  have hfails : ∃ s', (LogCall.append [blankEntry 2, blankEntry 3]).perform blankCodec (some ⟨.encode 1, 0⟩) twoEntries =
      .error (.failed (.encode 1)) s' := ⟨_, rfl⟩
  obtain ⟨s', hrun⟩ := hfails
  refine ⟨s', hrun, (failed_call_unseen_iff blankCodec (.append [blankEntry 2, blankEntry 3])
    (some ⟨.encode 1, 0⟩) twoEntries s' (.encode 1) hrun).mpr fun k e he => ?_⟩
  obtain ⟨hmem, rfl⟩ := lastWith_some k _ e he
  obtain rfl := List.mem_singleton.mp hmem
  rfl

/-- An append whose last fsync fails has put its entry into the map. -/
theorem failed_sync_seen :
    ¬ ∀ (call : LogCall Unit) (fault : Option IoFault) (s s' : LogStorage Unit) (step : IoStep),
      call.perform blankCodec fault s = .error (.failed step) s' → SameView s s' := by
  intro h
  have hfails : ∃ s', (LogCall.append [blankEntry 1]).perform blankCodec (some ⟨.sync, 0⟩) .fresh =
      .error (.failed .sync) s' := ⟨_, rfl⟩
  obtain ⟨s', hrun⟩ := hfails
  have hsame := (sameView_iff _ _).mp (h _ _ _ s' .sync hrun)
  have hspec := tryAppendEntries_meets blankCodec (some ⟨.sync, 0⟩) [blankEntry 1] .fresh
  unfold Meets at hspec
  rw [show LogStorage.tryAppendEntries blankCodec _ _ _ = _ from hrun] at hspec
  have hkeys := congrArg (fun v => v.1.keys) ((hspec .sync rfl).symm.trans hsame)
  exact absurd hkeys (by decide)

end Calls

end Xerv.Raft
