import Xerv.Wal.Replay

/-!
# What the log says about one trace

The executor writes one `TraceStart` for a trace, before anything else of it, and never a
`TraceFailed` or a `NodeStart`. In such a log the replay of a trace comes down to two
questions: whether its start and its completion can be read, and which `NodeDone` record
of a node is the last one.
-/

namespace Xerv
open Xerv.Lib

def hasRecord (t : TraceId) (type : WalRecordType) (wal : List WalRecord) : Bool :=
  wal.any fun r => r.traceId = t && r.recordType = type

def WalRecord.isNodeDone (t : TraceId) (n : NodeId) (r : WalRecord) : Bool :=
  r.traceId = t && r.recordType = .nodeDone && r.nodeId = n

def loggedLocation (t : TraceId) (wal : List WalRecord) (n : NodeId) : Option NodeOutputLocation :=
  (lastOf (WalRecord.isNodeDone t n) wal).map fun r => ⟨r.outputOffset, r.outputSize, r.schemaHash⟩

/-- The kinds of records that a trace gets after its start. -/
def WalRecordType.follows (type : WalRecordType) : Prop :=
  type ≠ .traceStart ∧ type ≠ .traceFailed ∧ type ≠ .nodeStart

instance (type : WalRecordType) : Decidable type.follows :=
  inferInstanceAs (Decidable (_ ∧ _ ∧ _))

/-- The records of the trace begin with its start. -/
structure StartsFirst (t : TraceId) (wal : List WalRecord) : Prop where
  order : wal.Pairwise fun a b => a.traceId = t → b.traceId = t → b.recordType ≠ .traceStart
  kinds : ∀ r ∈ wal, r.traceId = t → r.recordType ≠ .traceFailed ∧ r.recordType ≠ .nodeStart

section Log
variable {t : TraceId} {wal : List WalRecord}

theorem startsFirst_start (earlier : List WalRecord) (h : ∀ r ∈ earlier, r.traceId ≠ t)
    (now : UInt64) : StartsFirst t (earlier ++ [.traceStart t now]) := by
  constructor
  · rw [List.pairwise_append]
    refine ⟨List.pairwise_iff_forall_sublist.mpr ?_, List.pairwise_singleton _ _, ?_⟩
    · intro a b hab ha
      exact absurd ha (h a (hab.subset List.mem_cons_self))
    · intro a ha b _ hat
      exact absurd hat (h a ha)
  · intro r hr hrt
    rcases List.mem_append.mp hr with hr | hr
    · exact absurd hrt (h r hr)
    · rw [List.mem_singleton.mp hr]
      exact ⟨nofun, nofun⟩

theorem StartsFirst.isPrefix (h : StartsFirst t wal) (seen : List WalRecord) (hseen : seen <+: wal) :
    StartsFirst t seen :=
  ⟨h.order.sublist hseen.sublist, fun r hr => h.kinds r (hseen.subset hr)⟩

theorem StartsFirst.append (h : StartsFirst t wal) (later : List WalRecord)
    (hlater : ∀ r ∈ later, r.traceId = t → r.recordType.follows) : StartsFirst t (wal ++ later) := by
  constructor
  · rw [List.pairwise_append]
    refine ⟨h.order, List.pairwise_iff_forall_sublist.mpr ?_, ?_⟩
    · intro a b hab _ hb
      exact (hlater b (hab.subset (by simp)) hb).1
    · intro a _ b hb _ hbt
      exact (hlater b hb hbt).1
  · intro r hr hrt
    rcases List.mem_append.mp hr with hr | hr
    · exact h.kinds r hr hrt
    · exact (hlater r hr hrt).2

theorem hasRecord_snoc (t : TraceId) (type : WalRecordType) (wal : List WalRecord) (r : WalRecord) :
    hasRecord t type (wal ++ [r]) = (hasRecord t type wal || (r.traceId = t && r.recordType = type)) := by
  unfold hasRecord
  rw [List.any_append]
  simp

theorem StartsFirst.fresh {r : WalRecord} (h : StartsFirst t (wal ++ [r])) (hr : r.traceId = t)
    (htype : r.recordType = .traceStart) : ∀ x ∈ wal, x.traceId ≠ t := by
  intro x hx hxt
  have hcross := (List.pairwise_append.mp h.order).2.2 x hx r (List.mem_singleton.mpr rfl)
  exact hcross hxt hr htype

theorem StartsFirst.init {r : WalRecord} (h : StartsFirst t (wal ++ [r])) : StartsFirst t wal :=
  h.isPrefix wal (List.prefix_append _ _)

theorem StartsFirst.isOpen_eq (h : StartsFirst t wal) :
    isOpen t wal = (hasRecord t .traceStart wal && !hasRecord t .traceComplete wal) := by
  induction wal using List.reverseRecOn with
  | nil => rfl
  | append_singleton wal r ih =>
    have ih := ih h.init
    rw [isOpen, lastOf_append_singleton, hasRecord_snoc, hasRecord_snoc]
    by_cases hr : r.traceId = t
    · have hkinds := h.kinds r (by simp) hr
      cases htype : r.recordType with
      | traceStart =>
        have hnone : hasRecord t .traceComplete wal = false := by
          unfold hasRecord
          rw [List.any_eq_false]
          intro x hx
          simp [h.fresh hr htype x hx]
        simp [WalRecord.opensOrEnds, hr, htype, hnone]
      | traceComplete => simp [WalRecord.opensOrEnds, hr, htype]
      | traceFailed => exact absurd htype hkinds.1
      | _ =>
        rw [isOpen] at ih
        simp [WalRecord.opensOrEnds, hr, htype, ih]
    · rw [isOpen] at ih
      simp [WalRecord.opensOrEnds, hr, ih]

theorem loggedLocation_snoc (t : TraceId) (wal : List WalRecord) (r : WalRecord) (n : NodeId) :
    loggedLocation t (wal ++ [r]) n = if r.isNodeDone t n then
      some ⟨r.outputOffset, r.outputSize, r.schemaHash⟩ else loggedLocation t wal n := by
  unfold loggedLocation
  rw [lastOf_append_singleton]
  split
  · rfl
  · rfl

theorem loggedLocation_none (h : ∀ r ∈ wal, r.traceId ≠ t) (n : NodeId) :
    loggedLocation t wal n = none := by
  have hnone : lastOf (WalRecord.isNodeDone t n) wal = none := by
    unfold lastOf
    rw [List.find?_eq_none]
    intro r hr
    simp [WalRecord.isNodeDone, h r (List.mem_reverse.mp hr)]
  rw [loggedLocation, hnone]
  rfl

/-- The replay knows of a node what its last `NodeDone` record says. -/
theorem StartsFirst.replayed (h : StartsFirst t wal) (state : TraceRecoveryState)
    (hs : replay Table.empty (wal.map WalRecord.readBack) t = some state) :
    state.startedNodes = [] ∧ ∀ n, state.completedNodes n = loggedLocation t wal n := by
  induction wal using List.reverseRecOn generalizing state with
  | nil => cases hs
  | append_singleton wal r ih =>
    have hkeep (hdone : ∀ n, r.isNodeDone t n = false) (state' : TraceRecoveryState)
        (hs' : replay Table.empty (wal.map WalRecord.readBack) t = some state') :
        state'.startedNodes = [] ∧ ∀ n, state'.completedNodes n = loggedLocation t (wal ++ [r]) n := by
      obtain ⟨hstarted, hnodes⟩ := ih h.init state' hs'
      refine ⟨hstarted, fun n => ?_⟩
      rw [loggedLocation_snoc, hdone n]
      exact hnodes n
    rw [replay_snoc] at hs
    by_cases hr : t = r.traceId
    · have hself : applyRecordToTraces (replay Table.empty (wal.map WalRecord.readBack)) r.readBack t =
          stepTrace (replay Table.empty (wal.map WalRecord.readBack) t) r.readBack := by
        rw [hr]
        exact applyRecordToTraces_self _ _
      rw [hself] at hs
      unfold stepTrace applyRecordToTraces at hs
      have hrt : r.readBack.recordType = r.recordType := rfl
      have hkinds := h.kinds r (by simp) hr.symm
      rw [hrt] at hs
      cases htype : r.recordType with
      | traceStart =>
        simp only [htype, Table.insert_self, Option.some.injEq] at hs
        subst hs
        refine ⟨rfl, fun n => ?_⟩
        rw [loggedLocation_snoc, loggedLocation_none (h.fresh hr.symm htype)]
        simp [WalRecord.isNodeDone, htype, TraceRecoveryState.started]
      | nodeStart => exact absurd htype hkinds.2
      | traceFailed => exact absurd htype hkinds.1
      | traceComplete =>
        simp only [htype, Table.remove_self] at hs
        cases hs
      | nodeDone =>
        simp only [htype, Table.modify_self] at hs
        obtain ⟨state', hs', rfl⟩ := Option.map_eq_some_iff.mp hs
        obtain ⟨hstarted, hnodes⟩ := ih h.init state' hs'
        refine ⟨?_, fun n => ?_⟩
        · simp [TraceRecoveryState.nodeDone, hstarted]
        · rw [loggedLocation_snoc]
          show state'.completedNodes.insert r.nodeId _ n = _
          by_cases hn : n = r.nodeId
          · subst hn
            simp [WalRecord.isNodeDone, hr, htype, WalRecord.readBack]
          · have hn' : r.nodeId ≠ n := fun he => hn he.symm
            rw [Table.insert_ne _ _ hn]
            simp [WalRecord.isNodeDone, hn', hnodes n]
      | traceSuspended | traceResumed =>
        simp only [htype, Table.modify_self] at hs
        obtain ⟨state', hs', rfl⟩ := Option.map_eq_some_iff.mp hs
        exact hkeep (by simp [WalRecord.isNodeDone, htype]) state' hs'
      | nodeError | checkpoint | loopIteration | loopExit =>
        simp only [htype] at hs
        exact hkeep (by simp [WalRecord.isNodeDone, htype]) state hs
    · have hne : r.traceId ≠ t := fun he => hr he.symm
      rw [applyRecordToTraces_other _ r.readBack t hr] at hs
      exact hkeep (by simp [WalRecord.isNodeDone, hne]) state hs

end Log

end Xerv
