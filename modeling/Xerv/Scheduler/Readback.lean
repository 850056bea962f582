import Xerv.Scheduler.Decisions

/-!
# What is read back of a trace

A resume and a recovery know of a trace what its records in the log say, as far as they can
be read. Finished work is found again when its `NodeDone` record can be read and the output
was on port "out"; a trace that has failed is still found, since no failure is ever
recorded as the end of the trace.
-/

namespace Xerv
open Xerv.Lib

/-- Every complete output of the live state is in the rebuilt one, and no run from there executes its
node. -/
def WorkKept (ex : Executor) (tid : TraceId) (live rebuilt : TraceState) : Prop :=
  ∀ m port data hash, live.outputs m = some (.complete port data hash) →
    rebuilt.completed m = true ∧ rebuilt.outputs m = some (.complete port data hash) ∧
      ∀ arena wal actions s, ex.run tid (ExecState.start rebuilt arena wal) actions = some s →
        m ∉ s.started

section Read
variable {ex : Executor} {tid : TraceId}

theorem run_spares (st : TraceState) (hst : st.Initial) (m : NodeId) (hm : st.completed m = true)
    (arena : Table RelPtr Bytes) (wal : List WalRecord) (actions : List Action) (s : ExecState)
    (hrun : ex.run tid (ExecState.start st arena wal) actions = some s) : m ∉ s.started := by
  have hsafe := (Executor.run_consistent hst arena wal actions hrun).safe
  intro hmem
  rw [hsafe.startedOpen m hmem] at hm
  cases hm

theorem workKept_iff (live rebuilt : TraceState) (hrebuilt : rebuilt.Initial) :
    WorkKept ex tid live rebuilt ↔ ∀ m port data hash,
      live.outputs m = some (.complete port data hash) →
        rebuilt.outputs m = some (.complete port data hash) := by
  constructor
  · intro h m port data hash hm
    exact (h m port data hash hm).2.1
  · intro h m port data hash hm
    have hout := h m port data hash hm
    have hdone : rebuilt.completed m = true := by
      rw [hrebuilt.outputs m, hout]
      rfl
    exact ⟨hdone, hout, run_spares rebuilt hrebuilt m hdone⟩

/-- In every configuration the reader sees a prefix of what was written. -/
theorem incomplete_open (crc : Bytes → UInt32) (config : WalConfig) (opened : ℕ) (ops : List WalOp)
    (henc : ∀ r ∈ writtenBy ops, r.Encodable) :
    ∃ seen, seen <+: writtenBy ops ∧
      getIncompleteTraces crc (runWal crc (Wal.open config ∅ opened) ops).disk.2 =
        .ok (replay Table.empty (seen.map WalRecord.readBack)) := by
  obtain ⟨seen, hseen, hread⟩ := readAll_open crc config opened ops henc
  refine ⟨seen, hseen, ?_⟩
  rw [getIncompleteTraces_readAll, hread]
  rfl

theorem replay_none_iff (wal : List WalRecord) (h : StartsFirst tid wal) :
    replay Table.empty (wal.map WalRecord.readBack) tid = none ↔
      hasRecord tid .traceStart wal = false ∨ hasRecord tid .traceComplete wal = true := by
  rw [← Option.isNone_iff_eq_none, ← Option.not_isSome, isSome_replay, isOpen_readBack, h.isOpen_eq]
  cases hasRecord tid .traceStart wal with
  | false => simp
  | true => simp

end Read

/-- When a trace is rebuilt after the suspension of node `n`, its finished work is kept exactly when
every complete output is one that the log shows. What can be read is a part of the log, also after a
crash that has lost the end of it, and in every configuration of the log. -/
theorem finished_work_kept_iff (ex : Executor) (tid : TraceId) (triggerId : String) (input : RelPtr)
    (arena : Table RelPtr Bytes) (earlier : List WalRecord) (hearlier : ∀ r ∈ earlier, r.traceId ≠ tid)
    (now : UInt64) (store : MemorySuspensionStore) (actions : List LifeAction) (life : Life)
    (hrun : Machine.run (Life.step ex tid) (.begin tid triggerId input arena earlier now store) actions =
      some life)
    (n : NodeId) (st : TraceState) (hphase : life.exec.phase = .draining n)
    (hst : life.exec.trace = some st) (suspended : SuspendedTraceState)
    (hat : suspended.suspendedAt = n) (decision : ResumeDecision) (data : RelPtr)
    (later : List WalRecord)
    (hlater : ∀ r ∈ later, r.traceId = tid → r.recordType = .traceSuspended) :
    (∀ kept seen, kept <+: life.exec.wal → seen <+: kept ++ later →
      (WorkKept ex tid st (resumedState suspended
          (replay Table.empty (seen.map WalRecord.readBack) tid) decision data) ↔
        ∀ m port ptr hash, st.outputs m = some (.complete port ptr hash) →
          loggedOutput tid seen m = some (.complete port ptr hash))) ∧
    ∀ crc config opened ops, writtenBy ops = life.exec.wal ++ later →
      (∀ r ∈ writtenBy ops, r.Encodable) →
        ∃ seen, seen <+: life.exec.wal ++ later ∧
          getIncompleteTraces crc (runWal crc (Wal.open config ∅ opened) ops).disk.2 =
            .ok (replay Table.empty (seen.map WalRecord.readBack)) := by
  have halive := Life.alive_run actions
    (Life.alive_begin ex triggerId input arena earlier hearlier now store) hrun
  obtain ⟨hnone, _⟩ := halive.waiting n st hphase hst
  refine ⟨fun kept seen hkept hseen => ?_, fun crc config opened ops hops henc => ?_⟩
  · have hlog : StartsFirst tid seen := by
      refine ((halive.log.isPrefix kept hkept).append later fun r hr hid => ?_).isPrefix seen hseen
      rw [hlater r hr hid]
      exact ⟨nofun, nofun, nofun⟩
    refine (workKept_iff _ _ (TraceState.initial_fromRecovery _ _ _ _)).trans ?_
    have hsame (m : NodeId) (port : String) (ptr : RelPtr) (hash : UInt64)
        (hm : st.outputs m = some (.complete port ptr hash)) :
        (resumedState suspended (replay Table.empty (seen.map WalRecord.readBack) tid) decision
          data).outputs m = loggedOutput tid seen m := by
      have hne : m ≠ suspended.suspendedAt := by
        intro he
        rw [he, hat, hnone] at hm
        cases hm
      rw [resumedState_outputs hlog, if_neg hne]
    constructor
    · intro h m port ptr hash hm
      exact (hsame m port ptr hash hm).symm.trans (h m port ptr hash hm)
    · intro h m port ptr hash hm
      exact (hsame m port ptr hash hm).trans (h m port ptr hash hm)
  · rw [← hops]
    exact incomplete_open crc config opened ops henc

def approvalWaiting : List LifeAction :=
  execNode 0 (.complete "out" ⟨64, 4⟩ 0) ++ execNode 1 (.suspend Executor.approvalRequest RelPtr.null)

def triggerLog : List WalRecord := [.traceStart sampleTrace 0, .nodeDone sampleTrace 0 64 4 0 0]

theorem approvalWaiting_run :
    ∃ life st, Machine.run (Life.step approvalsExecutor sampleTrace) approvalsBegin approvalWaiting =
        some life ∧
      life.exec.phase = .draining 1 ∧ life.exec.trace = some st ∧ life.exec.wal = triggerLog ∧
      ∀ m o, st.outputs m = some o → m = 0 ∧ o = .complete "out" ⟨64, 4⟩ 0 := by
  refine ⟨_, _, rfl, rfl, rfl, rfl, fun m o h => ?_⟩
  by_cases hm : m = 0
  · subst hm
    cases h
    exact ⟨rfl, rfl⟩
  · have hnone : (Table.empty.insert (0 : NodeId) (NodeOutput.complete "out" ⟨64, 4⟩ 0)) m = some o := h
    rw [Table.insert_ne _ _ hm] at hnone
    cases hnone

theorem trigger_output_is_kept :
    ∃ life st, Machine.run (Life.step approvalsExecutor sampleTrace) approvalsBegin approvalWaiting =
        some life ∧ life.exec.trace = some st ∧
      WorkKept approvalsExecutor sampleTrace st (resumedState approvalStored
        (replay Table.empty (life.exec.wal.map WalRecord.readBack) sampleTrace) (.approve none)
          RelPtr.null) := by
  obtain ⟨life, st, hrun, hphase, hst, hwal, hout⟩ := approvalWaiting_run
  refine ⟨life, st, hrun, hst, ?_⟩
  refine ((finished_work_kept_iff approvalsExecutor sampleTrace "webhook" RelPtr.null Table.empty []
    (List.forall_mem_nil _) 0 .new approvalWaiting life hrun 1 st hphase hst approvalStored rfl (.approve none)
    RelPtr.null [] (List.forall_mem_nil _)).1 life.exec.wal life.exec.wal (List.prefix_refl _)
    (by rw [List.append_nil])).mpr ?_
  intro m port ptr hash hm
  obtain ⟨rfl, ho⟩ := hout m _ hm
  rw [ho, hwal]
  decide

def gateGraph : FlowGraph :=
  (((FlowGraph.new.addNode (.new 0 "trigger::webhook")).addNode (.new 1 "std::switch")).addNode
    (.new 2 "std::wait")).addEdge ⟨0, "out", 1, "in"⟩ |>.addEdge ⟨1, "true", 2, "in"⟩

def gateExecutor : Executor where
  graph := gateGraph
  executionOrder := [0, 1, 2]
  nodes := fun _ => true
  maxConcurrentNodes := 16
  nodeTimeoutMs := 30000
  hasSuspensionStore := true
  accepted := ⟨[0, 1, 2], [0, 1, 2], by decide, gateGraph.hashOrder_nodeIds (by decide),
    by decide⟩

def gateWaiting : List LifeAction :=
  execNode 0 (.complete "out" ⟨64, 4⟩ 0) ++ execNode 1 (.complete "true" ⟨72, 4⟩ 0) ++
    execNode 2 (.suspend Executor.approvalRequest RelPtr.null)

def gateLog : List WalRecord := triggerLog ++ [.nodeDone sampleTrace 1 72 4 0 0]

def gateStored : SuspendedTraceState := { approvalStored with suspendedAt := 2 }

theorem gateWaiting_run :
    ∃ life st, Machine.run (Life.step gateExecutor sampleTrace) approvalsBegin gateWaiting = some life ∧
      life.exec.phase = .draining 2 ∧ life.exec.trace = some st ∧ life.exec.wal = gateLog ∧
      st.outputs 1 = some (.complete "true" ⟨72, 4⟩ 0) := by
  refine ⟨_, _, rfl, rfl, rfl, rfl, ?_⟩
  rfl

/-- With every record written through, the switch answers on port "out" after the resume. -/
theorem resume_changes_port :
    ∃ life st incomplete, Machine.run (Life.step gateExecutor sampleTrace) approvalsBegin gateWaiting =
        some life ∧
      life.exec.phase = .draining 2 ∧ life.exec.trace = some st ∧
      getIncompleteTraces crc32 (runWal crc32 (Wal.open WalConfig.default ∅ 0)
        ((life.exec.wal ++ [WalRecord.traceSuspended sampleTrace 2 0]).map (fun r => .write r 0 0) ++
          [.flush])).disk.2 = .ok incomplete ∧
      ¬ WorkKept gateExecutor sampleTrace st
        (resumedState gateStored (incomplete sampleTrace) (.approve none) RelPtr.null) := by
  have hwritten : writtenBy ((gateLog ++ [WalRecord.traceSuspended sampleTrace 2 0]).map
      (fun r => WalOp.write r 0 0)) = gateLog ++ [WalRecord.traceSuspended sampleTrace 2 0] := rfl
  have hread := getIncompleteTraces_run crc32 WalConfig.default 0
    ((gateLog ++ [WalRecord.traceSuspended sampleTrace 2 0]).map (fun r => WalOp.write r 0 0))
    (by rw [hwritten]; decide)
  rw [hwritten] at hread
  obtain ⟨life, st, hrun, hphase, hst, hwal, hout⟩ := gateWaiting_run
  rw [← hwal] at hread
  refine ⟨life, st, _, hrun, hphase, hst, hread, fun hkept => ?_⟩
  rw [hwal] at hkept
  have hsame := (hkept 1 "true" ⟨72, 4⟩ 0 hout).2.1
  have hport : ((resumedState gateStored (replay Table.empty
      ((gateLog ++ [WalRecord.traceSuspended sampleTrace 2 0]).map WalRecord.readBack) sampleTrace)
      (.approve none) RelPtr.null).outputs 1) = some (.complete "out" ⟨72, 4⟩ 0) := by decide
  rw [hport] at hsame
  exact absurd hsame (by decide)

/-- After a call that returns an error because a node has failed, the trace is not found incomplete
exactly when its start cannot be read, or it had already completed. Tasks that are being aborted may
still log that their nodes are done or have failed. -/
theorem failed_trace_gone_iff (ex : Executor) (tid : TraceId) (triggerId : String) (input : RelPtr)
    (arena : Table RelPtr Bytes) (earlier : List WalRecord) (hearlier : ∀ r ∈ earlier, r.traceId ≠ tid)
    (now : UInt64) (store : MemorySuspensionStore) (actions : List LifeAction) (life life' : Life)
    (hrun : Machine.run (Life.step ex tid) (.begin tid triggerId input arena earlier now store) actions =
      some life)
    (n : NodeId) (r : TaskResult) (hresult : Executor.finishedResult life.exec n = some r)
    (hfailed : r.failed = true) (hjoin : life.step ex tid (.exec (.join n)) = some life')
    (later : List WalRecord) (hlater : ∀ r ∈ later, r.traceId = tid →
      r.recordType = .nodeDone ∨ r.recordType = .nodeError) :
    (∃ e, life'.exec.phase = .returned (.error e)) ∧
    (∀ kept seen, kept <+: life'.exec.wal → seen <+: kept ++ later →
      (replay Table.empty (seen.map WalRecord.readBack) tid = none ↔
        hasRecord tid .traceStart seen = false ∨ hasRecord tid .traceComplete seen = true)) ∧
    ∀ crc config opened ops, writtenBy ops = life'.exec.wal ++ later →
      (∀ r ∈ writtenBy ops, r.Encodable) →
        ∃ seen, seen <+: life'.exec.wal ++ later ∧
          getIncompleteTraces crc (runWal crc (Wal.open config ∅ opened) ops).disk.2 =
            .ok (replay Table.empty (seen.map WalRecord.readBack)) := by
  have halive := Life.alive_run actions
    (Life.alive_begin ex triggerId input arena earlier hearlier now store) hrun
  have hlog := (Life.alive_step _ halive hjoin).log
  refine ⟨?_, fun kept seen hkept hseen => ?_, fun crc config opened ops hops henc => ?_⟩
  · obtain ⟨s, hs, rfl⟩ := Option.map_eq_some_iff.mp hjoin
    unfold Executor.step at hs
    cases hp : life.exec.phase with
    | joining =>
      simp only [hp, hresult, Option.map_some, Option.some.injEq] at hs
      subst hs
      cases r with
      | ok output => cases hfailed
      | err message => exact ⟨_, rfl⟩
      | lost panicked => exact ⟨_, rfl⟩
    | _ => simp [hp] at hs
  · refine replay_none_iff seen (((hlog.isPrefix kept hkept).append later fun r hr hid => ?_).isPrefix
      seen hseen)
    rcases hlater r hr hid with htype | htype
    · rw [htype]
      exact ⟨nofun, nofun, nofun⟩
    · rw [htype]
      exact ⟨nofun, nofun, nofun⟩
  · rw [← hops]
    exact incomplete_open crc config opened ops henc

def lineBegin : Life := .begin sampleTrace "webhook" RelPtr.null Table.empty [] 0 .new

def lineFailing : List LifeAction := (Executor.lineFailure.take 5).map .exec

def failureLog : List WalRecord :=
  [.traceStart sampleTrace 0, .nodeError sampleTrace 0 "no route to host" 0]

theorem lineFailing_run :
    ∃ life life', Machine.run (Life.step Executor.lineExecutor sampleTrace) lineBegin lineFailing =
        some life ∧
      Executor.finishedResult life.exec 0 = some (.err "no route to host") ∧
      life.step Executor.lineExecutor sampleTrace (.exec (.join 0)) = some life' ∧
      life'.exec.wal = failureLog := ⟨_, _, rfl, rfl, rfl, rfl⟩

theorem lost_log_hides_failed_trace :
    ∃ life life', Machine.run (Life.step Executor.lineExecutor sampleTrace) lineBegin lineFailing =
        some life ∧
      life.step Executor.lineExecutor sampleTrace (.exec (.join 0)) = some life' ∧
      (∃ e, life'.exec.phase = .returned (.error e)) ∧
      replay Table.empty (([] : List WalRecord).map WalRecord.readBack) sampleTrace = none := by
  obtain ⟨life, life', hrun, hresult, hjoin, _⟩ := lineFailing_run
  obtain ⟨herror, hgone, _⟩ := failed_trace_gone_iff Executor.lineExecutor sampleTrace "webhook"
    RelPtr.null Table.empty [] (List.forall_mem_nil _) 0 .new lineFailing life life' hrun 0 _ hresult rfl
    hjoin [] (List.forall_mem_nil _)
  exact ⟨life, life', hrun, hjoin, herror,
    (hgone [] [] (List.nil_prefix) (List.nil_prefix)).mpr (.inl rfl)⟩

/-- The trigger fails, and the trace is found incomplete. -/
theorem failed_trace_is_found :
    ∃ life life' incomplete,
      Machine.run (Life.step Executor.lineExecutor sampleTrace) lineBegin lineFailing = some life ∧
      life.step Executor.lineExecutor sampleTrace (.exec (.join 0)) = some life' ∧
      (∃ e, life'.exec.phase = .returned (.error e)) ∧
      getIncompleteTraces crc32 (runWal crc32 (Wal.open WalConfig.default ∅ 0)
        (life'.exec.wal.map (fun r => .write r 0 0) ++ [.flush])).disk.2 = .ok incomplete ∧
      incomplete sampleTrace ≠ none := by
  have hwritten : writtenBy (failureLog.map (fun r => WalOp.write r 0 0)) = failureLog := rfl
  have hread := getIncompleteTraces_run crc32 WalConfig.default 0
    (failureLog.map (fun r => WalOp.write r 0 0)) (by rw [hwritten]; decide)
  rw [hwritten] at hread
  refine ⟨_, _, _, rfl, rfl, ⟨_, rfl⟩, hread, ?_⟩
  rw [ne_eq, ← Option.isNone_iff_eq_none]
  decide

end Xerv
