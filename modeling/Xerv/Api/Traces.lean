import Mathlib.Data.List.Nodup
import Mathlib.Logic.Function.Basic
import Xerv.Core.Types
import Xerv.Lib.Machine

/-!
# The records of traces (`api/state.rs`, `api/handlers/traces.rs`, `api/handlers/triggers.rs`)

The status of a record is written by requests only: `handle_event` starts the execution of a fired trace in a
task of its own, which keeps its outcome for the metrics and the log. A step is what one request does in one
go (between two of its locks), or the end of an execution or of a suspension. What `handle_event` and
`execute_trace` answer is part of the step. Times are left out.
-/

namespace Xerv.Api
open Xerv.Lib

inductive TraceStatus where
  | running | completed | failed | suspended | canceled
  deriving DecidableEq

def TraceStatus.settled : TraceStatus → Bool
  | completed | failed | canceled => true
  | running | suspended => false

structure TraceRecord where
  traceId : TraceId
  pipelineId : String
  status : TraceStatus
  error : Option String
  deriving DecidableEq

namespace TraceRecord

def new (traceId : TraceId) (pipelineId : String) : TraceRecord := ⟨traceId, pipelineId, .running, none⟩

def fail (record : TraceRecord) (error : String) : TraceRecord :=
  { record with status := .failed, error := some error }

theorem fail_traceId (record : TraceRecord) (error : String) :
    (record.fail error).traceId = record.traceId := rfl

end TraceRecord

structure TraceHistory where
  records : List TraceRecord
  capacity : ℕ

namespace TraceHistory

def new (capacity : ℕ) : TraceHistory := ⟨[], capacity⟩

def push (history : TraceHistory) (record : TraceRecord) : TraceHistory :=
  { history with records :=
      (if history.capacity ≤ history.records.length then history.records.tail else history.records) ++
        [record] }

def get (history : TraceHistory) (traceId : TraceId) : Option TraceRecord :=
  history.records.find? fun r => decide (r.traceId = traceId)

def updateFirst (traceId : TraceId) (f : TraceRecord → TraceRecord) : List TraceRecord → List TraceRecord
  | [] => []
  | r :: rs => if r.traceId = traceId then f r :: rs else r :: updateFirst traceId f rs

def update (history : TraceHistory) (traceId : TraceId) (f : TraceRecord → TraceRecord) : TraceHistory :=
  { history with records := updateFirst traceId f history.records }

theorem updateFirst_eq_map {traceId : TraceId} {f : TraceRecord → TraceRecord}
    {records : List TraceRecord} (hdistinct : (records.map (·.traceId)).Nodup) :
    updateFirst traceId f records = records.map fun r => if r.traceId = traceId then f r else r := by
  induction records with
  | nil => rfl
  | cons r rs ih =>
    obtain ⟨hfresh, hrest⟩ := List.nodup_cons.mp hdistinct
    rw [updateFirst, List.map_cons]
    by_cases hr : r.traceId = traceId
    · rw [if_pos hr, if_pos hr]
      have hrs : (rs.map fun r' => if r'.traceId = traceId then f r' else r') = rs := by
        refine (List.map_congr_left fun r' hr' => ?_).trans (List.map_id rs)
        exact if_neg fun h => hfresh (List.mem_map.mpr ⟨r', hr', h.trans hr.symm⟩)
      rw [hrs]
    · rw [if_neg hr, if_neg hr, ih hrest]

theorem get_update (history : TraceHistory) (traceId : TraceId) {f : TraceRecord → TraceRecord}
    (hf : ∀ r, (f r).traceId = r.traceId) (id : TraceId) :
    (history.update traceId f).get id =
      if id = traceId then (history.get traceId).map f else history.get id := by
  unfold update get
  dsimp only
  induction history.records with
  | nil =>
    split
    · rfl
    · rfl
  | cons r rs ih =>
    rw [updateFirst]
    by_cases hr : r.traceId = traceId
    · by_cases hid : id = traceId
      · simp [hf, hr, hid]
      · simp [hf, hr, hid, Ne.symm hid]
    · by_cases hid : r.traceId = id
      · have hne : id ≠ traceId := fun h => hr (hid.trans h)
        simp [hid, hne]
      · simp [hr, hid, ih]

theorem get_mem {history : TraceHistory} {traceId : TraceId} {record : TraceRecord}
    (h : history.get traceId = some record) : record ∈ history.records ∧ record.traceId = traceId :=
  ⟨List.mem_of_find?_eq_some h, by simpa using List.find?_some h⟩

theorem kept_sublist (history : TraceHistory) :
    (if history.capacity ≤ history.records.length then history.records.tail
      else history.records).Sublist history.records := by
  split
  · exact List.tail_sublist _
  · exact List.Sublist.refl _

end TraceHistory

/-! ### Requests, executions and the records they write -/

inductive ExecOutcome where
  | ok | err | suspended
  deriving DecidableEq

/-- Where a trace of `POST /traces` (`created`) or of `fire` stands. -/
inductive TraceStage where
  | unused
  | created
  -- `fire` has pushed the record, and `handle_event` is under way
  | handling
  -- `handle_event` has failed, and `fire` has yet to write so
  | refused (error : String)
  | notStarted
  | executing
  | suspended
  | returned (ok : Bool)
  deriving DecidableEq

structure TraceWorld where
  history : TraceHistory
  stage : TraceId → TraceStage

inductive TraceStep where
  | create (traceId : TraceId) (pipelineId : String)
  -- whether the pipeline and the trigger exist
  | fire (traceId : TraceId) (pipelineId : String) (found : Bool)
  | handleEvent (traceId : TraceId) (result : Except String Unit)
  | recordFailure (traceId : TraceId)
  | executeTrace (traceId : TraceId) (outcome : ExecOutcome)
  -- `POST /resume/{hook_id}` takes the suspension away, and executes the trace again or fails before that
  | resumeSuspended (traceId : TraceId) (executes : Bool)
  -- `none`: the path holds no UUID
  | suspend (traceId : Option TraceId)
  | resume (traceId : Option TraceId)
  | cancel (traceId : Option TraceId)

namespace TraceWorld

def new (capacity : ℕ) : TraceWorld := ⟨.new capacity, fun _ => .unused⟩

def setStage (w : TraceWorld) (traceId : TraceId) (stage : TraceStage) : TraceWorld :=
  { w with stage := Function.update w.stage traceId stage }

def pushNew (w : TraceWorld) (traceId : TraceId) (pipelineId : String) (stage : TraceStage) : TraceWorld :=
  ⟨w.history.push (.new traceId pipelineId), Function.update w.stage traceId stage⟩

theorem setStage_stage (w : TraceWorld) (traceId : TraceId) (stage : TraceStage) :
    (w.setStage traceId stage).stage = Function.update w.stage traceId stage := rfl

theorem pushNew_stage (w : TraceWorld) (traceId : TraceId) (pipelineId : String) (stage : TraceStage) :
    (w.pushNew traceId pipelineId stage).stage = Function.update w.stage traceId stage := rfl

/-- `TraceId::new()` gives an id that was not given before; no other step begins with a `TraceId`. -/
def create (w : TraceWorld) (traceId : TraceId) (pipelineId : String) : TraceWorld :=
  if w.stage traceId = .unused then w.pushNew traceId pipelineId .created else w

def fire (w : TraceWorld) (traceId : TraceId) (pipelineId : String) (found : Bool) : TraceWorld :=
  if found = true ∧ w.stage traceId = .unused then w.pushNew traceId pipelineId .handling else w

/-- The execution is started before `handle_event` answers. -/
def handleEvent (w : TraceWorld) (traceId : TraceId) (result : Except String Unit) : TraceWorld :=
  if w.stage traceId = .handling then
    match result with
    | .ok _ => w.setStage traceId .executing
    | .error e => w.setStage traceId (.refused e)
  else w

def recordFailure (w : TraceWorld) (traceId : TraceId) : TraceWorld :=
  match w.stage traceId with
  | .refused e => { w with history := w.history.update traceId (·.fail e) }.setStage traceId .notStarted
  | _ => w

/-- The outcome goes to the metrics and the log of the pipeline, not to the history. -/
def executeTrace (w : TraceWorld) (traceId : TraceId) (outcome : ExecOutcome) : TraceWorld :=
  if w.stage traceId = .executing then
    match outcome with
    | .ok => w.setStage traceId (.returned true)
    | .err => w.setStage traceId (.returned false)
    | .suspended => w.setStage traceId .suspended
  else w

def resumeSuspended (w : TraceWorld) (traceId : TraceId) (executes : Bool) : TraceWorld :=
  if w.stage traceId = .suspended then
    w.setStage traceId (if executes then .executing else .returned true)
  else w

def updateTraceStatus (w : TraceWorld) (traceId : Option TraceId) (status : TraceStatus) : TraceWorld :=
  match traceId with
  | none => w
  | some traceId => { w with history := w.history.update traceId fun r => { r with status := status } }

def suspend (w : TraceWorld) (traceId : Option TraceId) : TraceWorld := w.updateTraceStatus traceId .suspended

def resume (w : TraceWorld) (traceId : Option TraceId) : TraceWorld := w.updateTraceStatus traceId .running

def cancel (w : TraceWorld) (traceId : Option TraceId) : TraceWorld := w.updateTraceStatus traceId .canceled

def next (w : TraceWorld) : TraceStep → TraceWorld
  | .create traceId pipelineId => w.create traceId pipelineId
  | .fire traceId pipelineId found => w.fire traceId pipelineId found
  | .handleEvent traceId result => w.handleEvent traceId result
  | .recordFailure traceId => w.recordFailure traceId
  | .executeTrace traceId outcome => w.executeTrace traceId outcome
  | .resumeSuspended traceId executes => w.resumeSuspended traceId executes
  | .suspend traceId => w.suspend traceId
  | .resume traceId => w.resume traceId
  | .cancel traceId => w.cancel traceId

/-! ### What the records say -/

/-- A record kept for a trace whose execution is over says how it ended, or that the trace was canceled. -/
def Truthful (w : TraceWorld) : Prop :=
  ∀ traceId ok, w.stage traceId = .returned ok → ∀ record, w.history.get traceId = some record →
    (ok = true ∧ record.status = .completed) ∨ (ok = false ∧ record.status = .failed) ∨
      record.status = .canceled

/-- The step leaves the status of every settled record. -/
def KeepsSettled (w : TraceWorld) (step : TraceStep) : Prop :=
  ∀ traceId record, w.history.get traceId = some record → record.status.settled = true →
    ∀ record', (w.next step).history.get traceId = some record' → record'.status = record.status

def overwrites (w : TraceWorld) (traceId : TraceId) (status : TraceStatus) : Bool :=
  (w.history.get traceId).any fun r => r.status.settled && decide (r.status ≠ status)

def unreported (w : TraceWorld) (traceId : TraceId) : Bool :=
  (w.history.get traceId).any fun r => decide (r.status ≠ .canceled)

/-- An execution that ends with its record not canceled, or a status written over a settled one. -/
def falsifies (w : TraceWorld) : TraceStep → Bool
  | .create .. | .fire .. | .handleEvent .. => false
  | .recordFailure traceId =>
    match w.stage traceId with
    | .refused _ => w.overwrites traceId .failed
    | _ => false
  | .executeTrace traceId outcome =>
    decide (w.stage traceId = .executing) && decide (outcome ≠ .suspended) && w.unreported traceId
  | .resumeSuspended traceId executes =>
    decide (w.stage traceId = .suspended) && !executes && w.unreported traceId
  | .suspend traceId => traceId.any fun id => w.overwrites id .suspended
  | .resume traceId => traceId.any fun id => w.overwrites id .running
  | .cancel traceId => traceId.any fun id => w.overwrites id .canceled

/-- What holds along a run without a step that falsifies. No step writes `Completed`, and `Failed` is
written only where nothing was executed. -/
structure Tracked (w : TraceWorld) : Prop where
  distinct : (w.history.records.map (·.traceId)).Nodup
  used : ∀ r ∈ w.history.records, w.stage r.traceId ≠ .unused
  neverCompleted : ∀ r ∈ w.history.records, r.status ≠ .completed
  failed : ∀ r ∈ w.history.records, r.status = .failed → w.stage r.traceId = .notStarted
  returned : ∀ r ∈ w.history.records, ∀ ok, w.stage r.traceId = .returned ok → r.status = .canceled

theorem overwrites_false {w : TraceWorld} {traceId : TraceId} {status : TraceStatus} {record : TraceRecord}
    (hover : w.overwrites traceId status = false) (hrecord : w.history.get traceId = some record)
    (hsettled : record.status.settled = true) : status = record.status := by
  rw [overwrites, hrecord, Option.any_some, hsettled, Bool.true_and, decide_eq_false_iff_not,
    not_not] at hover
  exact hover.symm

theorem Tracked.get_of_mem {w : TraceWorld} (h : w.Tracked) {r : TraceRecord}
    (hr : r ∈ w.history.records) : w.history.get r.traceId = some r := by
  cases hget : w.history.get r.traceId with
  | none => exact absurd (List.find?_eq_none.mp hget r hr) (by simp)
  | some found =>
    obtain ⟨hmem, hid⟩ := TraceHistory.get_mem hget
    rw [List.inj_on_of_nodup_map h.distinct hmem hr hid]

theorem tracked_truthful (w : TraceWorld) (h : w.Tracked) : w.Truthful := by
  intro traceId ok hstage record hrecord
  obtain ⟨hmem, rfl⟩ := TraceHistory.get_mem hrecord
  exact Or.inr (Or.inr (h.returned record hmem ok hstage))

theorem tracked_new (capacity : ℕ) : (TraceWorld.new capacity).Tracked := by
  constructor <;> simp [TraceWorld.new, TraceHistory.new]

/-! ### Step by step -/

variable {w : TraceWorld} (h : w.Tracked) {traceId : TraceId}
include h

theorem tracked_setStage {stage : TraceStage} (hfrom : w.stage traceId ≠ .notStarted)
    (hstage : stage ≠ .unused) (hreturned : ∀ ok, stage = .returned ok → w.unreported traceId = false) :
    (w.setStage traceId stage).Tracked := by
  have hother {id : TraceId} (hid : id ≠ traceId) : (w.setStage traceId stage).stage id = w.stage id := by
    rw [setStage_stage, Function.update_of_ne hid]
  have hself : (w.setStage traceId stage).stage traceId = stage := by
    rw [setStage_stage, Function.update_self]
  constructor
  · exact h.distinct
  · intro r hr
    by_cases hid : r.traceId = traceId
    · rw [hid, hself]
      exact hstage
    · rw [hother hid]
      exact h.used r hr
  · exact h.neverCompleted
  · intro r hr hfailed
    have hold := h.failed r hr hfailed
    have hid : r.traceId ≠ traceId := fun hid => hfrom (hid ▸ hold)
    rw [hother hid]
    exact hold
  · intro r hr ok hok
    by_cases hid : r.traceId = traceId
    · rw [hid, hself] at hok
      have hunreported := hreturned ok hok
      rw [unreported, ← hid, h.get_of_mem hr] at hunreported
      simpa using hunreported
    · rw [hother hid] at hok
      exact h.returned r hr ok hok

theorem tracked_pushNew (hunused : w.stage traceId = .unused) (pipelineId : String) {stage : TraceStage}
    (hstage : stage ≠ .unused) (hreturned : ∀ ok, stage ≠ .returned ok) :
    (w.pushNew traceId pipelineId stage).Tracked := by
  have hother {id : TraceId} (hid : id ≠ traceId) :
      (w.pushNew traceId pipelineId stage).stage id = w.stage id := by
    rw [pushNew_stage, Function.update_of_ne hid]
  have hself : (w.pushNew traceId pipelineId stage).stage traceId = stage := by
    rw [pushNew_stage, Function.update_self]
  have hkept := w.history.kept_sublist
  have hne {r : TraceRecord} (hr : r ∈ w.history.records) : r.traceId ≠ traceId := by
    intro hid
    exact h.used r hr (hid ▸ hunused)
  have hcases {r : TraceRecord} (hr : r ∈ (w.pushNew traceId pipelineId stage).history.records) :
      r ∈ w.history.records ∨ r = .new traceId pipelineId := by
    rcases List.mem_append.mp hr with hold | hnew
    · exact Or.inl (hkept.subset hold)
    · exact Or.inr (List.mem_singleton.mp hnew)
  constructor
  · unfold pushNew TraceHistory.push
    dsimp only
    rw [List.map_append, List.nodup_append]
    refine ⟨(hkept.map _).nodup h.distinct, List.nodup_singleton _, ?_⟩
    intro id hid id' hid' heq
    obtain ⟨r, hr, rfl⟩ := List.mem_map.mp hid
    rw [List.map_singleton, List.mem_singleton] at hid'
    exact hne (hkept.subset hr) (heq.trans hid')
  · intro r hr
    rcases hcases hr with hold | rfl
    · rw [hother (hne hold)]
      exact h.used r hold
    · exact fun hstage' => hstage (hself.symm.trans hstage')
  · intro r hr
    rcases hcases hr with hold | rfl
    · exact h.neverCompleted r hold
    · intro hstatus
      cases hstatus
  · intro r hr hfailed
    rcases hcases hr with hold | rfl
    · rw [hother (hne hold)]
      exact h.failed r hold hfailed
    · cases hfailed
  · intro r hr ok hok
    rcases hcases hr with hold | rfl
    · rw [hother (hne hold)] at hok
      exact h.returned r hold ok hok
    · exact absurd (hself.symm.trans hok) (hreturned ok)

theorem mem_update {f : TraceRecord → TraceRecord} {r : TraceRecord}
    (hr : r ∈ (w.history.update traceId f).records) :
    ∃ r₀ ∈ w.history.records, r = if r₀.traceId = traceId then f r₀ else r₀ := by
  unfold TraceHistory.update at hr
  dsimp only at hr
  rw [TraceHistory.updateFirst_eq_map h.distinct] at hr
  obtain ⟨r₀, hr₀, rfl⟩ := List.mem_map.mp hr
  exact ⟨r₀, hr₀, rfl⟩

theorem distinct_update {f : TraceRecord → TraceRecord} (hf : ∀ r, (f r).traceId = r.traceId) :
    ((w.history.update traceId f).records.map (·.traceId)).Nodup := by
  unfold TraceHistory.update
  dsimp only
  rw [TraceHistory.updateFirst_eq_map h.distinct, List.map_map]
  convert h.distinct using 1
  refine List.map_congr_left fun r _ => ?_
  rw [Function.comp_apply]
  split
  · exact hf r
  · rfl

theorem tracked_updateStatus {status : TraceStatus} (hcompleted : status ≠ .completed)
    (hfailed : status ≠ .failed) (hover : w.overwrites traceId status = false) :
    (w.updateTraceStatus (some traceId) status).Tracked := by
  constructor
  · exact distinct_update h fun _ => rfl
  · intro r hr
    obtain ⟨r₀, hr₀, rfl⟩ := mem_update h hr
    have hid :
        (if r₀.traceId = traceId then { r₀ with status := status } else r₀).traceId = r₀.traceId := by
      split
      · rfl
      · rfl
    rw [hid]
    exact h.used r₀ hr₀
  · intro r hr
    obtain ⟨r₀, hr₀, rfl⟩ := mem_update h hr
    split
    · exact hcompleted
    · exact h.neverCompleted r₀ hr₀
  · intro r hr hstatus
    obtain ⟨r₀, hr₀, rfl⟩ := mem_update h hr
    by_cases hid : r₀.traceId = traceId
    · rw [if_pos hid] at hstatus
      exact absurd hstatus hfailed
    · rw [if_neg hid] at hstatus ⊢
      exact h.failed r₀ hr₀ hstatus
  · intro r hr ok hok
    obtain ⟨r₀, hr₀, rfl⟩ := mem_update h hr
    by_cases hid : r₀.traceId = traceId
    · rw [if_pos hid] at hok ⊢
      have hcanceled := h.returned r₀ hr₀ ok hok
      -- a canceled record is settled, so a status is written over it only if it is the same
      have hsettled : r₀.status.settled = true := by
        rw [hcanceled]
        rfl
      exact (overwrites_false hover (hid ▸ h.get_of_mem hr₀) hsettled).trans hcanceled
    · rw [if_neg hid] at hok ⊢
      exact h.returned r₀ hr₀ ok hok

theorem tracked_recordFailure {e : String} (hstage : w.stage traceId = .refused e) :
    (w.recordFailure traceId).Tracked := by
  unfold recordFailure
  rw [hstage]
  dsimp only
  have hstageAt (id : TraceId) :
      (setStage { w with history := w.history.update traceId (·.fail e) } traceId .notStarted).stage id =
        if id = traceId then .notStarted else w.stage id := by
    rw [setStage_stage, Function.update_apply]
  constructor
  · exact distinct_update h fun _ => rfl
  · intro r hr
    obtain ⟨r₀, hr₀, rfl⟩ := mem_update h hr
    rw [hstageAt]
    by_cases hid : r₀.traceId = traceId
    · rw [if_pos hid, TraceRecord.fail_traceId, if_pos hid]
      intro hunused
      cases hunused
    · rw [if_neg hid, if_neg hid]
      exact h.used r₀ hr₀
  · intro r hr
    obtain ⟨r₀, hr₀, rfl⟩ := mem_update h hr
    split
    · intro hstatus
      cases hstatus
    · exact h.neverCompleted r₀ hr₀
  · intro r hr hstatus
    obtain ⟨r₀, hr₀, rfl⟩ := mem_update h hr
    rw [hstageAt]
    by_cases hid : r₀.traceId = traceId
    · rw [if_pos hid, TraceRecord.fail_traceId, if_pos hid]
    · rw [if_neg hid] at hstatus ⊢
      rw [if_neg hid]
      exact h.failed r₀ hr₀ hstatus
  · intro r hr ok hok
    obtain ⟨r₀, hr₀, rfl⟩ := mem_update h hr
    rw [hstageAt] at hok
    by_cases hid : r₀.traceId = traceId
    · rw [if_pos hid, TraceRecord.fail_traceId, if_pos hid] at hok
      cases hok
    · rw [if_neg hid] at hok ⊢
      rw [if_neg hid] at hok
      exact h.returned r₀ hr₀ ok hok

theorem keeps_pushNew {step : TraceStep} {pipelineId : String} {stage : TraceStage}
    (hunused : w.stage traceId = .unused) (hnext : w.next step = w.pushNew traceId pipelineId stage) :
    w.KeepsSettled step := by
  intro id record hrecord _ record' hrecord'
  obtain ⟨hmem, rfl⟩ := TraceHistory.get_mem hrecord
  rw [hnext] at hrecord'
  obtain ⟨hmem', hid⟩ := TraceHistory.get_mem hrecord'
  rcases List.mem_append.mp hmem' with hold | hnew
  · rw [List.inj_on_of_nodup_map h.distinct (w.history.kept_sublist.subset hold) hmem hid]
  · rw [List.mem_singleton.mp hnew] at hid
    exact absurd (hid ▸ hunused) (h.used record hmem)

omit h

theorem keeps_of_history {step : TraceStep} (hhistory : (w.next step).history = w.history) :
    w.KeepsSettled step := by
  intro id record hrecord _ record' hrecord'
  rw [hhistory, hrecord] at hrecord'
  cases hrecord'
  rfl

theorem keeps_update_iff {step : TraceStep} {f : TraceRecord → TraceRecord} {status : TraceStatus}
    (hf : ∀ r, (f r).traceId = r.traceId) (hstatus : ∀ r, (f r).status = status)
    (hhistory : (w.next step).history = w.history.update traceId f) :
    w.KeepsSettled step ↔ w.overwrites traceId status = false := by
  have hget (id : TraceId) := w.history.get_update traceId hf id
  constructor
  · intro hkeeps
    unfold overwrites
    cases hrecord : w.history.get traceId with
    | none => rfl
    | some record =>
      rw [Option.any_some, Bool.and_eq_false_iff]
      by_cases hsettled : record.status.settled = true
      · have hafter : (w.next step).history.get traceId = some (f record) := by
          rw [hhistory, hget, if_pos rfl, hrecord, Option.map_some]
        have hsame := hkeeps traceId record hrecord hsettled (f record) hafter
        rw [hstatus] at hsame
        exact Or.inr (by simp [hsame])
      · exact Or.inl (by simpa using hsettled)
  · intro hover id record hrecord hsettled record' hrecord'
    rw [hhistory, hget] at hrecord'
    by_cases hid : id = traceId
    · subst hid
      rw [if_pos rfl, hrecord, Option.map_some] at hrecord'
      cases hrecord'
      rw [hstatus]
      exact overwrites_false hover hrecord hsettled
    · rw [if_neg hid, hrecord] at hrecord'
      cases hrecord'
      rfl

/-- Whether the step falsifies decides whether what holds along a run goes on to hold. -/
def Judged (w : TraceWorld) (step : TraceStep) : Prop :=
  (w.falsifies step = false → (w.next step).Tracked ∧ w.KeepsSettled step) ∧
    (w.falsifies step = true → ¬ ((w.next step).Truthful ∧ w.KeepsSettled step))

theorem not_truthful (h : w.Tracked) (hfrom : w.stage traceId ≠ .notStarted) (ok : Bool)
    (hunreported : w.unreported traceId = true) : ¬ (w.setStage traceId (.returned ok)).Truthful := by
  intro htruthful
  obtain ⟨record, hrecord, hstatus⟩ := (Option.any_eq_true _ _).mp hunreported
  have hstage : (w.setStage traceId (.returned ok)).stage traceId = .returned ok := by
    rw [setStage_stage, Function.update_self]
  obtain ⟨hmem, hid⟩ := TraceHistory.get_mem hrecord
  rcases htruthful traceId ok hstage record hrecord with ⟨-, hcompleted⟩ | ⟨-, hfailed⟩ | hcanceled
  · exact h.neverCompleted record hmem hcompleted
  · exact hfrom (hid ▸ h.failed record hmem hfailed)
  · exact absurd hcanceled (by simpa using hstatus)

theorem ended_step (h : w.Tracked) {step : TraceStep} (stage : TraceStage) (ends ok : Bool)
    (hfrom : w.stage traceId ≠ .notStarted) (hstage : stage ≠ .unused)
    (hends : if ends then stage = .returned ok else ∀ ok, stage ≠ .returned ok)
    (hnext : w.next step = w.setStage traceId stage)
    (hfalsifies : w.falsifies step = (ends && w.unreported traceId)) : w.Judged step := by
  unfold Judged
  rw [hfalsifies]
  cases ends with
  | false =>
    refine ⟨fun _ => ⟨?_, keeps_of_history ?_⟩, fun hp => by cases hp⟩
    · rw [hnext]
      exact tracked_setStage h hfrom hstage fun ok hok => absurd hok (hends ok)
    · rw [hnext]
      rfl
  | true =>
    rw [Bool.true_and]
    refine ⟨fun hp => ⟨?_, keeps_of_history ?_⟩, fun hp hboth => ?_⟩
    · rw [hnext]
      exact tracked_setStage h hfrom hstage fun _ _ => hp
    · rw [hnext]
      rfl
    · rw [hnext, show stage = .returned ok from hends] at hboth
      exact not_truthful h hfrom ok hp hboth.1

theorem quiet_step (h : w.Tracked) {step : TraceStep} (hnext : w.next step = w)
    (hfalsifies : w.falsifies step = false) : w.Judged step := by
  refine ⟨fun _ => ⟨?_, keeps_of_history ?_⟩, fun hp => ?_⟩
  · rw [hnext]
    exact h
  · rw [hnext]
  · rw [hfalsifies] at hp
    cases hp

theorem request_step (h : w.Tracked) {step : TraceStep} (request : Option TraceId) {status : TraceStatus}
    (hcompleted : status ≠ .completed) (hfailed : status ≠ .failed)
    (hnext : w.next step = w.updateTraceStatus request status)
    (hfalsifies : w.falsifies step = request.any fun id => w.overwrites id status) : w.Judged step := by
  cases request with
  | none => exact quiet_step h hnext hfalsifies
  | some traceId =>
    unfold Judged
    rw [hfalsifies, Option.any_some]
    have hkeeps : w.KeepsSettled step ↔ w.overwrites traceId status = false :=
      keeps_update_iff (f := fun r => { r with status := status }) (fun _ => rfl) (fun _ => rfl)
        (congrArg TraceWorld.history hnext)
    refine ⟨fun hp => ⟨?_, hkeeps.mpr hp⟩, fun hp hboth => ?_⟩
    · rw [hnext]
      exact tracked_updateStatus h hcompleted hfailed hp
    · rw [hkeeps.mp hboth.2] at hp
      cases hp

theorem push_step (h : w.Tracked) {step : TraceStep} (hunused : w.stage traceId = .unused)
    (pipelineId : String) {stage : TraceStage} (hstage : stage ≠ .unused)
    (hreturned : ∀ ok, stage ≠ .returned ok) (hnext : w.next step = w.pushNew traceId pipelineId stage)
    (hfalsifies : w.falsifies step = false) : w.Judged step := by
  refine ⟨fun _ => ⟨?_, keeps_pushNew h hunused hnext⟩, fun hp => ?_⟩
  · rw [hnext]
    exact tracked_pushNew h hunused pipelineId hstage hreturned
  · rw [hfalsifies] at hp
    cases hp

theorem executeTrace_judged (h : w.Tracked) (outcome : ExecOutcome) :
    w.Judged (.executeTrace traceId outcome) := by
  by_cases hstage : w.stage traceId = .executing
  · have hfrom : w.stage traceId ≠ .notStarted := by
      rw [hstage]
      simp
    cases outcome with
    | ok =>
      refine ended_step h (.returned true) true true hfrom (by simp) rfl ?_ ?_
      · exact if_pos hstage
      · unfold falsifies
        simp [hstage]
    | err =>
      refine ended_step h (.returned false) true false hfrom (by simp) rfl ?_ ?_
      · exact if_pos hstage
      · unfold falsifies
        simp [hstage]
    | suspended =>
      refine ended_step h .suspended false true hfrom (by simp) (by simp) ?_ ?_
      · exact if_pos hstage
      · unfold falsifies
        simp
  · refine quiet_step h (if_neg hstage) ?_
    unfold falsifies
    simp [hstage]

theorem resumeSuspended_judged (h : w.Tracked) (executes : Bool) :
    w.Judged (.resumeSuspended traceId executes) := by
  by_cases hstage : w.stage traceId = .suspended
  · have hfrom : w.stage traceId ≠ .notStarted := by
      rw [hstage]
      simp
    cases executes with
    | true =>
      refine ended_step h .executing false true hfrom (by simp) (by simp) ?_ ?_
      · exact if_pos hstage
      · unfold falsifies
        simp
    | false =>
      refine ended_step h (.returned true) true true hfrom (by simp) rfl ?_ ?_
      · exact if_pos hstage
      · unfold falsifies
        simp [hstage]
  · refine quiet_step h (if_neg hstage) ?_
    unfold falsifies
    simp [hstage]

theorem recordFailure_judged (h : w.Tracked) : w.Judged (.recordFailure traceId) := by
  cases hstage : w.stage traceId with
  | refused e =>
    have hfalsifies : w.falsifies (.recordFailure traceId) = w.overwrites traceId .failed := by
      unfold falsifies
      simp [hstage]
    have hhistory : (w.next (.recordFailure traceId)).history =
        w.history.update traceId fun r => r.fail e := by
      simp [next, recordFailure, hstage, setStage]
    have hkeeps : w.KeepsSettled (.recordFailure traceId) ↔ w.overwrites traceId .failed = false :=
      keeps_update_iff (f := fun r => r.fail e) (fun _ => rfl) (fun _ => rfl) hhistory
    unfold Judged
    rw [hfalsifies]
    refine ⟨fun hp => ⟨tracked_recordFailure h hstage, hkeeps.mpr hp⟩, fun hp hboth => ?_⟩
    rw [hkeeps.mp hboth.2] at hp
    cases hp
  | _ =>
    refine quiet_step h ?_ ?_
    · simp [next, recordFailure, hstage]
    · unfold falsifies
      simp [hstage]

theorem next_judged (h : w.Tracked) (step : TraceStep) : w.Judged step := by
  cases step with
  | create traceId pipelineId =>
    by_cases hunused : w.stage traceId = .unused
    · exact push_step h hunused pipelineId (by simp) (by simp) (if_pos hunused) rfl
    · exact quiet_step h (if_neg hunused) rfl
  | fire traceId pipelineId found =>
    by_cases hfire : found = true ∧ w.stage traceId = .unused
    · exact push_step h hfire.2 pipelineId (by simp) (by simp) (if_pos hfire) rfl
    · exact quiet_step h (if_neg hfire) rfl
  | handleEvent traceId result =>
    by_cases hstage : w.stage traceId = .handling
    · have hfrom : w.stage traceId ≠ .notStarted := by
        rw [hstage]
        simp
      cases result with
      | ok _ =>
        exact ended_step h .executing false true hfrom (by simp) (by simp)
          (if_pos hstage) rfl
      | error e =>
        exact ended_step h (.refused e) false true hfrom (by simp) (by simp)
          (if_pos hstage) rfl
    · exact quiet_step h (if_neg hstage) rfl
  | recordFailure traceId => exact recordFailure_judged h
  | executeTrace traceId outcome => exact executeTrace_judged h outcome
  | resumeSuspended traceId executes => exact resumeSuspended_judged h executes
  | suspend request => exact request_step h request (by simp) (by simp) rfl rfl
  | resume request => exact request_step h request (by simp) (by simp) rfl rfl
  | cancel request => exact request_step h request (by simp) (by simp) rfl rfl

/-- Whatever is requested, in whatever order the steps of the requests and of the executions come: the
records kept tell the truth in every state reached and no step changes a settled status, if and only if no
step of the run falsifies. -/
theorem trace_status_truthful_iff (capacity : ℕ) (steps : List TraceStep) :
    ((∀ before, before <+: steps → (before.foldl next (new capacity)).Truthful) ∧
        ∀ before step, before ++ [step] <+: steps →
          (before.foldl next (new capacity)).KeepsSettled step) ↔
      ∀ before step, before ++ [step] <+: steps →
        (before.foldl next (new capacity)).falsifies step = false :=
  Machine.foldl_guarded_steps_iff next falsifies Tracked Truthful KeepsSettled tracked_truthful
    (fun _ step h => (next_judged h step).1) (fun _ step h => (next_judged h step).2) steps
    (tracked_new capacity)

end TraceWorld

/-! ### One trace that completes, and one that is canceled and resumed -/

def firedTrace : List TraceStep :=
  [.fire sampleTrace "p@v1" true, .handleEvent sampleTrace (.ok ())]

/-- `MAX_TRACE_HISTORY` is 1000. -/
theorem completed_stays_running :
    ¬ ((firedTrace ++ [TraceStep.executeTrace sampleTrace .ok]).foldl TraceWorld.next
        (.new 1000)).Truthful ∧
      ¬ ((firedTrace ++ [TraceStep.cancel (some sampleTrace)]).foldl TraceWorld.next
        (.new 1000)).KeepsSettled (.resume (some sampleTrace)) := by
  constructor
  · intro h
    have hrecord := h sampleTrace true (by decide) (.new sampleTrace "p@v1") (by decide)
    exact absurd hrecord (by decide)
  · intro h
    have hstatus := h sampleTrace { TraceRecord.new sampleTrace "p@v1" with status := .canceled } (by decide)
      rfl (.new sampleTrace "p@v1") (by decide)
    cases hstatus

end Xerv.Api
