import Xerv.Dispatch.Memory

/-!
# Raft dispatch (`xerv-core/src/dispatch/raft.rs`)

`RaftDispatch` keeps the pending requests in a queue and those handed to a worker in a map. With a
cluster provider attached, a new trace, its completion and its permanent failure also go through
the provider, whose answers are read anew in every call.
-/

namespace Xerv.Dispatch
open Xerv.Lib

/-- What the attached cluster answers while a call runs. -/
structure RaftClusterProvider where
  startTrace : TraceId → Except String Unit
  completeTrace : TraceId → Except String Unit
  failTrace : TraceId → String → Except String Unit

/-- The backend, with the provider that `with_cluster` or `set_cluster` has attached. -/
structure RaftDispatch where
  cluster : Option RaftClusterProvider
  pending : List TraceRequest
  inFlight : FiniteMap TraceId TraceRequest
  shuttingDown : Bool

namespace RaftDispatch

def new : RaftDispatch := ⟨none, [], ∅, false⟩

def setCluster (d : RaftDispatch) (provider : RaftClusterProvider) : RaftDispatch :=
  { d with cluster := some provider }

def raftError (e : String) : DispatchError := .backendError ("Raft error: " ++ e)

/-- `self.cluster.as_ref().ok_or_else(..)?` before each of the three provider calls. -/
def viaRaft (d : RaftDispatch) (ask : RaftClusterProvider → Except String Unit) :
    Except DispatchError Unit :=
  match d.cluster with
  | none => .error (.connectionFailed "Raft cluster not connected")
  | some provider => (ask provider).mapError raftError

def enqueueViaRaft (d : RaftDispatch) (r : TraceRequest) : Except DispatchError Unit :=
  d.viaRaft fun provider => provider.startTrace r.traceId

def ackViaRaft (d : RaftDispatch) (traceId : TraceId) : Except DispatchError Unit :=
  d.viaRaft fun provider => provider.completeTrace traceId

def nackViaRaft (d : RaftDispatch) (traceId : TraceId) (error : String) : Except DispatchError Unit :=
  d.viaRaft fun provider => provider.failTrace traceId error

def enqueue (d : RaftDispatch) (r : TraceRequest) : Except DispatchError TraceId × RaftDispatch :=
  if d.shuttingDown then (.error .shuttingDown, d)
  else if d.cluster.isSome then
    match d.enqueueViaRaft r with
    | .error e => (.error e, d)
    | .ok _ => (.ok r.traceId, { d with pending := d.pending ++ [r] })
  else (.ok r.traceId, { d with pending := d.pending ++ [r] })

def dequeue (d : RaftDispatch) : Except DispatchError (Option TraceRequest) × RaftDispatch :=
  if d.shuttingDown then (.ok none, d)
  else
    match d.pending with
    | [] => (.ok none, d)
    | r :: pending =>
      let r := r.incrementAttempt
      (.ok (some r), { d with pending, inFlight := d.inFlight.insert r.traceId r })

/-- `self.in_flight.lock().remove(&trace_id)`. -/
def released (d : RaftDispatch) (traceId : TraceId) : RaftDispatch :=
  { d with inFlight := d.inFlight.remove traceId }

/-- `if self.cluster.is_some() { ..await?; }` and then `Ok(())`. -/
def recorded (d : RaftDispatch) (viaRaft : Except DispatchError Unit) :
    Except DispatchError Unit × RaftDispatch :=
  if d.cluster.isSome then (viaRaft, d) else (.ok (), d)

def ack (d : RaftDispatch) (traceId : TraceId) : Except DispatchError Unit × RaftDispatch :=
  let d := d.released traceId
  d.recorded (d.ackViaRaft traceId)

def nack (d : RaftDispatch) (traceId : TraceId) (error : String) (retry : Bool) :
    Except DispatchError Unit × RaftDispatch :=
  let maybeRequest := d.inFlight.get traceId
  let d := d.released traceId
  match maybeRequest with
  | none => (.ok (), d)
  | some r =>
    if retry && !r.isExhausted then (.ok (), { d with pending := d.pending ++ [r] })
    else d.recorded (d.nackViaRaft traceId error)

def shutdown (d : RaftDispatch) : RaftDispatch := { d with shuttingDown := true }

/-! ### Calls that return an error -/

inductive Call where
  | enqueue (r : TraceRequest)
  | ack (traceId : TraceId)
  | nack (traceId : TraceId) (error : String) (retry : Bool)

def perform (d : RaftDispatch) : Call → Except DispatchError Unit × RaftDispatch
  | .enqueue r => ((d.enqueue r).1.map fun _ => (), (d.enqueue r).2)
  | .ack traceId => d.ack traceId
  | .nack traceId error retry => d.nack traceId error retry

/-- Where the call returns an error, the pending queue and the in-flight map are as before. -/
def FailsAtomically (d : RaftDispatch) (call : Call) : Prop :=
  ∀ e, (d.perform call).1 = .error e →
    (d.perform call).2.pending = d.pending ∧ (d.perform call).2.inFlight = d.inFlight

def refused (d : RaftDispatch) (ask : RaftClusterProvider → Except String Unit) : Bool :=
  d.cluster.any fun provider => !(ask provider).isOk

/-- The call takes a trace out of the in-flight map whose end the cluster then refuses to record. -/
def forgets (d : RaftDispatch) : Call → Bool
  | .enqueue _ => false
  | .ack traceId => d.inFlight.contains traceId && d.refused fun p => p.completeTrace traceId
  | .nack traceId error retry =>
    (d.inFlight.get traceId).any (fun r => !(retry && !r.isExhausted)) &&
      d.refused fun p => p.failTrace traceId error

variable {d : RaftDispatch}

theorem recorded_cases (ask : RaftClusterProvider → Except String Unit) :
    (d.refused ask = true ∧ ∃ e, d.recorded (d.viaRaft ask) = (.error e, d)) ∨
      (d.refused ask = false ∧ d.recorded (d.viaRaft ask) = (.ok (), d)) := by
  unfold recorded refused viaRaft
  cases d.cluster with
  | none => exact .inr ⟨rfl, rfl⟩
  | some provider =>
    dsimp only [Option.isSome]
    rw [Option.any_some, if_pos rfl]
    cases ask provider with
    | error e => exact .inl ⟨rfl, _, rfl⟩
    | ok u => exact .inr ⟨rfl, rfl⟩

theorem enqueue_failsAtomically (r : TraceRequest) : d.FailsAtomically (.enqueue r) := by
  intro e he
  unfold perform enqueue at *
  dsimp only at *
  split_ifs at * with hdown hcluster
  · exact ⟨rfl, rfl⟩
  · split at he
    · exact ⟨rfl, rfl⟩
    · cases he
  · cases he

/-- What a nack does with the request, by what it finds in flight and what the cluster says. -/
inductive Nacked (d : RaftDispatch) (traceId : TraceId) (error : String) (retry : Bool) :
    Except DispatchError Unit × RaftDispatch → Prop
  | unknown (hget : d.inFlight.get traceId = none) : Nacked d traceId error retry (.ok (), d)
  | retried (r : TraceRequest) (hget : d.inFlight.get traceId = some r)
      (hretry : (retry && !r.isExhausted) = true) :
      Nacked d traceId error retry
        (.ok (), { d.released traceId with pending := d.pending ++ [r] })
  | failed (r : TraceRequest) (hget : d.inFlight.get traceId = some r)
      (hretry : (retry && !r.isExhausted) = false)
      (hrefused : d.refused (fun p => p.failTrace traceId error) = false) :
      Nacked d traceId error retry (.ok (), d.released traceId)
  | unrecorded (r : TraceRequest) (hget : d.inFlight.get traceId = some r)
      (hretry : (retry && !r.isExhausted) = false)
      (hrefused : d.refused (fun p => p.failTrace traceId error) = true) (e : DispatchError) :
      Nacked d traceId error retry (.error e, d.released traceId)

theorem nack_cases (traceId : TraceId) (error : String) (retry : Bool) :
    Nacked d traceId error retry (d.nack traceId error retry) := by
  unfold nack
  dsimp only
  split
  · rename_i hget
    rw [released, FiniteMap.remove_of_get_none _ hget]
    exact .unknown hget
  · rename_i r hget
    split
    · rename_i hretry
      exact .retried r hget hretry
    · rename_i hretry
      rw [Bool.not_eq_true] at hretry
      unfold nackViaRaft
      rcases (d.released traceId).recorded_cases fun p => p.failTrace traceId error with
        ⟨hrefused, e, he⟩ | ⟨hrefused, hok⟩
      · rw [he]
        exact .unrecorded r hget hretry hrefused e
      · rw [hok]
        exact .failed r hget hretry hrefused

theorem ack_failsAtomically_iff (traceId : TraceId) :
    d.FailsAtomically (.ack traceId) ↔ d.forgets (.ack traceId) = false := by
  unfold FailsAtomically perform forgets ack ackViaRaft
  dsimp only
  rcases (d.released traceId).recorded_cases fun p => p.completeTrace traceId with
    ⟨hrefused, e, he⟩ | ⟨hrefused, hok⟩
  · change d.refused _ = true at hrefused
    rw [he, hrefused, Bool.and_true]
    constructor
    · intro hatomic
      by_contra hheld
      rw [Bool.not_eq_false] at hheld
      exact FiniteMap.remove_ne_self _ hheld (hatomic e rfl).2
    · intro habsent e' _
      rw [FiniteMap.contains_eq_false] at habsent
      exact ⟨rfl, FiniteMap.remove_of_get_none _ habsent⟩
  · change d.refused _ = false at hrefused
    rw [hok, hrefused, Bool.and_false]
    exact iff_of_true (fun e he => by cases he) rfl

theorem nack_failsAtomically_iff (traceId : TraceId) (error : String) (retry : Bool) :
    d.FailsAtomically (.nack traceId error retry) ↔ d.forgets (.nack traceId error retry) = false := by
  unfold FailsAtomically perform forgets
  dsimp only
  generalize hout : d.nack traceId error retry = out
  have hcases := d.nack_cases traceId error retry
  rw [hout] at hcases
  cases hcases with
  | unknown hget =>
    rw [hget]
    exact iff_of_true (fun e he => by cases he) rfl
  | retried r hget hretry =>
    rw [hget, Option.any_some, hretry]
    exact iff_of_true (fun e he => by cases he) rfl
  | failed r hget hretry hrefused =>
    rw [hrefused, Bool.and_false]
    exact iff_of_true (fun e he => by cases he) rfl
  | unrecorded r hget hretry hrefused e =>
    rw [hget, Option.any_some, hretry, hrefused]
    refine iff_of_false (fun hatomic => ?_) nofun
    exact FiniteMap.remove_ne_self _ (d.inFlight.contains_of_get hget) (hatomic e rfl).2

/-- For every state and every answer of the cluster, an `enqueue`, `ack` or `nack` that returns an error
leaves the pending queue and the in-flight map as they were, if and only if the call is not an `ack` or
a permanent `nack` of a trace in flight whose end the cluster refuses to record. -/
theorem failsAtomically_iff (d : RaftDispatch) (call : Call) :
    d.FailsAtomically call ↔ d.forgets call = false := by
  cases call with
  | enqueue r => exact iff_of_true (enqueue_failsAtomically r) rfl
  | ack traceId => exact ack_failsAtomically_iff traceId
  | nack traceId error retry => exact nack_failsAtomically_iff traceId error retry

def noLeader : RaftClusterProvider :=
  ⟨fun _ => .error "no leader", fun _ => .error "no leader", fun _ _ => .error "no leader"⟩

def leaderless : RaftDispatch :=
  ((new.enqueue (DispatchRun.sampleRequest sampleTrace)).2.dequeue.2).setCluster noLeader

/-- The acknowledgement fails and the trace is in flight no longer: a second one has nothing to find. -/
theorem failed_ack_forgets_trace :
    (∃ e, (leaderless.perform (.ack sampleTrace)).1 = .error e) ∧
      leaderless.inFlight.contains sampleTrace = true ∧
      (leaderless.perform (.ack sampleTrace)).2.inFlight.contains sampleTrace = false ∧
      ¬ leaderless.FailsAtomically (.ack sampleTrace) := by
  have hheld : leaderless.inFlight.contains sampleTrace = true := by decide +kernel
  refine ⟨⟨_, rfl⟩, hheld, by decide, fun hatomic => ?_⟩
  exact FiniteMap.remove_ne_self _ hheld (hatomic _ rfl).2

end RaftDispatch
end Xerv.Dispatch
