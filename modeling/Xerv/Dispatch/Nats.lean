import Xerv.Dispatch.Memory

/-!
# NATS dispatch (`xerv-core/src/dispatch/nats.rs`)

The requests are messages of a JetStream work queue. A worker's instance keeps, for each trace it was
handed, the message and its own copy of the request, whose attempt it has incremented; the server
keeps the payload that was published and hands a message out, any number of times, until it is
acknowledged or terminated.
-/

namespace Xerv.Dispatch
open Xerv.Lib

/-- The server's stream. A message is its position; it is gone once acknowledged or terminated. -/
structure JetStream where
  messages : List TraceRequest
  settled : List ℕ

/-- What becomes of a message to the server: whether it arrives, and what the caller hears. -/
structure Sent where
  arrives : Bool
  answer : Except String Unit

/-- What the client and the server answer while a call runs. -/
structure NatsAnswers where
  publish : Sent
  fetch : Except String (Option ℕ)
  ackWith : Sent

/-- The backend of one worker and the server. -/
structure NatsDispatch where
  useJetstream : Bool
  server : JetStream
  inFlight : FiniteMap TraceId (ℕ × TraceRequest)
  shuttingDown : Bool

namespace JetStream

def publish (s : JetStream) (sent : Sent) (r : TraceRequest) : JetStream :=
  if sent.arrives then { s with messages := s.messages ++ [r] } else s

def settle (s : JetStream) (sent : Sent) (seq : ℕ) : JetStream :=
  if sent.arrives then { s with settled := s.settled ++ [seq] } else s

def message (s : JetStream) (seq : ℕ) : Option TraceRequest :=
  if seq ∈ s.settled then none else s.messages[seq]?

end JetStream

namespace NatsDispatch

def new (useJetstream : Bool) : NatsDispatch := ⟨useJetstream, ⟨[], []⟩, ∅, false⟩

def backendError (answer : Except String Unit) : Except DispatchError Unit := answer.mapError .backendError

def enqueue (answers : NatsAnswers) (d : NatsDispatch) (r : TraceRequest) :
    Except DispatchError TraceId × NatsDispatch :=
  if d.shuttingDown then (.error .shuttingDown, d)
  else
    ((backendError answers.publish.answer).map fun _ => r.traceId,
      -- without JetStream the message is not stored
      if d.useJetstream then { d with server := d.server.publish answers.publish r } else d)

def dequeue (answers : NatsAnswers) (d : NatsDispatch) :
    Except DispatchError (Option TraceRequest) × NatsDispatch :=
  if d.shuttingDown then (.ok none, d)
  else if !d.useJetstream then (.error (.configError "JetStream not initialized"), d)
  else
    match answers.fetch with
    | .error e => (.error (.backendError e), d)
    | .ok fetched =>
      match fetched.bind fun seq => (d.server.message seq).map fun r => (seq, r.incrementAttempt) with
      | none => (.ok none, d)
      | some (seq, r) => (.ok (some r), { d with inFlight := d.inFlight.insert r.traceId (seq, r) })

def ack (answers : NatsAnswers) (d : NatsDispatch) (traceId : TraceId) :
    Except DispatchError Unit × NatsDispatch :=
  let maybeMsg := d.inFlight.get traceId
  let d := { d with inFlight := d.inFlight.remove traceId }
  match maybeMsg with
  | none => (.ok (), d)
  | some (seq, _) =>
    (answers.ackWith.answer.mapError fun e => .backendError ("Failed to ack message: " ++ e),
      { d with server := d.server.settle answers.ackWith seq })

def nack (answers : NatsAnswers) (d : NatsDispatch) (traceId : TraceId) (retry : Bool) :
    Except DispatchError Unit × NatsDispatch :=
  let maybeMsg := d.inFlight.get traceId
  let d := { d with inFlight := d.inFlight.remove traceId }
  match maybeMsg with
  | none => (.ok (), d)
  | some (seq, r) =>
    if retry && !r.isExhausted then
      -- a NAK leaves the message on the server, as it was published
      match answers.ackWith.answer with
      | .ok _ => (.ok (), d)
      | .error _ =>
        if d.useJetstream then
          (backendError answers.publish.answer, { d with server := d.server.publish answers.publish r })
        else (.ok (), d)
    else (.ok (), { d with server := d.server.settle answers.ackWith seq })

def shutdown (d : NatsDispatch) : NatsDispatch := { d with shuttingDown := true }

end NatsDispatch
end Xerv.Dispatch
