import Xerv.Core.Types
import Xerv.Lib.FiniteMap
import Xerv.Lib.Machine

/-!
# In-memory dispatch (`xerv-core/src/dispatch/{memory,request}.rs`)

`MemoryDispatch` keeps the pending requests in a queue and those handed to a worker in a map,
each behind a lock of its own. Calls of `enqueue`, `dequeue`, `ack` and `nack` run in any
interleaving, one lock acquisition a step; between its two steps a call holds the request
it moves. A request carries the fields that the backend reads.
-/

namespace Xerv.Dispatch
open Xerv.Lib

structure TraceRequest where
  traceId : TraceId
  createdAtMs : UInt64
  priority : Int32
  attempt : UInt32
  maxAttempts : UInt32
  deriving DecidableEq

def TraceRequest.isExhausted (r : TraceRequest) : Bool := r.maxAttempts ≤ r.attempt

def TraceRequest.incrementAttempt (r : TraceRequest) : TraceRequest := { r with attempt := r.attempt + 1 }

/-- `Ord for PrioritizedRequest`: higher priority first, then older requests first. -/
def TraceRequest.cmp (r other : TraceRequest) : Ordering :=
  (compare r.priority other.priority).then (compare other.createdAtMs r.createdAtMs)

structure MemoryConfig where
  maxQueueSize : ℕ
  priorityQueue : Bool

inductive DispatchError where
  | connectionFailed (message : String)
  | queueFull (current max : ℕ)
  | backendError (message : String)
  | shuttingDown
  | configError (message : String)

/-- The backend. A heap is the list of its requests in any order. -/
structure MemoryDispatch where
  queue : List TraceRequest
  inFlight : FiniteMap TraceId TraceRequest
  shuttingDown : Bool
  totalEnqueued : UInt64
  totalDequeued : UInt64

namespace MemoryDispatch

def new : MemoryDispatch := ⟨[], ∅, false, 0, 0⟩

def push (config : MemoryConfig) (d : MemoryDispatch) (r : TraceRequest) :
    Except DispatchError MemoryDispatch :=
  if config.maxQueueSize ≤ d.queue.length then .error (.queueFull d.queue.length config.maxQueueSize)
  else .ok { d with queue := d.queue ++ [r], totalEnqueued := d.totalEnqueued + 1 }

/-- The positions `pop` may take: the front of the queue, or any greatest element of the heap. -/
def poppable (config : MemoryConfig) (d : MemoryDispatch) (i : ℕ) (r : TraceRequest) : Bool :=
  if config.priorityQueue then d.queue.all fun other => r.cmp other ≠ .lt else i = 0

/-- `pop` at position `i`; `none` where the queue does not give that request. -/
def pop (config : MemoryConfig) (d : MemoryDispatch) (i : ℕ) : Option (TraceRequest × MemoryDispatch) :=
  d.queue[i]?.bind fun r =>
    if d.poppable config i r then
      some (r, { d with queue := d.queue.eraseIdx i, totalDequeued := d.totalDequeued + 1 })
    else none

end MemoryDispatch

/-- The backend with the calls under way, and what has become of the requests. -/
structure DispatchRun where
  dispatch : MemoryDispatch
  entering : List TraceRequest
  polling : ℕ
  waiting : ℕ
  dequeued : List TraceRequest
  retrying : List TraceRequest
  accepted : List TraceId
  acked : List TraceId
  failed : List TraceId

inductive DispatchAction where
  | enqueue (r : TraceRequest)
  | enqueuePush (i : ℕ)
  | dequeue
  | popFirst (i : ℕ)
  | popFirstEmpty (wait : Bool)
  | popNotified (i : ℕ)
  | popNotifiedEmpty
  | dequeueTimeout
  | insertInFlight (i : ℕ)
  | ack (traceId : TraceId)
  | nack (traceId : TraceId) (retry : Bool)
  | nackPush (i : ℕ)
  | shutdown

namespace DispatchRun

def start : DispatchRun := ⟨.new, [], 0, 0, [], [], [], [], []⟩

/-- `request.increment_attempt()` after a `pop`; the call goes on to `in_flight`. -/
def hand (x : DispatchRun) (popped : TraceRequest × MemoryDispatch) : DispatchRun :=
  { x with dispatch := popped.2, dequeued := x.dequeued ++ [popped.1.incrementAttempt] }

def step (config : MemoryConfig) (x : DispatchRun) : DispatchAction → Option DispatchRun
  | .enqueue r =>
    -- trace ids are distinct
    if r.traceId ∈ x.accepted ++ x.entering.map TraceRequest.traceId then none
    else if x.dispatch.shuttingDown then some x
    else some { x with entering := x.entering ++ [r] }
  | .enqueuePush i =>
    x.entering[i]?.bind fun r =>
      let x := { x with entering := x.entering.eraseIdx i }
      match x.dispatch.push config r with
      | .ok d => some { x with dispatch := d, accepted := x.accepted ++ [r.traceId] }
      | .error _ => some x
  | .dequeue => if x.dispatch.shuttingDown then some x else some { x with polling := x.polling + 1 }
  | .popFirst i =>
    if x.polling = 0 then none
    else (x.dispatch.pop config i).map fun popped => { x with polling := x.polling - 1 }.hand popped
  | .popFirstEmpty wait =>
    if x.polling = 0 ∨ x.dispatch.queue ≠ [] then none
    else some { x with polling := x.polling - 1, waiting := if wait then x.waiting + 1 else x.waiting }
  | .popNotified i =>
    if x.waiting = 0 then none
    else (x.dispatch.pop config i).map fun popped => { x with waiting := x.waiting - 1 }.hand popped
  | .popNotifiedEmpty =>
    if x.waiting = 0 ∨ x.dispatch.queue ≠ [] then none else some { x with waiting := x.waiting - 1 }
  | .dequeueTimeout => if x.waiting = 0 then none else some { x with waiting := x.waiting - 1 }
  | .insertInFlight i =>
    x.dequeued[i]?.map fun r =>
      { x with
        dequeued := x.dequeued.eraseIdx i
        dispatch := { x.dispatch with inFlight := x.dispatch.inFlight.insert r.traceId r } }
  | .ack traceId =>
    match x.dispatch.inFlight.get traceId with
    | none => some x
    | some _ => some { x with
        dispatch := { x.dispatch with inFlight := x.dispatch.inFlight.remove traceId }
        acked := x.acked ++ [traceId] }
  | .nack traceId retry =>
    match x.dispatch.inFlight.get traceId with
    | none => some x
    | some r =>
      let x := { x with dispatch := { x.dispatch with inFlight := x.dispatch.inFlight.remove traceId } }
      if retry && !r.isExhausted then some { x with retrying := x.retrying ++ [r] }
      else some { x with failed := x.failed ++ [traceId] }
  | .nackPush i =>
    x.retrying[i]?.bind fun r =>
      let x := { x with retrying := x.retrying.eraseIdx i }
      -- `let _ = self.push(request)`
      match x.dispatch.push config r with
      | .ok d => some { x with dispatch := d }
      | .error _ => some x
  | .shutdown => some { x with dispatch := { x.dispatch with shuttingDown := true } }

def carried (rs : List TraceRequest) (traceId : TraceId) : ℕ := (rs.map TraceRequest.traceId).count traceId

def restingPlaces (x : DispatchRun) (traceId : TraceId) : ℕ :=
  carried x.dispatch.queue traceId + (if x.dispatch.inFlight.contains traceId then 1 else 0) +
    x.acked.count traceId + x.failed.count traceId

/-- The calls that hold it between two locks. -/
def moving (x : DispatchRun) (traceId : TraceId) : ℕ := carried x.dequeued traceId + carried x.retrying traceId

/-- Every accepted request is in exactly one place, and there once; in a place of rest unless a call
that is under way is moving it. -/
def Conserved (x : DispatchRun) : Prop :=
  ∀ traceId ∈ x.accepted, x.restingPlaces traceId + x.moving traceId = 1

/-- A retry whose `push` finds the queue full. -/
def dropsRetry (config : MemoryConfig) (x : DispatchRun) : DispatchAction → Bool
  | .nackPush i => x.retrying[i]?.isSome && config.maxQueueSize ≤ x.dispatch.queue.length
  | _ => false

/-! ### Where a step leaves the requests -/

def places (x : DispatchRun) (traceId : TraceId) : ℕ := x.restingPlaces traceId + x.moving traceId

def one (traceId other : TraceId) : ℕ := if other = traceId then 1 else 0

theorem carried_append (rs : List TraceRequest) (r : TraceRequest) (traceId : TraceId) :
    carried (rs ++ [r]) traceId = carried rs traceId + one traceId r.traceId := by
  unfold carried one
  rw [List.map_append, List.count_append]
  simp [List.count_singleton]

theorem carried_eraseIdx (rs : List TraceRequest) (i : ℕ) (r : TraceRequest) (h : rs[i]? = some r)
    (traceId : TraceId) :
    carried rs traceId = carried (rs.eraseIdx i) traceId + one traceId r.traceId := by
  obtain ⟨hi, rfl⟩ := List.getElem?_eq_some_iff.mp h
  have hperm := ((List.getElem_cons_eraseIdx_perm hi).map TraceRequest.traceId).count_eq traceId
  unfold carried one
  rw [← hperm, List.map_cons, List.count_cons]
  simp

theorem count_append_one (ids : List TraceId) (t traceId : TraceId) :
    (ids ++ [t]).count traceId = ids.count traceId + one traceId t := by
  unfold one
  rw [List.count_append]
  simp [List.count_singleton]

theorem inFlight_insert (m : FiniteMap TraceId TraceRequest) (r : TraceRequest) (traceId : TraceId)
    (h : m.contains r.traceId = false) :
    (if (m.insert r.traceId r).contains traceId then 1 else 0) =
      (if m.contains traceId then 1 else 0) + one traceId r.traceId := by
  rw [FiniteMap.contains_insert]
  unfold one
  by_cases hid : traceId = r.traceId
  · simp [hid, h]
  · simp [hid, Ne.symm hid]

theorem inFlight_remove (m : FiniteMap TraceId TraceRequest) (t traceId : TraceId)
    (h : m.contains t = true) :
    (if m.contains traceId then 1 else 0) =
      (if (m.remove t).contains traceId then 1 else 0) + one traceId t := by
  rw [FiniteMap.contains_remove]
  unfold one
  by_cases hid : traceId = t
  · simp [hid, h]
  · simp [hid, Ne.symm hid]

/-- What holds in every state, whatever has been dropped. -/
structure Tracked (x : DispatchRun) : Prop where
  keyed : ∀ traceId r, x.dispatch.inFlight.get traceId = some r → r.traceId = traceId
  once : ∀ traceId, x.places traceId ≤ 1
  known : ∀ traceId, x.places traceId ≠ 0 → traceId ∈ x.accepted
  newcomers : (x.accepted ++ x.entering.map TraceRequest.traceId).Nodup

variable {config : MemoryConfig} {x x' : DispatchRun}

theorem push_cases (config : MemoryConfig) (d : MemoryDispatch) (r : TraceRequest) :
    (config.maxQueueSize ≤ d.queue.length ∧
        d.push config r = .error (.queueFull d.queue.length config.maxQueueSize)) ∨
      (d.queue.length < config.maxQueueSize ∧
        d.push config r =
          .ok { d with queue := d.queue ++ [r], totalEnqueued := d.totalEnqueued + 1 }) := by
  unfold MemoryDispatch.push
  by_cases h : config.maxQueueSize ≤ d.queue.length
  · exact .inl ⟨h, if_pos h⟩
  · exact .inr ⟨by omega, if_neg h⟩

theorem pop_cases {d : MemoryDispatch} {i : ℕ} {popped : TraceRequest × MemoryDispatch}
    (h : d.pop config i = some popped) :
    d.queue[i]? = some popped.1 ∧ popped.2.queue = d.queue.eraseIdx i ∧ popped.2.inFlight = d.inFlight := by
  obtain ⟨r, hr, hpop⟩ := Option.bind_eq_some_iff.mp h
  split at hpop
  · cases hpop
    exact ⟨hr, rfl, rfl⟩
  · cases hpop

/-- What a step does to the requests, by the lists it takes them from and puts them on. -/
inductive Step (config : MemoryConfig) (x : DispatchRun) : DispatchAction → DispatchRun → Prop
  | idle (a : DispatchAction) (polling waiting : ℕ) (shuttingDown : Bool)
      (hdrop : dropsRetry config x a = false) :
      Step config x a { x with polling, waiting, dispatch := { x.dispatch with shuttingDown } }
  | enters (r : TraceRequest) (hnew : r.traceId ∉ x.accepted ++ x.entering.map TraceRequest.traceId) :
      Step config x (.enqueue r) { x with entering := x.entering ++ [r] }
  | refused (i : ℕ) (r : TraceRequest) (hr : x.entering[i]? = some r) :
      Step config x (.enqueuePush i) { x with entering := x.entering.eraseIdx i }
  | accepts (i : ℕ) (r : TraceRequest) (hr : x.entering[i]? = some r) (n : UInt64) :
      Step config x (.enqueuePush i)
        { x with
          entering := x.entering.eraseIdx i
          dispatch := { x.dispatch with queue := x.dispatch.queue ++ [r], totalEnqueued := n }
          accepted := x.accepted ++ [r.traceId] }
  | pops (a : DispatchAction) (hdrop : dropsRetry config x a = false) (i polling waiting : ℕ)
      (popped : TraceRequest × MemoryDispatch) (hpop : x.dispatch.pop config i = some popped) :
      Step config x a ({ x with polling, waiting }.hand popped)
  | inserts (i : ℕ) (r : TraceRequest) (hr : x.dequeued[i]? = some r) :
      Step config x (.insertInFlight i)
        { x with
          dequeued := x.dequeued.eraseIdx i
          dispatch := { x.dispatch with inFlight := x.dispatch.inFlight.insert r.traceId r } }
  | acks (t : TraceId) (r : TraceRequest) (hget : x.dispatch.inFlight.get t = some r) :
      Step config x (.ack t)
        { x with
          dispatch := { x.dispatch with inFlight := x.dispatch.inFlight.remove t }
          acked := x.acked ++ [t] }
  | retries (t : TraceId) (r : TraceRequest) (hget : x.dispatch.inFlight.get t = some r) (retry : Bool) :
      Step config x (.nack t retry)
        { x with
          dispatch := { x.dispatch with inFlight := x.dispatch.inFlight.remove t }
          retrying := x.retrying ++ [r] }
  | fails (t : TraceId) (r : TraceRequest) (hget : x.dispatch.inFlight.get t = some r) (retry : Bool) :
      Step config x (.nack t retry)
        { x with
          dispatch := { x.dispatch with inFlight := x.dispatch.inFlight.remove t }
          failed := x.failed ++ [t] }
  | requeues (i : ℕ) (r : TraceRequest) (hr : x.retrying[i]? = some r)
      (hroom : x.dispatch.queue.length < config.maxQueueSize) (n : UInt64) :
      Step config x (.nackPush i)
        { x with
          retrying := x.retrying.eraseIdx i
          dispatch := { x.dispatch with queue := x.dispatch.queue ++ [r], totalEnqueued := n } }
  | drops (i : ℕ) (r : TraceRequest) (hr : x.retrying[i]? = some r)
      (hfull : config.maxQueueSize ≤ x.dispatch.queue.length) :
      Step config x (.nackPush i) { x with retrying := x.retrying.eraseIdx i }

theorem step_enqueuePush (i : ℕ) (hs : x.step config (.enqueuePush i) = some x') :
    Step config x (.enqueuePush i) x' := by
  obtain ⟨r, hr, hpush⟩ := Option.bind_eq_some_iff.mp hs
  dsimp only at hpush
  rcases push_cases config x.dispatch r with ⟨-, heq⟩ | ⟨-, heq⟩
  · rw [heq] at hpush
    cases hpush
    exact .refused i r hr
  · rw [heq] at hpush
    cases hpush
    exact .accepts i r hr _

theorem step_nackPush (i : ℕ) (hs : x.step config (.nackPush i) = some x') :
    Step config x (.nackPush i) x' := by
  obtain ⟨r, hr, hpush⟩ := Option.bind_eq_some_iff.mp hs
  dsimp only at hpush
  rcases push_cases config x.dispatch r with ⟨hfull, heq⟩ | ⟨hroom, heq⟩
  · rw [heq] at hpush
    cases hpush
    exact .drops i r hr hfull
  · rw [heq] at hpush
    cases hpush
    exact .requeues i r hr hroom _

theorem step_nack (t : TraceId) (retry : Bool) (hs : x.step config (.nack t retry) = some x') :
    Step config x (.nack t retry) x' := by
  unfold step at hs
  dsimp only at hs
  split at hs
  · cases hs
    exact .idle _ x.polling x.waiting x.dispatch.shuttingDown rfl
  · rename_i r hget
    split at hs
    · cases hs
      exact .retries t r hget retry
    · cases hs
      exact .fails t r hget retry

theorem step_cases (a : DispatchAction) (hs : x.step config a = some x') : Step config x a x' := by
  have hidle (a : DispatchAction) (hdrop : dropsRetry config x a = false) : Step config x a x :=
    .idle a x.polling x.waiting x.dispatch.shuttingDown hdrop
  cases a with
  | enqueue r =>
    unfold step at hs
    dsimp only at hs
    split_ifs at hs with hnew
    · cases hs
      exact hidle _ rfl
    · cases hs
      exact .enters r hnew
  | enqueuePush i => exact step_enqueuePush i hs
  | dequeue =>
    unfold step at hs
    dsimp only at hs
    split_ifs at hs
    · cases hs
      exact hidle _ rfl
    · cases hs
      exact .idle _ _ x.waiting x.dispatch.shuttingDown rfl
  | popFirst i =>
    unfold step at hs
    dsimp only at hs
    split_ifs at hs
    obtain ⟨popped, hpop, rfl⟩ := Option.map_eq_some_iff.mp hs
    exact .pops _ rfl i _ x.waiting popped hpop
  | popFirstEmpty wait =>
    unfold step at hs
    dsimp only at hs
    split_ifs at hs
    · cases hs
      exact .idle _ _ _ x.dispatch.shuttingDown rfl
    · cases hs
      exact .idle _ _ _ x.dispatch.shuttingDown rfl
  | popNotified i =>
    unfold step at hs
    dsimp only at hs
    split_ifs at hs
    obtain ⟨popped, hpop, rfl⟩ := Option.map_eq_some_iff.mp hs
    exact .pops _ rfl i x.polling _ popped hpop
  | popNotifiedEmpty =>
    unfold step at hs
    dsimp only at hs
    split_ifs at hs
    cases hs
    exact .idle _ x.polling _ x.dispatch.shuttingDown rfl
  | dequeueTimeout =>
    unfold step at hs
    dsimp only at hs
    split_ifs at hs
    cases hs
    exact .idle _ x.polling _ x.dispatch.shuttingDown rfl
  | insertInFlight i =>
    obtain ⟨r, hr, rfl⟩ := Option.map_eq_some_iff.mp hs
    exact .inserts i r hr
  | ack t =>
    unfold step at hs
    dsimp only at hs
    split at hs
    · cases hs
      exact hidle _ rfl
    · rename_i r hget
      cases hs
      exact .acks t r hget
  | nack t retry => exact step_nack t retry hs
  | nackPush i => exact step_nackPush i hs
  | shutdown =>
    cases hs
    exact .idle _ x.polling x.waiting true rfl

/-! ### Conservation -/

/-- A step keeps every request in a place, accepts one, or drops one. -/
inductive Moved (config : MemoryConfig) (x : DispatchRun) (a : DispatchAction) (x' : DispatchRun) : Prop
  | kept (hdrop : dropsRetry config x a = false) (haccepted : x'.accepted = x.accepted)
      (hplaces : ∀ traceId, x'.places traceId = x.places traceId)
  | accepted (r : TraceRequest) (hr : r ∈ x.entering) (hdrop : dropsRetry config x a = false)
      (haccepted : x'.accepted = x.accepted ++ [r.traceId])
      (hplaces : ∀ traceId, x'.places traceId = x.places traceId + one traceId r.traceId)
  | dropped (r : TraceRequest) (hdrop : dropsRetry config x a = true) (haccepted : x'.accepted = x.accepted)
      (hplaces : ∀ traceId, x'.places traceId + one traceId r.traceId = x.places traceId)

theorem Tracked.not_inFlight (h : x.Tracked) (i : ℕ) (r : TraceRequest) (hr : x.dequeued[i]? = some r) :
    x.dispatch.inFlight.contains r.traceId = false := by
  have honce := h.once r.traceId
  have hd := carried_eraseIdx x.dequeued i r hr r.traceId
  have hself : one r.traceId r.traceId = 1 := if_pos rfl
  simp only [places, restingPlaces, moving] at honce
  cases hc : x.dispatch.inFlight.contains r.traceId with
  | false => rfl
  | true =>
    rw [if_pos hc] at honce
    omega

theorem Tracked.moved (h : x.Tracked) {a : DispatchAction} (hs : Step config x a x') :
    Moved config x a x' := by
  cases hs with
  | idle a polling waiting shuttingDown hdrop => exact .kept hdrop rfl fun _ => rfl
  | enters r hnew => exact .kept rfl rfl fun _ => rfl
  | refused i r hr => exact .kept rfl rfl fun _ => rfl
  | accepts i r hr n =>
    refine .accepted r (List.mem_of_getElem? hr) rfl rfl fun traceId => ?_
    have hq := carried_append x.dispatch.queue r traceId
    simp only [places, restingPlaces, moving]
    omega
  | pops a hdrop i polling waiting popped hpop =>
    refine .kept hdrop rfl fun traceId => ?_
    obtain ⟨hr, hqueue, hflight⟩ := pop_cases hpop
    have hq := carried_eraseIdx x.dispatch.queue i popped.1 hr traceId
    have hd : carried (x.dequeued ++ [popped.1.incrementAttempt]) traceId =
        carried x.dequeued traceId + one traceId popped.1.traceId := carried_append _ _ _
    simp only [places, restingPlaces, moving, hand, hqueue, hflight]
    omega
  | inserts i r hr =>
    refine .kept rfl rfl fun traceId => ?_
    have hd := carried_eraseIdx x.dequeued i r hr traceId
    have hf := inFlight_insert x.dispatch.inFlight r traceId (h.not_inFlight i r hr)
    simp only [places, restingPlaces, moving]
    omega
  | acks t r hget =>
    refine .kept rfl rfl fun traceId => ?_
    have hf := inFlight_remove x.dispatch.inFlight t traceId (FiniteMap.contains_of_get _ hget)
    have ha := count_append_one x.acked t traceId
    simp only [places, restingPlaces, moving]
    omega
  | retries t r hget retry =>
    refine .kept rfl rfl fun traceId => ?_
    have hf := inFlight_remove x.dispatch.inFlight t traceId (FiniteMap.contains_of_get _ hget)
    have hr := carried_append x.retrying r traceId
    rw [h.keyed t r hget] at hr
    simp only [places, restingPlaces, moving]
    omega
  | fails t r hget retry =>
    refine .kept rfl rfl fun traceId => ?_
    have hf := inFlight_remove x.dispatch.inFlight t traceId (FiniteMap.contains_of_get _ hget)
    have ha := count_append_one x.failed t traceId
    simp only [places, restingPlaces, moving]
    omega
  | requeues i r hr hroom n =>
    refine .kept (by simp [dropsRetry, hr, hroom]) rfl fun traceId => ?_
    have hd := carried_eraseIdx x.retrying i r hr traceId
    have hq := carried_append x.dispatch.queue r traceId
    simp only [places, restingPlaces, moving]
    omega
  | drops i r hr hfull =>
    refine .dropped r (by simp [dropsRetry, hr, hfull]) rfl fun traceId => ?_
    have hd := carried_eraseIdx x.retrying i r hr traceId
    simp only [places, restingPlaces, moving]
    omega

theorem Tracked.keyed_step (h : x.Tracked) {a : DispatchAction} (hs : Step config x a x') :
    ∀ traceId r, x'.dispatch.inFlight.get traceId = some r → r.traceId = traceId := by
  have hremove (t traceId : TraceId) (r : TraceRequest)
      (hget : (x.dispatch.inFlight.remove t).get traceId = some r) : r.traceId = traceId := by
    by_cases hid : traceId = t
    · rw [hid, FiniteMap.get_remove_self] at hget
      cases hget
    · rw [FiniteMap.get_remove_ne _ hid] at hget
      exact h.keyed traceId r hget
  cases hs with
  | inserts i r hr =>
    intro traceId r' hget
    dsimp only at hget
    rw [FiniteMap.get_insert] at hget
    split at hget
    · rename_i hid
      cases hget
      exact hid.symm
    · exact h.keyed traceId r' hget
  | acks t r hget => exact hremove t
  | retries t r hget retry => exact hremove t
  | fails t r hget retry => exact hremove t
  | pops a hdrop i polling waiting popped hpop =>
    intro traceId r hget
    refine h.keyed traceId r ?_
    rw [← (pop_cases hpop).2.2]
    exact hget
  | _ => exact h.keyed

theorem Tracked.newcomers_step (h : x.Tracked) {a : DispatchAction} (hs : Step config x a x') :
    (x'.accepted ++ x'.entering.map TraceRequest.traceId).Nodup := by
  have hnodup := h.newcomers
  cases hs with
  | enters r hnew =>
    dsimp only
    rw [List.map_append, List.map_singleton, ← List.append_assoc]
    refine List.nodup_append.mpr ⟨hnodup, List.nodup_singleton _, ?_⟩
    intro t ht u hu htu
    rw [List.mem_singleton.mp hu] at htu
    exact hnew (htu ▸ ht)
  | refused i r hr =>
    exact hnodup.sublist (((List.eraseIdx_sublist _ _).map _).append_left _)
  | accepts i r hr n =>
    obtain ⟨hi, rfl⟩ := List.getElem?_eq_some_iff.mp hr
    have hperm := (List.getElem_cons_eraseIdx_perm hi).map TraceRequest.traceId
    dsimp only
    rw [List.append_assoc]
    exact ((hperm.append_left x.accepted).nodup_iff).mpr hnodup
  | _ => exact hnodup

theorem Tracked.absent (h : x.Tracked) (r : TraceRequest) (hr : r ∈ x.entering) :
    r.traceId ∉ x.accepted ∧ x.places r.traceId = 0 := by
  have hnew : r.traceId ∉ x.accepted := by
    intro hmem
    exact (List.nodup_append.mp h.newcomers).2.2 _ hmem _ (List.mem_map_of_mem hr) rfl
  refine ⟨hnew, ?_⟩
  by_contra hplaces
  exact hnew (h.known r.traceId hplaces)

theorem Tracked.step (h : x.Tracked) (a : DispatchAction) (hs : x.step config a = some x') : x'.Tracked := by
  have hstep := step_cases a hs
  refine ⟨h.keyed_step hstep, ?_, ?_, h.newcomers_step hstep⟩
  · intro traceId
    have honce := h.once traceId
    cases h.moved hstep with
    | kept hdrop haccepted hplaces =>
      rw [hplaces]
      exact honce
    | accepted r hr hdrop haccepted hplaces =>
      rw [hplaces, one]
      split
      · rename_i hid
        rw [← hid, (h.absent r hr).2]
      · exact honce
    | dropped r hdrop haccepted hplaces =>
      have := hplaces traceId
      omega
  · intro traceId hne
    have hknown := h.known traceId
    cases h.moved hstep with
    | kept hdrop haccepted hplaces =>
      rw [haccepted]
      rw [hplaces] at hne
      exact hknown hne
    | accepted r hr hdrop haccepted hplaces =>
      rw [haccepted, List.mem_append, List.mem_singleton]
      by_cases hid : traceId = r.traceId
      · exact .inr hid
      · rw [hplaces, one, if_neg (Ne.symm hid)] at hne
        exact .inl (hknown hne)
    | dropped r hdrop haccepted hplaces =>
      rw [haccepted]
      have := hplaces traceId
      exact hknown (by omega)

theorem Tracked.conserved_iff (h : x.Tracked) (hx : x.Conserved) (a : DispatchAction)
    (hs : x.step config a = some x') : x'.Conserved ↔ dropsRetry config x a = false := by
  cases h.moved (step_cases a hs) with
  | kept hdrop haccepted hplaces =>
    refine iff_of_true (fun traceId hmem => ?_) hdrop
    exact (hplaces traceId).trans (hx traceId (haccepted ▸ hmem))
  | accepted r hr hdrop haccepted hplaces =>
    refine iff_of_true (fun traceId hmem => ?_) hdrop
    obtain ⟨hnew, hzero⟩ := h.absent r hr
    rw [haccepted, List.mem_append, List.mem_singleton] at hmem
    refine (hplaces traceId).trans ?_
    rcases hmem with hold | rfl
    · have hid : r.traceId ≠ traceId := fun hid => hnew (hid ▸ hold)
      rw [one, if_neg hid]
      exact hx traceId hold
    · rw [hzero, one, if_pos rfl]
  | dropped r hdrop haccepted hplaces =>
    refine iff_of_false (fun hall => ?_) (by rw [hdrop]; nofun)
    have hself : one r.traceId r.traceId = 1 := if_pos rfl
    have hone := hplaces r.traceId
    -- the dropped request had been accepted, and is nowhere now
    have hmem : r.traceId ∈ x.accepted := h.known r.traceId (by omega)
    have hbefore : x.places r.traceId = 1 := hx r.traceId hmem
    have hafter : x'.places r.traceId = 1 := hall r.traceId (haccepted ▸ hmem)
    omega

theorem tracked_start : start.Tracked :=
  ⟨nofun, fun _ => Nat.zero_le _, fun _ h => absurd rfl h, List.nodup_nil⟩

/-- The second step of a nack that retries leaves the request in the queue. -/
def RetriesQueued (config : MemoryConfig) (x : DispatchRun) (i : ℕ) : Prop :=
  ∀ r x', x.retrying[i]? = some r → x.step config (.nackPush i) = some x' → r ∈ x'.dispatch.queue

theorem retriesQueued_of_room (i : ℕ) (h : dropsRetry config x (.nackPush i) = false) :
    x.RetriesQueued config i := by
  intro r x' hr hs
  obtain ⟨r', hr', hpush⟩ := Option.bind_eq_some_iff.mp hs
  rw [hr] at hr'
  cases hr'
  dsimp only at hpush
  rcases push_cases config x.dispatch r with ⟨hfull, -⟩ | ⟨-, heq⟩
  · simp [dropsRetry, hr, hfull] at h
  · rw [heq] at hpush
    cases hpush
    exact List.mem_append_right _ List.mem_cons_self

/-- In every interleaving of calls, first in first out or by priority and for every queue size: each
accepted request is in exactly one place in every state reached and every retry leaves its request in
the queue, if and only if no retry finds the queue full when it pushes the request back. -/
theorem conserved_throughout_iff (config : MemoryConfig) (actions : List DispatchAction) (x : DispatchRun)
    (hrun : Machine.run (step config) start actions = some x) :
    ((∀ before x', before <+: actions → Machine.run (step config) start before = some x' → x'.Conserved) ∧
        ∀ before i x', before ++ [.nackPush i] <+: actions →
          Machine.run (step config) start before = some x' → x'.RetriesQueued config i) ↔
      Machine.happens (step config) (dropsRetry config) start actions = false := by
  have hiff := Machine.throughout_iff (dropsRetry config) Tracked Conserved
    (fun _ a _ h hs => h.step a hs) (fun _ a _ h hx hs => h.conserved_iff hx a hs) actions tracked_start
    nofun hrun
  constructor
  · exact fun h => hiff.mp h.1
  · intro hnone
    refine ⟨hiff.mpr hnone, fun before i x' hpre hbefore => ?_⟩
    exact retriesQueued_of_room i (Machine.not_happens_at _ actions before _ hnone hpre hbefore)

def sampleRequest (traceId : TraceId) : TraceRequest := ⟨traceId, 1000, 0, 0, 3⟩

def secondTrace : TraceId := ⟨List.replicate 16 9, rfl⟩

def enqueueAll (r : TraceRequest) : List DispatchAction := [.enqueue r, .enqueuePush 0]

def dequeueAll : List DispatchAction := [.dequeue, .popFirst 0, .insertInFlight 0]

def retriedRun : List DispatchAction :=
  enqueueAll (sampleRequest sampleTrace) ++ dequeueAll ++ [.nack sampleTrace true, .nackPush 0] ++
    dequeueAll ++ [.ack sampleTrace]

theorem retried_is_conserved :
    ∃ x, Machine.run (step ⟨1, true⟩) start retriedRun = some x ∧ x.acked = [sampleTrace] ∧ x.Conserved := by
  have hend : (Machine.run (step ⟨1, true⟩) start retriedRun).any (fun x => x.acked = [sampleTrace]) =
      true := by decide
  obtain ⟨x, hx, hacked⟩ := (Option.any_eq_true _ _).mp hend
  have hall := (conserved_throughout_iff ⟨1, true⟩ retriedRun x hx).mpr (by decide)
  exact ⟨x, hx, by simpa using hacked, hall.1 _ x List.prefix_rfl hx⟩

/-- The slot that the request left is taken by another before it is retried. -/
def droppedRun : List DispatchAction :=
  enqueueAll (sampleRequest sampleTrace) ++ dequeueAll ++ enqueueAll (sampleRequest secondTrace) ++
    [.nack sampleTrace true, .nackPush 0]

/-- The nack with retry of a request with two attempts left leaves it nowhere. -/
theorem full_queue_drops_retry :
    ∃ x, Machine.run (step ⟨1, false⟩) start droppedRun = some x ∧ sampleTrace ∈ x.accepted ∧
      x.restingPlaces sampleTrace = 0 ∧ x.moving sampleTrace = 0 := by
  have hend : (Machine.run (step ⟨1, false⟩) start droppedRun).any (fun x =>
      sampleTrace ∈ x.accepted ∧ x.restingPlaces sampleTrace = 0 ∧ x.moving sampleTrace = 0) = true := by
    decide
  obtain ⟨x, hx, h⟩ := (Option.any_eq_true _ _).mp hend
  exact ⟨x, hx, of_decide_eq_true h⟩

end DispatchRun
end Xerv.Dispatch
