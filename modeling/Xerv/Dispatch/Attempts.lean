import Xerv.Dispatch.Raft
import Xerv.Lib.Positions
import Xerv.Lib.WorkQueue

/-!
# Delivery attempts of the local backends (`xerv-core/src/dispatch/{memory,raft}.rs`)

The calls of `MemoryDispatch` and `RaftDispatch` one after another. Both backends are work queues:
every call makes one move of the queue that they hold. A request is followed through its copies by
the number it gets when it is accepted; nothing is assumed about trace ids.
-/

namespace Xerv.Dispatch
open Xerv.Lib

namespace MemoryDispatch

def enqueue (config : MemoryConfig) (d : MemoryDispatch) (r : TraceRequest) :
    Except DispatchError TraceId × MemoryDispatch :=
  if d.shuttingDown then (.error .shuttingDown, d)
  else
    match d.push config r with
    | .error e => (.error e, d)
    | .ok d => (.ok r.traceId, d)

/-- Where `pop` takes the request: among equal greatest elements of the heap it is the heap's choice. -/
def popPosition (config : MemoryConfig) (d : MemoryDispatch) (choice : ℕ) : Option ℕ :=
  (choice :: List.range d.queue.length).find? fun i => (d.pop config i).isSome

/-- With no other call under way nothing arrives while it waits. -/
def dequeue (config : MemoryConfig) (choice : ℕ) (d : MemoryDispatch) :
    Except DispatchError (Option TraceRequest) × MemoryDispatch :=
  if d.shuttingDown then (.ok none, d)
  else
    match (d.popPosition config choice).bind (d.pop config) with
    | none => (.ok none, d)
    | some (r, d) =>
      let r := r.incrementAttempt
      (.ok (some r), { d with inFlight := d.inFlight.insert r.traceId r })

def ack (d : MemoryDispatch) (traceId : TraceId) : Except DispatchError Unit × MemoryDispatch :=
  (.ok (), { d with inFlight := d.inFlight.remove traceId })

def nack (config : MemoryConfig) (d : MemoryDispatch) (traceId : TraceId) (retry : Bool) :
    Except DispatchError Unit × MemoryDispatch :=
  let request := d.inFlight.get traceId
  let d := { d with inFlight := d.inFlight.remove traceId }
  match request with
  | none => (.ok (), d)
  | some r =>
    if retry && !r.isExhausted then
      -- `let _ = self.push(request)`
      match d.push config r with
      | .error _ => (.ok (), d)
      | .ok d => (.ok (), d)
    else (.ok (), d)

def shutdown (d : MemoryDispatch) : MemoryDispatch := { d with shuttingDown := true }

end MemoryDispatch

inductive LocalConfig where
  | memory (config : MemoryConfig)
  | raft

inductive LocalDispatch where
  | memory (config : MemoryConfig) (d : MemoryDispatch)
  | raft (d : RaftDispatch)

inductive LocalCall where
  | enqueue (r : TraceRequest)
  | dequeue (choice : ℕ)
  | ack (traceId : TraceId)
  | nack (traceId : TraceId) (error : String) (retry : Bool)
  | setCluster (provider : RaftClusterProvider)
  | shutdown

namespace LocalDispatch

def new : LocalConfig → LocalDispatch
  | .memory config => .memory config .new
  | .raft => .raft .new

def perform : LocalDispatch → LocalCall → Option TraceRequest × LocalDispatch
  | .memory config d, .enqueue r => (none, .memory config (d.enqueue config r).2)
  | .memory config d, .dequeue choice =>
    ((d.dequeue config choice).1.toOption.join, .memory config (d.dequeue config choice).2)
  | .memory config d, .ack traceId => (none, .memory config (d.ack traceId).2)
  | .memory config d, .nack traceId _ retry => (none, .memory config (d.nack config traceId retry).2)
  | .memory config d, .setCluster _ => (none, .memory config d)
  | .memory config d, .shutdown => (none, .memory config d.shutdown)
  | .raft d, .enqueue r => (none, .raft (d.enqueue r).2)
  | .raft d, .dequeue _ => (d.dequeue.1.toOption.join, .raft d.dequeue.2)
  | .raft d, .ack traceId => (none, .raft (d.ack traceId).2)
  | .raft d, .nack traceId error retry => (none, .raft (d.nack traceId error retry).2)
  | .raft d, .setCluster provider => (none, .raft (d.setCluster provider))
  | .raft d, .shutdown => (none, .raft d.shutdown)

def holding : LocalDispatch → WorkQueue TraceId TraceRequest
  | .memory _ d => ⟨d.queue, d.inFlight⟩
  | .raft d => ⟨d.pending, d.inFlight⟩

def enqueueMove (r : TraceRequest) : Except DispatchError TraceId → WorkQueue.Move TraceId TraceRequest
  | .ok _ => .accept r
  | .error _ => .stay

/-- The move that the call makes; a retry that `room` does not let back into the queue is dropped. -/
def nackMove (held : FiniteMap TraceId TraceRequest) (traceId : TraceId) (retry room : Bool) :
    WorkQueue.Move TraceId TraceRequest :=
  match held.get traceId with
  | none => .stay
  | some r => if retry && !r.isExhausted && room then .giveBack traceId else .drop traceId

def move : LocalDispatch → LocalCall → WorkQueue.Move TraceId TraceRequest
  | .memory config d, .enqueue r => enqueueMove r (d.enqueue config r).1
  | .memory config d, .dequeue choice =>
    if d.shuttingDown then .stay
    else
      match d.popPosition config choice with
      | none => .stay
      | some i => .take i
  | .memory config d, .nack traceId _ retry =>
    nackMove d.inFlight traceId retry (d.queue.length < config.maxQueueSize)
  | .raft d, .enqueue r => enqueueMove r (d.enqueue r).1
  | .raft d, .dequeue _ => if d.shuttingDown || d.pending.isEmpty then .stay else .take 0
  | .raft d, .nack traceId _ retry => nackMove d.inFlight traceId retry true
  | _, .ack traceId => .drop traceId
  | _, .setCluster _ => .stay
  | _, .shutdown => .stay

/-! ### Every call is a move of the work queue -/

def applied (q : WorkQueue TraceId TraceRequest) (m : WorkQueue.Move TraceId TraceRequest) :
    WorkQueue TraceId TraceRequest := q.apply TraceRequest.traceId TraceRequest.incrementAttempt m

/-- What a move returns and leaves: a request is returned as it is taken, and given back only with
attempts left. -/
inductive Serves (q : WorkQueue TraceId TraceRequest) :
    WorkQueue.Move TraceId TraceRequest → Option TraceRequest → WorkQueue TraceId TraceRequest → Prop
  | stay : Serves q .stay none q
  | accept (r : TraceRequest) : Serves q (.accept r) none (applied q (.accept r))
  | take (i : ℕ) (r : TraceRequest) (hr : q.waiting[i]? = some r) :
      Serves q (.take i) (some r.incrementAttempt) (applied q (.take i))
  | drop (traceId : TraceId) : Serves q (.drop traceId) none (applied q (.drop traceId))
  | giveBack (traceId : TraceId) (r : TraceRequest) (hr : q.held.get traceId = some r)
      (hleft : r.isExhausted = false) :
      Serves q (.giveBack traceId) none (applied q (.giveBack traceId))

theorem Serves.result {q q' : WorkQueue TraceId TraceRequest} {move : WorkQueue.Move TraceId TraceRequest}
    {returned : Option TraceRequest} (h : Serves q move returned q') : q' = applied q move := by
  cases h with
  | _ => rfl

section Memory
variable {config : MemoryConfig} {d : MemoryDispatch}

theorem memory_enqueue_serves (r : TraceRequest) :
    Serves ⟨d.queue, d.inFlight⟩ (enqueueMove r (d.enqueue config r).1) none
      ⟨(d.enqueue config r).2.queue, (d.enqueue config r).2.inFlight⟩ := by
  unfold MemoryDispatch.enqueue
  split
  · exact .stay
  · rcases DispatchRun.push_cases config d r with ⟨-, heq⟩ | ⟨-, heq⟩
    · rw [heq]
      exact .stay
    · rw [heq]
      exact .accept r

theorem popPosition_pops {choice i : ℕ} (h : d.popPosition config choice = some i) :
    ∃ popped, d.pop config i = some popped :=
  Option.isSome_iff_exists.mp (List.find?_some (p := fun i => (d.pop config i).isSome) h)

theorem memory_dequeue_serves (choice : ℕ) :
    Serves ⟨d.queue, d.inFlight⟩ ((memory config d).move (.dequeue choice))
      (d.dequeue config choice).1.toOption.join
      ⟨(d.dequeue config choice).2.queue, (d.dequeue config choice).2.inFlight⟩ := by
  unfold move MemoryDispatch.dequeue
  dsimp only
  by_cases hdown : d.shuttingDown = true
  · rw [if_pos hdown, if_pos hdown]
    exact .stay
  · rw [if_neg hdown, if_neg hdown]
    cases hpos : d.popPosition config choice with
    | none => exact .stay
    | some i =>
      obtain ⟨⟨r, d'⟩, hpop⟩ := popPosition_pops hpos
      obtain ⟨hr, hqueue, hflight⟩ := DispatchRun.pop_cases hpop
      have htake := Serves.take (q := ⟨d.queue, d.inFlight⟩) i r hr
      rw [applied, WorkQueue.apply_take hr] at htake
      rw [Option.bind_some, hpop]
      dsimp only
      rw [hqueue, hflight]
      exact htake

theorem memory_nack_serves (traceId : TraceId) (error : String) (retry : Bool) :
    Serves ⟨d.queue, d.inFlight⟩ ((memory config d).move (.nack traceId error retry)) none
      ⟨(d.nack config traceId retry).2.queue, (d.nack config traceId retry).2.inFlight⟩ := by
  unfold move nackMove MemoryDispatch.nack
  dsimp only
  cases hget : d.inFlight.get traceId with
  | none =>
    dsimp only
    rw [FiniteMap.remove_of_get_none _ hget]
    exact .stay
  | some r =>
    dsimp only
    by_cases hretry : (retry && !r.isExhausted) = true
    · rw [hretry, Bool.true_and, if_pos rfl]
      rw [Bool.and_eq_true, Bool.not_eq_true'] at hretry
      have hback := Serves.giveBack (q := ⟨d.queue, d.inFlight⟩) traceId r hget hretry.2
      rw [applied, WorkQueue.apply_giveBack hget] at hback
      rcases DispatchRun.push_cases config { d with inFlight := d.inFlight.remove traceId } r with
        ⟨hfull, heq⟩ | ⟨hroom, heq⟩
      · rw [heq, if_neg (by simpa using hfull)]
        exact .drop traceId
      · rw [heq, if_pos (by simpa using hroom)]
        exact hback
    · rw [Bool.not_eq_true] at hretry
      rw [hretry, Bool.false_and]
      exact .drop traceId

end Memory

section Raft
variable {d : RaftDispatch}

theorem raft_enqueue_serves (r : TraceRequest) :
    Serves ⟨d.pending, d.inFlight⟩ (enqueueMove r (d.enqueue r).1) none
      ⟨(d.enqueue r).2.pending, (d.enqueue r).2.inFlight⟩ := by
  unfold RaftDispatch.enqueue
  split
  · exact .stay
  · split
    · cases d.enqueueViaRaft r with
      | error e => exact .stay
      | ok u => exact .accept r
    · exact .accept r

theorem raft_dequeue_serves (choice : ℕ) :
    Serves ⟨d.pending, d.inFlight⟩ ((raft d).move (.dequeue choice)) d.dequeue.1.toOption.join
      ⟨d.dequeue.2.pending, d.dequeue.2.inFlight⟩ := by
  unfold move RaftDispatch.dequeue
  dsimp only
  by_cases hdown : d.shuttingDown = true
  · rw [hdown, Bool.true_or, if_pos rfl, if_pos rfl]
    exact .stay
  · rw [if_neg hdown]
    rw [Bool.not_eq_true] at hdown
    rw [hdown, Bool.false_or]
    cases hpending : d.pending with
    | nil =>
      change Serves ⟨[], d.inFlight⟩ .stay none ⟨d.pending, d.inFlight⟩
      rw [hpending]
      exact .stay
    | cons r pending => exact .take 0 r rfl

theorem raft_nack_serves (traceId : TraceId) (error : String) (retry : Bool) :
    Serves ⟨d.pending, d.inFlight⟩ ((raft d).move (.nack traceId error retry)) none
      ⟨(d.nack traceId error retry).2.pending, (d.nack traceId error retry).2.inFlight⟩ := by
  unfold move nackMove
  dsimp only
  generalize hout : d.nack traceId error retry = out
  have hcases := d.nack_cases traceId error retry
  rw [hout] at hcases
  cases hcases with
  | unknown hget =>
    rw [hget]
    exact .stay
  | retried r hget hretry =>
    rw [hget]
    dsimp only
    rw [hretry, Bool.true_and, if_pos rfl]
    rw [Bool.and_eq_true, Bool.not_eq_true'] at hretry
    have hback := Serves.giveBack (q := ⟨d.pending, d.inFlight⟩) traceId r hget hretry.2
    rw [applied, WorkQueue.apply_giveBack hget] at hback
    exact hback
  | failed r hget hretry hrefused =>
    rw [hget]
    dsimp only
    rw [hretry, Bool.false_and]
    exact .drop traceId
  | unrecorded r hget hretry hrefused e =>
    rw [hget]
    dsimp only
    rw [hretry, Bool.false_and]
    exact .drop traceId

theorem raft_ack_serves (traceId : TraceId) :
    Serves ⟨d.pending, d.inFlight⟩ (.drop traceId) none
      ⟨(d.ack traceId).2.pending, (d.ack traceId).2.inFlight⟩ := by
  unfold RaftDispatch.ack RaftDispatch.recorded
  dsimp only
  split
  · exact .drop traceId
  · exact .drop traceId

end Raft

theorem perform_serves (d : LocalDispatch) (call : LocalCall) :
    Serves d.holding (d.move call) (d.perform call).1 (d.perform call).2.holding := by
  cases d with
  | memory config d =>
    cases call with
    | enqueue r => exact memory_enqueue_serves r
    | dequeue choice => exact memory_dequeue_serves choice
    | ack traceId => exact .drop traceId
    | nack traceId error retry => exact memory_nack_serves traceId error retry
    | setCluster provider => exact .stay
    | shutdown => exact .stay
  | raft d =>
    cases call with
    | enqueue r => exact raft_enqueue_serves r
    | dequeue choice => exact raft_dequeue_serves choice
    | ack traceId => exact raft_ack_serves traceId
    | nack traceId error retry => exact raft_nack_serves traceId error retry
    | setCluster provider => exact .stay
    | shutdown => exact .stay

end LocalDispatch

/-! ### Following a request by its number -/

/-- A backend with its requests numbered as they are accepted, and what `dequeue` has returned. -/
structure Deliveries where
  backend : LocalDispatch
  numbered : WorkQueue TraceId (TraceRequest × ℕ)
  accepted : List TraceRequest
  returned : List (TraceRequest × ℕ)

namespace Deliveries

def start (config : LocalConfig) : Deliveries := ⟨.new config, .empty, [], []⟩

def numberTaken (x : Deliveries) : WorkQueue.Move TraceId TraceRequest → ℕ
  | .take i => (x.numbered.waiting[i]?.map Prod.snd).getD 0
  | _ => 0

def advance (x : Deliveries) (move : WorkQueue.Move TraceId TraceRequest) (returned : Option TraceRequest)
    (backend : LocalDispatch) : Deliveries where
  backend := backend
  numbered :=
    x.numbered.applyNumbered TraceRequest.traceId TraceRequest.incrementAttempt x.accepted.length move
  accepted :=
    match move with
    | .accept r => x.accepted ++ [r]
    | _ => x.accepted
  returned :=
    match returned with
    | some r => x.returned ++ [(r, x.numberTaken move)]
    | none => x.returned

def step (x : Deliveries) (call : LocalCall) : Deliveries :=
  x.advance (x.backend.move call) (x.backend.perform call).1 (x.backend.perform call).2

def run (config : LocalConfig) (calls : List LocalCall) : Deliveries := calls.foldl step (start config)

def deliveries (x : Deliveries) (n : ℕ) : List TraceRequest :=
  (x.returned.filter fun p => p.2 = n).map Prod.fst

def onAttempt (r : TraceRequest) (k : ℕ) : TraceRequest := { r with attempt := UInt32.ofNat k }

/-- Where the request `r` with number `n` stands after `k` deliveries. -/
structure Progress (x : Deliveries) (n : ℕ) (r : TraceRequest) (k : ℕ) : Prop where
  count : (x.deliveries n).length = k
  bound : k ≤ max 1 r.maxAttempts.toNat
  delivered : ∀ j d, (x.deliveries n)[j]? = some d → d = onAttempt r (j + 1)
  waiting : ∀ d, (d, n) ∈ x.numbered.waiting → d = onAttempt r k ∧ (k = 0 ∨ k < r.maxAttempts.toNat)
  held : ∀ traceId d, x.numbered.held.get traceId = some (d, n) → d = onAttempt r k

/-- What holds after every sequence of calls. -/
structure Tracked (x : Deliveries) : Prop where
  covers : x.numbered.Covers x.backend.holding
  distinct : x.numbered.Distinct
  below : x.numbered.Below x.accepted.length
  returned : ∀ p ∈ x.returned, p.2 < x.accepted.length
  progress : ∀ n r, x.accepted[n]? = some r → r.attempt = 0 → ∃ k, x.Progress n r k

variable {x : Deliveries} {backend : LocalDispatch}

theorem increment_onAttempt (r : TraceRequest) (k : ℕ) :
    (onAttempt r k).incrementAttempt = onAttempt r (k + 1) := by
  unfold onAttempt TraceRequest.incrementAttempt
  rw [UInt32.ofNat_add]
  rfl

theorem onAttempt_zero (r : TraceRequest) (h : r.attempt = 0) : r = onAttempt r 0 := by
  change r = { r with attempt := 0 }
  rw [← h]

theorem toNat_attempt (r : TraceRequest) {k : ℕ} (h : k ≤ max 1 r.maxAttempts.toNat) :
    (onAttempt r k).attempt.toNat = k := by
  have hmax := r.maxAttempts.toNat_lt
  have hk : k < 2 ^ 32 := by omega
  exact UInt32.toNat_ofNat_of_lt' hk

theorem attempts_left (r : TraceRequest) {k : ℕ} (hk : k ≤ max 1 r.maxAttempts.toNat)
    (h : (onAttempt r k).isExhausted = false) : k < r.maxAttempts.toNat := by
  unfold TraceRequest.isExhausted at h
  rw [decide_eq_false_iff_not, UInt32.le_iff_toNat_le, toNat_attempt r hk] at h
  exact Nat.lt_of_not_le h

theorem Progress.kept {x' : Deliveries} {n k : ℕ} {r : TraceRequest} (h : x.Progress n r k)
    (hreturned : x'.deliveries n = x.deliveries n)
    (hwaiting : ∀ d, (d, n) ∈ x'.numbered.waiting → (d, n) ∈ x.numbered.waiting)
    (hheld : ∀ t d, x'.numbered.held.get t = some (d, n) → x.numbered.held.get t = some (d, n)) :
    x'.Progress n r k := by
  refine ⟨?_, h.bound, ?_, fun d hd => h.waiting d (hwaiting d hd), fun t d hd => h.held t d (hheld t d hd)⟩
  · rw [hreturned]
    exact h.count
  · rw [hreturned]
    exact h.delivered

theorem Tracked.accept (h : x.Tracked) (r : TraceRequest) (n : ℕ) (r₀ : TraceRequest)
    (hr₀ : (x.accepted ++ [r])[n]? = some r₀) (hzero : r₀.attempt = 0) :
    ∃ k, (x.advance (.accept r) none backend).Progress n r₀ k := by
  rcases getElem?_concat_cases hr₀ with ⟨hn, hold⟩ | ⟨rfl, rfl⟩
  · obtain ⟨k, hk⟩ := h.progress n r₀ hold hzero
    refine ⟨k, hk.kept rfl (fun d hd => ?_) fun _ _ hd => hd⟩
    rcases List.mem_append.mp hd with hold | hlast
    · exact hold
    · have hnew := (Prod.mk.inj (List.mem_singleton.mp hlast)).2
      omega
  · -- the number is new: nothing that was there before carries it
    have hnone : x.deliveries x.accepted.length = [] := by
      unfold deliveries
      rw [List.map_eq_nil_iff, List.filter_eq_nil_iff]
      intro p hp hpn
      have hlt := h.returned p hp
      rw [of_decide_eq_true hpn] at hlt
      exact hlt.false
    refine ⟨0, ?_, Nat.zero_le _, ?_, ?_, ?_⟩
    · change (x.deliveries x.accepted.length).length = 0
      rw [hnone]
      rfl
    · intro j d hd
      change (x.deliveries x.accepted.length)[j]? = some d at hd
      rw [hnone] at hd
      cases hd
    · intro d hd
      rcases List.mem_append.mp hd with hold | hlast
      · exact absurd (h.below.waiting _ hold) (lt_irrefl _)
      · rw [(Prod.mk.inj (List.mem_singleton.mp hlast)).1]
        exact ⟨onAttempt_zero r hzero, .inl rfl⟩
    · intro t d hd
      exact absurd (h.below.held t _ hd) (lt_irrefl _)

theorem deliveries_append (x' : Deliveries) (d : TraceRequest) (m n : ℕ)
    (h : x'.returned = x.returned ++ [(d, m)]) :
    x'.deliveries n = x.deliveries n ++ if m = n then [d] else [] := by
  unfold deliveries
  rw [h]
  rw [List.filter_append, List.map_append]
  by_cases hmn : m = n
  · simp [hmn]
  · simp [hmn]

theorem Tracked.take (h : x.Tracked) {i : ℕ} {r : TraceRequest}
    (hr : x.backend.holding.waiting[i]? = some r) (n : ℕ) (r₀ : TraceRequest)
    (hr₀ : x.accepted[n]? = some r₀) (hzero : r₀.attempt = 0) :
    ∃ k, (x.advance (.take i) (some r.incrementAttempt) backend).Progress n r₀ k := by
  obtain ⟨m, hm⟩ := h.covers.waiting_at hr
  obtain ⟨k, hk⟩ := h.progress n r₀ hr₀ hzero
  have hgone := h.distinct.taken_gone hm
  have hmem := List.mem_of_getElem? hm
  have hnumber : m ∈ x.numbered.waiting.map Prod.snd := List.mem_map_of_mem hmem
  have htaken : x.numberTaken (.take i) = m := by
    rw [numberTaken, hm]
    rfl
  have hdeliveries : (x.advance (.take i) (some r.incrementAttempt) backend).deliveries n =
      x.deliveries n ++ if m = n then [r.incrementAttempt] else [] := by
    rw [← htaken]
    exact deliveries_append _ _ _ n rfl
  have hqueue : (x.advance (.take i) (some r.incrementAttempt) backend).numbered =
      ⟨x.numbered.waiting.eraseIdx i, x.numbered.held.insert r.traceId (r.incrementAttempt, m)⟩ := by
    simp only [advance, WorkQueue.applyNumbered, WorkQueue.apply, hm]
    rfl
  by_cases hmn : m = n
  · subst hmn
    obtain ⟨hrk, hleft⟩ := hk.waiting r hmem
    have hnext : r.incrementAttempt = onAttempt r₀ (k + 1) := by rw [hrk, increment_onAttempt]
    rw [if_pos rfl] at hdeliveries
    refine ⟨k + 1, ?_, by omega, ?_, ?_, ?_⟩
    · rw [hdeliveries, List.length_append, hk.count]
      rfl
    · intro j d hd
      rw [hdeliveries] at hd
      rcases getElem?_concat_cases hd with ⟨-, hold⟩ | ⟨rfl, rfl⟩
      · exact hk.delivered j d hold
      · rw [hk.count, hnext]
    · intro d hd
      rw [hqueue] at hd
      exact absurd (List.mem_map_of_mem (f := Prod.snd) hd) hgone
    · intro t d hd
      rw [hqueue] at hd
      rcases FiniteMap.get_insert_some _ hd with ⟨-, heq⟩ | ⟨-, hold⟩
      · rw [(Prod.mk.inj heq).1, hnext]
      · exact absurd hnumber (h.distinct.apart t _ hold)
  · rw [if_neg hmn, List.append_nil] at hdeliveries
    refine ⟨k, hk.kept hdeliveries (fun d hd => ?_) fun t d hd => ?_⟩
    · rw [hqueue] at hd
      exact (List.eraseIdx_sublist _ _).subset hd
    · rw [hqueue] at hd
      rcases FiniteMap.get_insert_some _ hd with ⟨-, heq⟩ | ⟨-, hold⟩
      · exact absurd (Prod.mk.inj heq).2.symm hmn
      · exact hold

theorem Tracked.giveBack (h : x.Tracked) {t : TraceId} {r : TraceRequest}
    (hr : x.backend.holding.held.get t = some r) (hleft : r.isExhausted = false) (n : ℕ)
    (r₀ : TraceRequest) (hr₀ : x.accepted[n]? = some r₀) (hzero : r₀.attempt = 0) :
    ∃ k, (x.advance (.giveBack t) none backend).Progress n r₀ k := by
  obtain ⟨m, hm⟩ := h.covers.held_at hr
  obtain ⟨k, hk⟩ := h.progress n r₀ hr₀ hzero
  have hqueue : (x.advance (.giveBack t) none backend).numbered =
      ⟨x.numbered.waiting ++ [(r, m)], x.numbered.held.remove t⟩ := by
    simp only [advance, WorkQueue.applyNumbered, WorkQueue.apply, hm]
  refine ⟨k, hk.count, hk.bound, hk.delivered, ?_, ?_⟩
  · intro d hd
    rw [hqueue] at hd
    rcases List.mem_append.mp hd with hold | hlast
    · exact hk.waiting d hold
    · obtain ⟨rfl, rfl⟩ := Prod.mk.inj (List.mem_singleton.mp hlast)
      have heq := hk.held t d hm
      rw [heq] at hleft
      exact ⟨heq, .inr (attempts_left r₀ hk.bound hleft)⟩
  · intro t' d hd
    rw [hqueue] at hd
    exact hk.held t' d (FiniteMap.get_remove_some _ hd).2

theorem length_accepted (x : Deliveries) (backend : LocalDispatch) (move : WorkQueue.Move TraceId TraceRequest)
    (returned : Option TraceRequest) :
    x.accepted.length ≤ (x.advance move returned backend).accepted.length ∧
      ∀ r, move = .accept r → x.accepted.length < (x.advance move returned backend).accepted.length := by
  cases move with
  | accept r =>
    change _ ≤ (x.accepted ++ [r]).length ∧ ∀ r', _ → _ < (x.accepted ++ [r]).length
    rw [List.length_append, List.length_singleton]
    exact ⟨Nat.le_succ _, fun _ _ => Nat.lt_succ_self _⟩
  | _ => exact ⟨le_rfl, nofun⟩

theorem Tracked.numberTaken_lt (h : x.Tracked) {i : ℕ} {r : TraceRequest}
    (hr : x.backend.holding.waiting[i]? = some r) : x.numberTaken (.take i) < x.accepted.length := by
  obtain ⟨m, hm⟩ := h.covers.waiting_at hr
  rw [numberTaken, hm]
  exact h.below.waiting _ (List.mem_of_getElem? hm)

theorem Tracked.advance (h : x.Tracked) {move : WorkQueue.Move TraceId TraceRequest}
    {returned : Option TraceRequest}
    (hs : LocalDispatch.Serves x.backend.holding move returned backend.holding) :
    (x.advance move returned backend).Tracked := by
  obtain ⟨hle, hnew⟩ := x.length_accepted backend move returned
  refine ⟨?_, h.distinct.applyNumbered h.below move, h.below.applyNumbered move hle hnew, ?_, ?_⟩
  · have hcovers : (x.advance move returned backend).numbered.Covers
        (LocalDispatch.applied x.backend.holding move) := h.covers.applyNumbered move
    rw [← hs.result] at hcovers
    exact hcovers
  · intro p hp
    refine lt_of_lt_of_le ?_ hle
    generalize backend.holding = after at hs
    cases hs with
    | take i r hr =>
      rcases List.mem_append.mp hp with hold | hlast
      · exact h.returned p hold
      · rw [List.mem_singleton.mp hlast]
        exact h.numberTaken_lt hr
    | _ => exact h.returned p hp
  · intro n r₀ hr₀ hzero
    generalize backend.holding = after at hs
    cases hs with
    | stay =>
      obtain ⟨k, hk⟩ := h.progress n r₀ hr₀ hzero
      exact ⟨k, hk.kept rfl (fun _ hd => hd) fun _ _ hd => hd⟩
    | accept r => exact h.accept r n r₀ hr₀ hzero
    | take i r hr => exact h.take hr n r₀ hr₀ hzero
    | drop t =>
      obtain ⟨k, hk⟩ := h.progress n r₀ hr₀ hzero
      exact ⟨k, hk.kept rfl (fun _ hd => hd) fun _ _ hd => (FiniteMap.get_remove_some _ hd).2⟩
    | giveBack t r hr hleft => exact h.giveBack hr hleft n r₀ hr₀ hzero

theorem tracked_start (config : LocalConfig) : (start config).Tracked := by
  refine ⟨?_, ?_, ?_, List.forall_mem_nil _, nofun⟩
  · cases config with
    | memory config => exact ⟨rfl, fun _ => rfl⟩
    | raft => exact ⟨rfl, fun _ => rfl⟩
  · exact ⟨List.nodup_nil, nofun, nofun⟩
  · exact ⟨List.forall_mem_nil _, nofun⟩

theorem tracked_run (config : LocalConfig) (calls : List LocalCall) : (run config calls).Tracked := by
  unfold run
  induction calls using List.reverseRecOn with
  | nil => exact tracked_start config
  | append_singleton calls call ih =>
    rw [Machine.foldl_concat]
    exact ih.advance (LocalDispatch.perform_serves _ call)

/-- In `MemoryDispatch`, with any queue size and first in first out or by priority, and in `RaftDispatch`,
with or without a cluster whose calls fail at any time: after every sequence of calls, a request that was
enqueued with attempt 0 has been returned at most `max 1 max_attempts` times, and the `k`-th time as it
was enqueued but for its attempt, which is `k`. -/
theorem returned_within_attempts (config : LocalConfig) (calls : List LocalCall) (n : ℕ) (r : TraceRequest)
    (haccepted : (run config calls).accepted[n]? = some r) (hzero : r.attempt = 0) :
    ((run config calls).deliveries n).length ≤ max 1 r.maxAttempts.toNat ∧
      ∀ k d, ((run config calls).deliveries n)[k]? = some d →
        d.attempt.toNat = k + 1 ∧ d = { r with attempt := d.attempt } := by
  obtain ⟨m, hm⟩ := (tracked_run config calls).progress n r haccepted hzero
  refine ⟨hm.count.le.trans hm.bound, fun k d hd => ?_⟩
  have hk : k < m := by
    rw [← hm.count]
    exact (List.getElem?_eq_some_iff.mp hd).1
  have heq := hm.delivered k d hd
  rw [heq]
  exact ⟨toNat_attempt r (hk.trans_le hm.bound), rfl⟩

def twiceRequest : TraceRequest := ⟨sampleTrace, 1000, 0, 0, 2⟩

def retriedCalls : List LocalCall :=
  [.enqueue twiceRequest, .dequeue 0, .nack sampleTrace "timeout" true, .dequeue 0,
    .nack sampleTrace "timeout" true, .dequeue 0]

theorem retried_returned_twice :
    (run (.memory ⟨1, true⟩) retriedCalls).accepted[0]? = some twiceRequest ∧
      ((run (.memory ⟨1, true⟩) retriedCalls).deliveries 0).length = 2 ∧
      ∀ k d, ((run (.memory ⟨1, true⟩) retriedCalls).deliveries 0)[k]? = some d →
        d.attempt.toNat = k + 1 ∧ d = { twiceRequest with attempt := d.attempt } := by
  have haccepted : (run (.memory ⟨1, true⟩) retriedCalls).accepted[0]? = some twiceRequest := by
    decide
  have hbound := returned_within_attempts (.memory ⟨1, true⟩) retriedCalls 0 twiceRequest haccepted rfl
  exact ⟨haccepted, by decide, hbound.2⟩

end Deliveries
end Xerv.Dispatch
