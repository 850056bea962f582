import Xerv.Dispatch.Nats
import Xerv.Dispatch.Redis

/-!
# Retries through a broker (`xerv-core/src/dispatch/{redis,nats}.rs`)

The broker hands a message out again with the payload it was published with. The runs here are those
in which one request is enqueued once and every delivery of it is followed by a nack with retry, among
any calls for other traces.
-/

namespace Xerv.Dispatch
open Xerv.Lib

inductive BrokerConfig where
  | redisStreams
  | nats

inductive BrokerDispatch where
  | redis (s : RedisStore)
  | nats (d : NatsDispatch)

structure BrokerAnswers where
  redis : RedisAnswers
  nats : NatsAnswers

inductive BrokerCall where
  | enqueue (r : TraceRequest) (answers : BrokerAnswers)
  | dequeue (answers : BrokerAnswers)
  | ack (traceId : TraceId) (answers : BrokerAnswers)
  | nack (traceId : TraceId) (error : String) (retry : Bool) (answers : BrokerAnswers)
  | shutdown

namespace BrokerDispatch

def new : BrokerConfig → BrokerDispatch
  | .redisStreams => .redis .empty
  | .nats => .nats (.new true)

/-- The request that the call returns, if it is a dequeue that returns one. The flag of a Redis worker
comes with its calls. -/
def perform : BrokerDispatch → BrokerCall → Option TraceRequest × BrokerDispatch
  | .redis s, .enqueue r answers => (none, .redis (s.enqueue true answers.redis r).2)
  | .redis s, .dequeue answers =>
    ((s.dequeue true answers.redis).1.toOption.join, .redis (s.dequeue true answers.redis).2)
  | .redis s, .ack traceId answers => (none, .redis (s.ack true answers.redis traceId).2)
  | .redis s, .nack traceId _ retry answers => (none, .redis (s.nack true answers.redis traceId retry).2)
  | .redis s, .shutdown => (none, .redis s)
  | .nats d, .enqueue r answers => (none, .nats (d.enqueue answers.nats r).2)
  | .nats d, .dequeue answers =>
    ((d.dequeue answers.nats).1.toOption.join, .nats (d.dequeue answers.nats).2)
  | .nats d, .ack traceId answers => (none, .nats (d.ack answers.nats traceId).2)
  | .nats d, .nack traceId _ retry answers => (none, .nats (d.nack answers.nats traceId retry).2)
  | .nats d, .shutdown => (none, .nats d.shutdown)

end BrokerDispatch

/-- The backend, and how often the request was delivered; a delivery awaits its nack. -/
structure RetryRun where
  backend : BrokerDispatch
  enqueued : Bool
  awaiting : Bool
  delivered : ℕ

namespace RetryRun

def start (config : BrokerConfig) : RetryRun := ⟨.new config, false, false, 0⟩

def heard (answers : BrokerAnswers) : Bool := answers.nats.ackWith.arrives

/-- The calls of the runs: `r` is enqueued once, and nacked with retry where a delivery awaits it. -/
def allowed (r : TraceRequest) (x : RetryRun) : BrokerCall → Bool
  | .enqueue r' _ => r'.traceId ≠ r.traceId || (r' = r && !x.enqueued)
  | .dequeue _ => true
  | .ack traceId _ => traceId ≠ r.traceId
  | .nack traceId _ retry answers => traceId ≠ r.traceId || (retry && x.awaiting && heard answers)
  | .shutdown => true

def delivers (r : TraceRequest) (returned : Option TraceRequest) : Bool :=
  returned.any fun r' => r'.traceId = r.traceId

/-- What the call returned and left behind; no delivery before the nack of the one before. -/
def record (r : TraceRequest) (x : RetryRun) (returned : Option TraceRequest) (backend : BrokerDispatch) :
    BrokerCall → Option RetryRun
  | .enqueue r' _ => some { x with backend, enqueued := x.enqueued || r'.traceId = r.traceId }
  | .dequeue _ =>
    if delivers r returned then
      if x.awaiting then none
      else some { x with backend, awaiting := true, delivered := x.delivered + 1 }
    else some { x with backend }
  | .nack traceId _ _ _ => some { x with backend, awaiting := x.awaiting && traceId ≠ r.traceId }
  | _ => some { x with backend }

def step (r : TraceRequest) (x : RetryRun) (call : BrokerCall) : Option RetryRun :=
  if x.allowed r call then x.record r (x.backend.perform call).1 (x.backend.perform call).2 call else none

/-- In every such run the request is delivered at most `max_attempts` times. -/
def Bounded (config : BrokerConfig) (r : TraceRequest) : Prop :=
  ∀ calls x, Machine.run (step r) (start config) calls = some x → x.delivered ≤ r.maxAttempts.toNat

/-! ### Calls for other traces -/

section Elsewhere
variable {r : TraceRequest} {d d' : NatsDispatch}

/-- Every copy in flight is kept under its own trace. -/
def Keyed (d : NatsDispatch) : Prop := ∀ traceId seq copy,
  d.inFlight.get traceId = some (seq, copy) → copy.traceId = traceId

/-- Nothing about the trace of `r` has changed, but that messages may be settled. -/
structure Elsewhere (r : TraceRequest) (d d' : NatsDispatch) : Prop where
  messages : ∃ extra, d'.server.messages = d.server.messages ++ extra ∧ ∀ m ∈ extra, m.traceId ≠ r.traceId
  settled : d.server.settled ⊆ d'.server.settled
  inFlight : d'.inFlight.get r.traceId = d.inFlight.get r.traceId
  keyed : Keyed d'

theorem Elsewhere.refl (h : Keyed d) : Elsewhere r d d :=
  ⟨⟨[], (List.append_nil _).symm, List.forall_mem_nil _⟩, List.Subset.refl _, rfl, h⟩

theorem elsewhere_publish (h : Elsewhere r d d') (hmessages : d'.server.messages = d.server.messages)
    (sent : Sent) {m : TraceRequest} (hm : m.traceId ≠ r.traceId) :
    Elsewhere r d { d' with server := d'.server.publish sent m } := by
  unfold JetStream.publish
  split
  · refine ⟨⟨[m], ?_, ?_⟩, h.settled, h.inFlight, h.keyed⟩
    · dsimp only
      rw [hmessages]
    · intro m' hm'
      rw [List.mem_singleton.mp hm']
      exact hm
  · exact h

theorem elsewhere_settle (h : Elsewhere r d d') (sent : Sent) (seq : ℕ) :
    Elsewhere r d { d' with server := d'.server.settle sent seq } := by
  unfold JetStream.settle
  split
  · exact ⟨h.messages, List.Subset.trans h.settled (List.subset_append_left _ _), h.inFlight, h.keyed⟩
  · exact h

theorem elsewhere_remove (h : Keyed d) {traceId : TraceId} (ht : traceId ≠ r.traceId) :
    Elsewhere r d { d with inFlight := d.inFlight.remove traceId } := by
  refine ⟨⟨[], (List.append_nil _).symm, List.forall_mem_nil _⟩, List.Subset.refl _, ?_, ?_⟩
  · exact FiniteMap.get_remove_ne _ (Ne.symm ht)
  · intro t seq copy hget
    exact h t seq copy (FiniteMap.get_remove_some _ hget).2

theorem enqueue_elsewhere (h : Keyed d) (answers : NatsAnswers) {m : TraceRequest}
    (hm : m.traceId ≠ r.traceId) : Elsewhere r d (d.enqueue answers m).2 := by
  unfold NatsDispatch.enqueue
  split
  · exact .refl h
  · dsimp only
    split
    · exact elsewhere_publish (.refl h) rfl answers.publish hm
    · exact .refl h

/-- What `dequeue` returns and leaves. -/
inductive Fetched (d : NatsDispatch) : Option TraceRequest → NatsDispatch → Prop
  | nothing : Fetched d none d
  | message (seq : ℕ) (m : TraceRequest) (hmessage : d.server.message seq = some m) :
      Fetched d (some m.incrementAttempt)
        { d with inFlight := d.inFlight.insert m.traceId (seq, m.incrementAttempt) }

theorem dequeue_fetched (d : NatsDispatch) (answers : NatsAnswers) :
    Fetched d (d.dequeue answers).1.toOption.join (d.dequeue answers).2 := by
  unfold NatsDispatch.dequeue
  split
  · exact .nothing
  · split
    · exact .nothing
    · split
      · exact .nothing
      · rename_i fetched hfetch
        split
        · exact .nothing
        · rename_i seq copy hcopy
          obtain ⟨seq', -, hmessage⟩ := Option.bind_eq_some_iff.mp hcopy
          obtain ⟨m, hm, heq⟩ := Option.map_eq_some_iff.mp hmessage
          cases heq
          exact .message seq m hm

theorem fetched_elsewhere (h : Keyed d) {returned : Option TraceRequest} (hf : Fetched d returned d')
    (hother : delivers r returned = false) : Elsewhere r d d' := by
  cases hf with
  | nothing => exact .refl h
  | message seq m hm =>
    have hne : m.traceId ≠ r.traceId := by simpa [delivers, TraceRequest.incrementAttempt] using hother
    refine ⟨⟨[], (List.append_nil _).symm, List.forall_mem_nil _⟩, List.Subset.refl _, ?_, ?_⟩
    · exact FiniteMap.get_insert_ne _ _ (Ne.symm hne)
    · intro t seq' copy hget
      rcases FiniteMap.get_insert_some _ hget with ⟨ht, heq⟩ | ⟨-, hold⟩
      · cases heq
        exact ht.symm
      · exact h t seq' copy hold

theorem ack_elsewhere (h : Keyed d) (answers : NatsAnswers) {traceId : TraceId} (ht : traceId ≠ r.traceId) :
    Elsewhere r d (d.ack answers traceId).2 := by
  have hremoved := elsewhere_remove h ht
  unfold NatsDispatch.ack
  dsimp only
  split
  · exact hremoved
  · exact elsewhere_settle hremoved _ _

theorem nack_elsewhere (h : Keyed d) (answers : NatsAnswers) {traceId : TraceId} (ht : traceId ≠ r.traceId)
    (retry : Bool) : Elsewhere r d (d.nack answers traceId retry).2 := by
  have hremoved := elsewhere_remove h ht
  unfold NatsDispatch.nack
  dsimp only
  split
  · exact hremoved
  · rename_i seq copy hget
    split
    · split
      · exact hremoved
      · split
        · refine elsewhere_publish hremoved rfl _ ?_
          rw [h traceId seq copy hget]
          exact ht
        · exact hremoved
    · exact elsewhere_settle hremoved _ _

end Elsewhere

/-! ### A request that its first delivery exhausts -/

/-- What holds in the runs of `r` on `NatsDispatch`: it is on the server at most once, delivered at most
once, and settled when the nack of its delivery has been made. -/
structure Once (r : TraceRequest) (d : NatsDispatch) (x : RetryRun) : Prop where
  backend : x.backend = .nats d
  keyed : Keyed d
  copies : ∀ (seq : ℕ) m, d.server.messages[seq]? = some m → m.traceId = r.traceId → m = r ∧ x.enqueued = true
  single : ∀ (seq seq' : ℕ) m m', d.server.messages[seq]? = some m → d.server.messages[seq']? = some m' →
    m.traceId = r.traceId → m'.traceId = r.traceId → seq = seq'
  undelivered : x.delivered = 0 → x.awaiting = false
  held : x.awaiting = true → ∃ seq, d.inFlight.get r.traceId = some (seq, r.incrementAttempt) ∧
    d.server.messages[seq]? = some r
  settled : x.delivered ≠ 0 → x.awaiting = false → ∀ (seq : ℕ) m, d.server.messages[seq]? = some m →
    m.traceId = r.traceId → seq ∈ d.server.settled
  entered : x.delivered ≠ 0 → x.enqueued = true
  once : x.delivered ≤ 1

section Exhausted
variable {r : TraceRequest} {d d' : NatsDispatch} {x : RetryRun}

theorem Elsewhere.message (h : Elsewhere r d d') {seq : ℕ} {m : TraceRequest}
    (hm : d'.server.messages[seq]? = some m) (ht : m.traceId = r.traceId) :
    d.server.messages[seq]? = some m := by
  obtain ⟨extra, heq, hextra⟩ := h.messages
  rw [heq] at hm
  by_cases hseq : seq < d.server.messages.length
  · rwa [List.getElem?_append_left hseq] at hm
  · rw [List.getElem?_append_right (Nat.le_of_not_lt hseq)] at hm
    exact absurd ht (hextra m (List.mem_of_getElem? hm))

theorem Elsewhere.stays (h : Elsewhere r d d') {seq : ℕ} {m : TraceRequest}
    (hm : d.server.messages[seq]? = some m) : d'.server.messages[seq]? = some m := by
  obtain ⟨extra, heq, -⟩ := h.messages
  exact getElem?_of_prefix ⟨extra, heq.symm⟩ hm

theorem Once.elsewhere (h : Once r d x) (he : Elsewhere r d d') : Once r d' { x with backend := .nats d' } where
  backend := rfl
  keyed := he.keyed
  copies seq m hm ht := h.copies seq m (he.message hm ht) ht
  single seq seq' m m' hm hm' ht ht' := h.single seq seq' m m' (he.message hm ht) (he.message hm' ht') ht ht'
  undelivered := h.undelivered
  held hawaiting := by
    obtain ⟨seq, hget, hm⟩ := h.held hawaiting
    exact ⟨seq, he.inFlight.trans hget, he.stays hm⟩
  settled hdelivered hawaiting seq m hm ht :=
    he.settled (h.settled hdelivered hawaiting seq m (he.message hm ht) ht)
  entered := h.entered
  once := h.once

theorem Once.enters (h : Once r d x) (hnew : x.enqueued = false) (answers : NatsAnswers) :
    Once r (d.enqueue answers r).2 { x with backend := .nats (d.enqueue answers r).2, enqueued := true } := by
  have hnone : x.delivered = 0 := by
    by_contra hdelivered
    rw [h.entered hdelivered] at hnew
    cases hnew
  have hawaiting : x.awaiting = false := h.undelivered hnone
  have habsent {seq : ℕ} {m : TraceRequest} (hm : d.server.messages[seq]? = some m) :
      m.traceId ≠ r.traceId := by
    intro ht
    rw [(h.copies seq m hm ht).2] at hnew
    cases hnew
  -- at most one message is published, and it is the request
  have hmessages : (d.enqueue answers r).2.server.messages = d.server.messages ∨
      (d.enqueue answers r).2.server.messages = d.server.messages ++ [r] := by
    unfold NatsDispatch.enqueue JetStream.publish
    split_ifs
    all_goals first | exact .inl rfl | exact .inr rfl
  have hkeyed : Keyed (d.enqueue answers r).2 := by
    unfold NatsDispatch.enqueue
    split_ifs
    all_goals exact h.keyed
  have honly {seq : ℕ} {m : TraceRequest} (hm : (d.enqueue answers r).2.server.messages[seq]? = some m)
      (ht : m.traceId = r.traceId) : m = r ∧ seq = d.server.messages.length := by
    rcases hmessages with heq | heq
    · rw [heq] at hm
      exact absurd ht (habsent hm)
    · rw [heq] at hm
      rcases getElem?_concat_cases hm with ⟨-, hold⟩ | ⟨hseq, rfl⟩
      · exact absurd ht (habsent hold)
      · exact ⟨rfl, hseq⟩
  refine ⟨rfl, hkeyed, fun seq m hm ht => ⟨(honly hm ht).1, rfl⟩, ?_, fun _ => hawaiting, ?_, ?_, ?_, h.once⟩
  · intro seq seq' m m' hm hm' ht ht'
    rw [(honly hm ht).2, (honly hm' ht').2]
  · intro hyes
    change x.awaiting = true at hyes
    rw [hawaiting] at hyes
    cases hyes
  · exact fun hdelivered => absurd hnone hdelivered
  · exact fun hdelivered => absurd hnone hdelivered

/-- The one delivery: while it awaits its nack no other is made, and afterwards the message is settled. -/
theorem Once.delivers (h : Once r d x) {returned : Option TraceRequest} (hf : Fetched d returned d')
    (hthis : RetryRun.delivers r returned = true) (hawaiting : x.awaiting = false) :
    Once r d' { x with backend := .nats d', awaiting := true, delivered := x.delivered + 1 } := by
  cases hf with
  | nothing => cases hthis
  | message seq m hmessage =>
    have ht : m.traceId = r.traceId := by
      simpa [RetryRun.delivers, TraceRequest.incrementAttempt] using hthis
    obtain ⟨hlive, hm⟩ : seq ∉ d.server.settled ∧ d.server.messages[seq]? = some m := by
      unfold JetStream.message at hmessage
      split at hmessage
      · cases hmessage
      · rename_i hlive
        exact ⟨hlive, hmessage⟩
    obtain ⟨rfl, hentered⟩ := h.copies seq m hm ht
    have hnone : x.delivered = 0 := by
      by_contra hdelivered
      exact hlive (h.settled hdelivered hawaiting seq m hm ht)
    refine ⟨rfl, ?_, h.copies, h.single, ?_, fun _ => ⟨seq, ?_, hm⟩, ?_, fun _ => hentered, ?_⟩
    · intro t seq' copy hget
      rcases FiniteMap.get_insert_some _ hget with ⟨ht', heq⟩ | ⟨-, hold⟩
      · cases heq
        exact ht'.symm
      · exact h.keyed t seq' copy hold
    · intro hzero
      cases hzero
    · exact FiniteMap.get_insert_self _ _ _
    · intro _ hnot
      cases hnot
    · dsimp only
      omega

theorem Once.nacked (h : Once r d x) (hexhausted : r.incrementAttempt.isExhausted = true)
    (hawaiting : x.awaiting = true) (answers : NatsAnswers) (harrives : answers.ackWith.arrives = true) :
    Once r (d.nack answers r.traceId true).2
      { x with backend := .nats (d.nack answers r.traceId true).2, awaiting := false } := by
  obtain ⟨seq, hget, hm⟩ := h.held hawaiting
  have hnack : (d.nack answers r.traceId true).2 =
      { d with inFlight := d.inFlight.remove r.traceId
               server := { d.server with settled := d.server.settled ++ [seq] } } := by
    unfold NatsDispatch.nack
    rw [hget]
    dsimp only
    rw [hexhausted, Bool.not_true, Bool.and_false, if_neg nofun, JetStream.settle, if_pos harrives]
  rw [hnack]
  have hdelivered : x.delivered ≠ 0 := by
    intro hzero
    rw [h.undelivered hzero] at hawaiting
    cases hawaiting
  refine ⟨rfl, ?_, h.copies, h.single, fun _ => rfl, ?_, ?_, h.entered, h.once⟩
  · intro t seq' copy hget'
    exact h.keyed t seq' copy (FiniteMap.get_remove_some _ hget').2
  · intro hno
    cases hno
  · intro _ _ seq' m hm' ht
    obtain rfl : seq' = seq := h.single seq' seq m r hm' hm ht rfl
    exact List.mem_append_right _ (List.mem_singleton_self _)

theorem step_allowed {x' : RetryRun} {call : BrokerCall} (hs : x.step r call = some x') :
    x.allowed r call = true ∧
      x.record r (x.backend.perform call).1 (x.backend.perform call).2 call = some x' := by
  unfold step at hs
  split at hs
  · rename_i hallowed
    exact ⟨hallowed, hs⟩
  · cases hs

theorem Once.record_enqueue (h : Once r d x) (m : TraceRequest) (answers : BrokerAnswers) {x' : RetryRun}
    (hallowed : x.allowed r (.enqueue m answers) = true)
    (hs : x.record r none (.nats (d.enqueue answers.nats m).2) (.enqueue m answers) = some x') :
    ∃ d', Once r d' x' := by
  cases hs
  by_cases ht : m.traceId = r.traceId
  · have hthis : (m = r && !x.enqueued) = true := by simpa [allowed, ht] using hallowed
    rw [Bool.and_eq_true, decide_eq_true_eq, Bool.not_eq_true'] at hthis
    obtain ⟨rfl, hnew⟩ := hthis
    refine ⟨(d.enqueue answers.nats m).2, ?_⟩
    rw [decide_eq_true rfl, Bool.or_true]
    exact h.enters hnew answers.nats
  · refine ⟨(d.enqueue answers.nats m).2, ?_⟩
    rw [decide_eq_false ht, Bool.or_false]
    exact h.elsewhere (enqueue_elsewhere h.keyed answers.nats ht)

theorem Once.record_dequeue (h : Once r d x) (answers : BrokerAnswers) {returned : Option TraceRequest}
    (hf : Fetched d returned d') {x' : RetryRun}
    (hs : x.record r returned (.nats d') (.dequeue answers) = some x') : Once r d' x' := by
  unfold record at hs
  dsimp only at hs
  split at hs
  · rename_i hthis
    split at hs
    · cases hs
    · rename_i hawaiting
      cases hs
      exact h.delivers hf hthis (Bool.not_eq_true _ ▸ hawaiting)
  · rename_i hother
    cases hs
    exact h.elsewhere (fetched_elsewhere h.keyed hf (Bool.not_eq_true _ ▸ hother))

theorem Once.record_nack (h : Once r d x) (hexhausted : r.incrementAttempt.isExhausted = true)
    (traceId : TraceId) (error : String) (retry : Bool) (answers : BrokerAnswers) {x' : RetryRun}
    (hallowed : x.allowed r (.nack traceId error retry answers) = true)
    (hs : x.record r none (.nats (d.nack answers.nats traceId retry).2) (.nack traceId error retry answers) =
      some x') : ∃ d', Once r d' x' := by
  cases hs
  refine ⟨(d.nack answers.nats traceId retry).2, ?_⟩
  by_cases ht : traceId = r.traceId
  · have hthis : (retry && x.awaiting && heard answers) = true := by simpa [allowed, ht] using hallowed
    rw [Bool.and_eq_true, Bool.and_eq_true] at hthis
    obtain ⟨⟨rfl, hawaiting⟩, harrives⟩ := hthis
    rw [ht, decide_eq_false (not_not_intro rfl), Bool.and_false]
    exact h.nacked hexhausted hawaiting answers.nats harrives
  · rw [decide_eq_true ht, Bool.and_true]
    exact h.elsewhere (nack_elsewhere h.keyed answers.nats ht retry)

theorem Once.step (h : Once r d x) (hexhausted : r.incrementAttempt.isExhausted = true) {call : BrokerCall}
    {x' : RetryRun} (hs : x.step r call = some x') : ∃ d', Once r d' x' := by
  obtain ⟨hallowed, hrecord⟩ := step_allowed hs
  rw [h.backend] at hrecord
  cases call with
  | enqueue m answers => exact h.record_enqueue m answers hallowed hrecord
  | dequeue answers => exact ⟨_, h.record_dequeue answers (dequeue_fetched d answers.nats) hrecord⟩
  | ack traceId answers =>
    cases hrecord
    have ht : traceId ≠ r.traceId := of_decide_eq_true hallowed
    exact ⟨_, h.elsewhere (ack_elsewhere h.keyed answers.nats ht)⟩
  | nack traceId error retry answers => exact h.record_nack hexhausted traceId error retry answers hallowed hrecord
  | shutdown =>
    cases hrecord
    have hsame : Elsewhere r d d.shutdown :=
      ⟨⟨[], (List.append_nil _).symm, List.forall_mem_nil _⟩, List.Subset.refl _, rfl, h.keyed⟩
    exact ⟨_, h.elsewhere hsame⟩

theorem once_start (r : TraceRequest) : Once r (.new true) (start .nats) := by
  have hnone {seq : ℕ} {m : TraceRequest} : ([] : List TraceRequest)[seq]? ≠ some m := by
    rw [List.getElem?_nil]
    exact nofun
  refine ⟨rfl, ?_, fun _ _ hm => absurd hm hnone, fun _ _ _ _ hm => absurd hm hnone, fun _ => rfl, ?_,
    fun _ _ _ _ hm => absurd hm hnone, fun hzero => absurd rfl hzero, Nat.zero_le _⟩
  · intro t seq copy hget
    cases hget
  · intro hno
    cases hno

theorem delivered_once (hexhausted : r.incrementAttempt.isExhausted = true) (calls : List BrokerCall)
    (hrun : Machine.run (step r) (start .nats) calls = some x) : x.delivered ≤ 1 := by
  obtain ⟨d, h⟩ := Machine.run_invariant (fun x => ∃ d, Once r d x)
    (fun _ _ _ ⟨_, h⟩ hs => h.step hexhausted hs) calls ⟨_, once_start r⟩ hrun
  exact h.once

end Exhausted

/-! ### A request that its deliveries never exhaust -/

/-- Nothing fails, and the broker hands out the first message whenever it can. -/
def clearAnswers : BrokerAnswers :=
  ⟨RedisRun.answersWith (some 0), ⟨⟨true, .ok ()⟩, .ok (some 0), ⟨true, .ok ()⟩⟩⟩

/-- The first message is `r` as it was published, and the next dequeue is handed it. -/
def Ready (r : TraceRequest) : BrokerDispatch → Prop
  | .redis s => s.traces[0]? = some r ∧ (0 ∈ s.pendingEntries ∨ s.lastDelivered = 0)
  | .nats d => d.useJetstream = true ∧ d.shuttingDown = false ∧ d.server.message 0 = some r

def retryCall (r : TraceRequest) : BrokerCall := .nack r.traceId "retry" true clearAnswers

section Unbounded
variable {r : TraceRequest}

theorem redis_dequeue_ready {s : RedisStore} (h : Ready r (.redis s)) :
    ∃ s₁, s.dequeue true clearAnswers.redis = (.ok (some r.incrementAttempt), s₁) ∧
      s₁.traces[0]? = some r ∧ 0 ∈ s₁.pendingEntries := by
  obtain ⟨hr, hplace⟩ := h
  change ∃ s₁, s.dequeueStream clearAnswers.redis = _ ∧ _
  by_cases hpending : 0 ∈ s.pendingEntries
  · have hclaim : s.xautoclaim clearAnswers.redis.claimed = some (0, r) := by
      change s.xautoclaim (some 0) = _
      rw [RedisStore.xautoclaim, Option.bind_some, if_pos hpending, hr]
      rfl
    rw [RedisStore.dequeueStream, hclaim]
    exact ⟨_, rfl, hr, hpending⟩
  · have hunread : s.lastDelivered = 0 := hplace.resolve_left hpending
    have hclaim : s.xautoclaim clearAnswers.redis.claimed = none := by
      change s.xautoclaim (some 0) = _
      rw [RedisStore.xautoclaim, Option.bind_some, if_neg hpending]
    have hread : s.xreadgroup = some (0, r,
        { s with lastDelivered := 0 + 1, pendingEntries := s.pendingEntries ++ [0] }) := by
      rw [RedisStore.xreadgroup, hunread, hr]
      rfl
    rw [RedisStore.dequeueStream, hclaim, hread]
    exact ⟨_, rfl, hr, List.mem_append_right _ (List.mem_singleton_self _)⟩

theorem redis_nack_ready {s : RedisStore} (hr : s.traces[0]? = some r) (hpending : 0 ∈ s.pendingEntries) :
    Ready r (.redis (s.nack true clearAnswers.redis r.traceId true).2) := by
  have hconnection : clearAnswers.redis.connection = .ok () := rfl
  have hget : clearAnswers.redis.hget = true := rfl
  rw [RedisStore.nack, hconnection, hget]
  cases s.pending.get r.traceId with
  | none => exact ⟨hr, .inl hpending⟩
  | some id => exact ⟨hr, .inl hpending⟩

theorem nats_dequeue_ready {d : NatsDispatch} (h : Ready r (.nats d)) :
    d.dequeue clearAnswers.nats = (.ok (some r.incrementAttempt),
      { d with inFlight := d.inFlight.insert r.traceId (0, r.incrementAttempt) }) := by
  obtain ⟨hjetstream, hup, hmessage⟩ := h
  have hfetch : clearAnswers.nats.fetch = .ok (some 0) := rfl
  rw [NatsDispatch.dequeue, hjetstream, hup, hfetch]
  dsimp only
  rw [Option.bind_some, hmessage]
  rfl

theorem nats_nack_ready {d : NatsDispatch} (h : Ready r (.nats d))
    (hget : d.inFlight.get r.traceId = some (0, r.incrementAttempt))
    (hleft : r.incrementAttempt.isExhausted = false) :
    Ready r (.nats (d.nack clearAnswers.nats r.traceId true).2) := by
  have hnack : d.nack clearAnswers.nats r.traceId true =
      (.ok (), { d with inFlight := d.inFlight.remove r.traceId }) := by
    unfold NatsDispatch.nack
    rw [hget]
    dsimp only
    rw [hleft, Bool.not_false, Bool.and_true, if_pos rfl]
    rfl
  rw [hnack]
  exact h

theorem ready_delivers {x : RetryRun} (h : Ready r x.backend) (hawaiting : x.awaiting = false) :
    ∃ x₁, x.step r (.dequeue clearAnswers) = some x₁ ∧ x₁.delivered = x.delivered + 1 ∧
      x₁.awaiting = true ∧ (x.backend.perform (.dequeue clearAnswers)).2 = x₁.backend := by
  have hreturned : (x.backend.perform (.dequeue clearAnswers)).1 = some r.incrementAttempt := by
    cases hbackend : x.backend with
    | redis s =>
      rw [hbackend] at h
      obtain ⟨s₁, hs₁, -, -⟩ := redis_dequeue_ready h
      rw [BrokerDispatch.perform, hs₁]
      rfl
    | nats d =>
      rw [hbackend] at h
      rw [BrokerDispatch.perform, nats_dequeue_ready h]
      rfl
  have hdelivers : delivers r (some r.incrementAttempt) = true := decide_eq_true rfl
  refine ⟨{ x with
    backend := (x.backend.perform (.dequeue clearAnswers)).2
    awaiting := true
    delivered := x.delivered + 1 }, ?_, rfl, rfl, rfl⟩
  have hallowed : x.allowed r (.dequeue clearAnswers) = true := rfl
  have hnot : ¬ x.awaiting = true := by
    rw [hawaiting]
    exact Bool.false_ne_true
  rw [step, if_pos hallowed, hreturned, record, if_pos hdelivers, if_neg hnot]

/-- The request stays ready however often it is nacked. -/
def Unending (r : TraceRequest) : BrokerDispatch → Prop
  | .redis s => Ready r (.redis s)
  | .nats d => Ready r (.nats d) ∧ r.incrementAttempt.isExhausted = false

theorem Unending.ready {b : BrokerDispatch} (h : Unending r b) : Ready r b := by
  cases b with
  | redis s => exact h
  | nats d => exact h.1

theorem unending_nack {b : BrokerDispatch} (h : Unending r b) :
    Unending r ((b.perform (.dequeue clearAnswers)).2.perform (retryCall r)).2 := by
  cases b with
  | redis s =>
    obtain ⟨s₁, hs₁, hr, hpending⟩ := redis_dequeue_ready h
    have hnext : ((BrokerDispatch.redis s).perform (.dequeue clearAnswers)).2 = .redis s₁ := by
      rw [BrokerDispatch.perform, hs₁]
    rw [hnext]
    exact redis_nack_ready hr hpending
  | nats d =>
    obtain ⟨hready, hleft⟩ := h
    have hnext : ((BrokerDispatch.nats d).perform (.dequeue clearAnswers)).2 =
        .nats { d with inFlight := d.inFlight.insert r.traceId (0, r.incrementAttempt) } := by
      rw [BrokerDispatch.perform, nats_dequeue_ready hready]
    have hafter : Ready r (.nats { d with inFlight := d.inFlight.insert r.traceId (0, r.incrementAttempt) }) :=
      hready
    rw [hnext]
    exact ⟨nats_nack_ready hafter (FiniteMap.get_insert_self _ _ _) hleft, hleft⟩

theorem unending_round {x : RetryRun} (h : Unending r x.backend) (hawaiting : x.awaiting = false) :
    ∃ x', Machine.run (step r) x [.dequeue clearAnswers, retryCall r] = some x' ∧
      Unending r x'.backend ∧ x'.awaiting = false ∧ x'.delivered = x.delivered + 1 := by
  obtain ⟨x₁, hs₁, hdelivered, hnow, hbackend⟩ := ready_delivers h.ready hawaiting
  have hnack := unending_nack h
  rw [hbackend] at hnack
  have hallowed : x₁.allowed r (retryCall r) = true := by
    rw [retryCall, allowed, hnow]
    exact Bool.or_true _
  have hs₂ : x₁.step r (retryCall r) =
      some { x₁ with backend := (x₁.backend.perform (retryCall r)).2, awaiting := false } := by
    rw [step, if_pos hallowed, retryCall, record, decide_eq_false (not_not_intro rfl), Bool.and_false]
  refine ⟨{ x₁ with backend := (x₁.backend.perform (retryCall r)).2, awaiting := false }, ?_, hnack, rfl,
    hdelivered⟩
  exact (Machine.run_cons hs₁ _).trans (Machine.run_cons hs₂ [])

theorem unending_delivers {x : RetryRun} (h : Unending r x.backend) (hawaiting : x.awaiting = false) (n : ℕ) :
    ∃ calls x', Machine.run (step r) x calls = some x' ∧ x'.delivered = x.delivered + n := by
  induction n generalizing x with
  | zero => exact ⟨[], x, rfl, rfl⟩
  | succ n ih =>
    obtain ⟨x₁, hrun₁, hnext, hidle, hdelivered₁⟩ := unending_round h hawaiting
    obtain ⟨calls, x', hrun, hdelivered⟩ := ih hnext hidle
    refine ⟨[.dequeue clearAnswers, retryCall r] ++ calls, x', ?_, by omega⟩
    rw [Machine.run_append, hrun₁]
    exact hrun

theorem enqueued_ready (config : BrokerConfig) (r : TraceRequest) :
    ∃ x, Machine.run (step r) (start config) [.enqueue r clearAnswers] = some x ∧ Ready r x.backend ∧
      x.awaiting = false ∧ x.delivered = 0 ∧ (config = .redisStreams → Unending r x.backend) ∧
      (r.incrementAttempt.isExhausted = false → Unending r x.backend) := by
  have hallowed : (start config).allowed r (.enqueue r clearAnswers) = true := by simp [allowed, start]
  have hrun : Machine.run (step r) (start config) [.enqueue r clearAnswers] =
      some { start config with
        backend := ((BrokerDispatch.new config).perform (.enqueue r clearAnswers)).2
        enqueued := true } := by
    rw [Machine.run, step, if_pos hallowed, record, decide_eq_true rfl, Bool.or_true]
    rfl
  refine ⟨_, hrun, ?_, rfl, rfl, ?_, ?_⟩
  · cases config with
    | redisStreams => exact ⟨rfl, .inr rfl⟩
    | nats => exact ⟨rfl, rfl, rfl⟩
  · rintro rfl
    exact ⟨rfl, .inr rfl⟩
  · intro hleft
    cases config with
    | redisStreams => exact ⟨rfl, .inr rfl⟩
    | nats => exact ⟨⟨rfl, rfl, rfl⟩, hleft⟩

theorem exceeds {config : BrokerConfig} {x : RetryRun}
    (hrun : Machine.run (step r) (start config) [.enqueue r clearAnswers] = some x)
    (h : Unending r x.backend) (hawaiting : x.awaiting = false) : ¬ Bounded config r := by
  intro hbounded
  obtain ⟨calls, x', hcalls, hdelivered⟩ := unending_delivers h hawaiting (r.maxAttempts.toNat + 1)
  have hbound := hbounded ([.enqueue r clearAnswers] ++ calls) x' (by
    rw [Machine.run_append, hrun]
    exact hcalls)
  omega

end Unbounded

/-- Over all runs in which the worker nacks the request with retry after each delivery and the server
hears it, whatever else is called and answered: the request is delivered at most `max_attempts` times if
and only if the backend is NATS and the first delivery already exhausts the request. -/
theorem bounded_iff (config : BrokerConfig) (r : TraceRequest) :
    Bounded config r ↔ config = .nats ∧ 1 ≤ r.maxAttempts.toNat ∧ r.incrementAttempt.isExhausted = true := by
  obtain ⟨x, hrun, hready, hawaiting, hnone, hredis, hleft⟩ := enqueued_ready config r
  constructor
  · intro hbounded
    have hnats : config = .nats := by
      cases config with
      | nats => rfl
      | redisStreams => exact absurd hbounded (exceeds hrun (hredis rfl) hawaiting)
    have hexhausted : r.incrementAttempt.isExhausted = true := by
      by_contra hnot
      exact exceeds hrun (hleft (Bool.not_eq_true _ ▸ hnot)) hawaiting hbounded
    refine ⟨hnats, ?_, hexhausted⟩
    obtain ⟨x₁, hs₁, hdelivered, -, -⟩ := ready_delivers hready hawaiting
    have hbound := hbounded ([.enqueue r clearAnswers] ++ [.dequeue clearAnswers]) x₁ (by
      rw [Machine.run_append, hrun, Option.bind_some, Machine.run, hs₁]
      rfl)
    omega
  · rintro ⟨rfl, hmax, hexhausted⟩ calls x' hcalls
    exact (delivered_once hexhausted calls hcalls).trans hmax

def tenRounds (r : TraceRequest) : List BrokerCall :=
  .enqueue r clearAnswers :: (List.replicate 10 [.dequeue clearAnswers, retryCall r]).flatten

/-- A request of three attempts is delivered ten times by either backend. -/
theorem retries_without_end :
    (∃ x, Machine.run (step (DispatchRun.sampleRequest sampleTrace)) (start .redisStreams)
        (tenRounds (DispatchRun.sampleRequest sampleTrace)) = some x ∧ x.delivered = 10) ∧
      (∃ x, Machine.run (step (DispatchRun.sampleRequest sampleTrace)) (start .nats)
        (tenRounds (DispatchRun.sampleRequest sampleTrace)) = some x ∧ x.delivered = 10) ∧
      ¬ Bounded .redisStreams (DispatchRun.sampleRequest sampleTrace) ∧
      ¬ Bounded .nats (DispatchRun.sampleRequest sampleTrace) := by
  have hten (config : BrokerConfig)
      (hrun : (Machine.run (step (DispatchRun.sampleRequest sampleTrace)) (start config)
        (tenRounds (DispatchRun.sampleRequest sampleTrace))).any (fun x => x.delivered = 10) = true) :
      (∃ x, Machine.run (step (DispatchRun.sampleRequest sampleTrace)) (start config)
        (tenRounds (DispatchRun.sampleRequest sampleTrace)) = some x ∧ x.delivered = 10) ∧
        ¬ Bounded config (DispatchRun.sampleRequest sampleTrace) := by
    obtain ⟨x, hx, hdelivered⟩ := (Option.any_eq_true _ _).mp hrun
    refine ⟨⟨x, hx, of_decide_eq_true hdelivered⟩, fun hbounded => ?_⟩
    have hbound := hbounded _ x hx
    rw [of_decide_eq_true hdelivered] at hbound
    exact absurd hbound (by decide)
  obtain ⟨hredis, hredis'⟩ := hten .redisStreams (by decide)
  obtain ⟨hnats, hnats'⟩ := hten .nats (by decide)
  exact ⟨hredis, hnats, hredis', hnats'⟩

end RetryRun
end Xerv.Dispatch
