import Xerv.Dispatch.Memory
import Xerv.Lib.Positions

/-!
# Redis dispatch (`xerv-core/src/dispatch/redis.rs`)

The requests are kept by the server: in a list (`use_streams = false`), or in a stream with a consumer
group, where an entry that was delivered and not acknowledged is on the group's list of pending
entries until a later `XAUTOCLAIM` hands it out again. Workers on any number of hosts share the
server; a call brings along what its own instance, its connection and the server answer.
An entry holds the request that was enqueued, never a later copy.
-/

namespace Xerv.Dispatch
open Xerv.Lib

/-- The backend's keys on the server. The entry ids of the stream are its positions. -/
structure RedisStore where
  queue : List TraceRequest
  traces : List TraceRequest
  lastDelivered : ℕ
  pendingEntries : List ℕ
  pending : FiniteMap TraceId ℕ

/-- How a command ends: answered, carried out but the answer is lost, or not carried out. -/
inductive Reply where
  | answered
  | unheard (error : String)
  | refused (error : String)

/-- The calling instance's flag, and what the pool and the server answer while the call runs. -/
structure RedisAnswers where
  shuttingDown : Bool
  connection : Except String Unit
  command : Reply
  claimed : Option ℕ
  hset : Bool
  hget : Bool
  xack : Bool
  hdel : Bool

namespace RedisStore

def empty : RedisStore := ⟨[], [], 0, [], ∅⟩

/-! ### Commands -/

def lpush (s : RedisStore) (r : TraceRequest) : RedisStore := { s with queue := r :: s.queue }

def brpop (s : RedisStore) : Option (TraceRequest × RedisStore) :=
  s.queue.getLast?.map fun r => (r, { s with queue := s.queue.dropLast })

def xadd (s : RedisStore) (r : TraceRequest) : RedisStore := { s with traces := s.traces ++ [r] }

/-- The next entry that the group has not seen; it is pending from now on. -/
def xreadgroup (s : RedisStore) : Option (ℕ × TraceRequest × RedisStore) :=
  s.traces[s.lastDelivered]?.map fun r =>
    (s.lastDelivered, r,
      { s with lastDelivered := s.lastDelivered + 1, pendingEntries := s.pendingEntries ++ [s.lastDelivered] })

/-- Which pending entry is idle for long enough, if any, is the server's to say. -/
def xautoclaim (s : RedisStore) (stale : Option ℕ) : Option (ℕ × TraceRequest) :=
  stale.bind fun id => if id ∈ s.pendingEntries then s.traces[id]?.map fun r => (id, r) else none

def xack (s : RedisStore) (id : ℕ) : RedisStore :=
  { s with pendingEntries := s.pendingEntries.filter fun other => other ≠ id }

def hset (s : RedisStore) (traceId : TraceId) (id : ℕ) : RedisStore :=
  { s with pending := s.pending.insert traceId id }

def hdel (s : RedisStore) (traceId : TraceId) : RedisStore :=
  { s with pending := s.pending.remove traceId }

/-! ### Calls -/

def enqueue (useStreams : Bool) (answers : RedisAnswers) (s : RedisStore) (r : TraceRequest) :
    Except DispatchError TraceId × RedisStore :=
  if answers.shuttingDown then (.error .shuttingDown, s)
  else
    match answers.connection with
    | .error e => (.error (.connectionFailed e), s)
    | .ok _ =>
      let pushed := if useStreams then s.xadd r else s.lpush r
      match answers.command with
      | .answered => (.ok r.traceId, pushed)
      | .unheard e => (.error (.backendError e), pushed)
      | .refused e => (.error (.backendError e), s)

/-- `increment_attempt` and the entry's id in the pending hash; a failing `HSET` is ignored. -/
def deliver (answers : RedisAnswers) (s : RedisStore) (id : ℕ) (r : TraceRequest) :
    Except DispatchError (Option TraceRequest) × RedisStore :=
  let r := r.incrementAttempt
  (.ok (some r), if answers.hset then s.hset r.traceId id else s)

def dequeueStream (answers : RedisAnswers) (s : RedisStore) :
    Except DispatchError (Option TraceRequest) × RedisStore :=
  match s.xautoclaim answers.claimed with
  | some (id, r) => s.deliver answers id r
  | none =>
    match s.xreadgroup, answers.command with
    | some (id, r, s), .answered => s.deliver answers id r
    | some (_, _, s), .unheard _ => (.ok none, s)
    | _, _ => (.ok none, s)

def dequeueList (answers : RedisAnswers) (s : RedisStore) :
    Except DispatchError (Option TraceRequest) × RedisStore :=
  match s.brpop, answers.command with
  | some (r, s), .answered => (.ok (some r.incrementAttempt), s)
  | some (_, s), .unheard _ => (.ok none, s)
  | _, _ => (.ok none, s)

def dequeue (useStreams : Bool) (answers : RedisAnswers) (s : RedisStore) :
    Except DispatchError (Option TraceRequest) × RedisStore :=
  if answers.shuttingDown then (.ok none, s)
  else
    match answers.connection with
    | .error e => (.error (.connectionFailed e), s)
    | .ok _ => if useStreams then s.dequeueStream answers else s.dequeueList answers

/-- `XACK` where it is due, and the id is tracked no longer. -/
def untrack (answers : RedisAnswers) (s : RedisStore) (traceId : TraceId) (id : ℕ) (acknowledge : Bool) :
    RedisStore :=
  let s := if acknowledge && answers.xack then s.xack id else s
  if answers.hdel then s.hdel traceId else s

def ack (useStreams : Bool) (answers : RedisAnswers) (s : RedisStore) (traceId : TraceId) :
    Except DispatchError Unit × RedisStore :=
  match answers.connection with
  | .error e => (.error (.connectionFailed e), s)
  | .ok _ =>
    if useStreams && answers.hget then
      match s.pending.get traceId with
      | some id => (.ok (), s.untrack answers traceId id true)
      | none => (.ok (), s)
    else (.ok (), s)

def nack (useStreams : Bool) (answers : RedisAnswers) (s : RedisStore) (traceId : TraceId) (retry : Bool) :
    Except DispatchError Unit × RedisStore :=
  match answers.connection with
  | .error e => (.error (.connectionFailed e), s)
  | .ok _ =>
    if useStreams && answers.hget then
      match s.pending.get traceId with
      | some id => (.ok (), s.untrack answers traceId id (!retry))
      | none => (.ok (), s)
    else (.ok (), s)

end RedisStore

/-! ### Sequences of calls -/

inductive RedisCall where
  | enqueue (r : TraceRequest) (answers : RedisAnswers)
  | dequeue (answers : RedisAnswers)
  | ack (traceId : TraceId) (answers : RedisAnswers)
  | nack (traceId : TraceId) (error : String) (retry : Bool) (answers : RedisAnswers)

def RedisStore.perform (useStreams : Bool) (s : RedisStore) :
    RedisCall → Except DispatchError (Option TraceRequest) × RedisStore
  | .enqueue r answers =>
    ((s.enqueue useStreams answers r).1.map fun _ => none, (s.enqueue useStreams answers r).2)
  | .dequeue answers => s.dequeue useStreams answers
  | .ack traceId answers =>
    ((s.ack useStreams answers traceId).1.map fun _ => none, (s.ack useStreams answers traceId).2)
  | .nack traceId _ retry answers =>
    ((s.nack useStreams answers traceId retry).1.map fun _ => none,
      (s.nack useStreams answers traceId retry).2)

/-- The server, and the requests that were dequeued and neither acknowledged nor given up since. -/
structure RedisRun where
  store : RedisStore
  unsettled : FiniteMap TraceId TraceRequest

namespace RedisRun
variable (useStreams : Bool)

def start : RedisRun := ⟨.empty, ∅⟩

def settle (unsettled : FiniteMap TraceId TraceRequest) :
    RedisCall → Except DispatchError (Option TraceRequest) → FiniteMap TraceId TraceRequest
  | .dequeue _, .ok (some r) => unsettled.insert r.traceId r
  | .ack traceId _, .ok _ => unsettled.remove traceId
  | .nack traceId _ false _, .ok _ => unsettled.remove traceId
  | _, _ => unsettled

def step (x : RedisRun) (call : RedisCall) : RedisRun :=
  let (result, store) := x.store.perform useStreams call
  ⟨store, settle x.unsettled call result⟩

def run (calls : List RedisCall) : RedisRun := calls.foldl (step useStreams) start

/-- Redis holds what `r` was made of: in the list, in the unread part of the stream, or as a pending
entry. -/
def Held (s : RedisStore) (r : TraceRequest) : Prop :=
  ∃ stored, stored.incrementAttempt = r ∧ (stored ∈ s.queue ∨ stored ∈ s.traces.drop s.lastDelivered ∨
    ∃ id ∈ s.pendingEntries, s.traces[id]? = some stored)

/-- Some later `dequeue` can return it: nothing but dequeues comes in between, so nobody enqueues it again. -/
def Returnable (s : RedisStore) (r : TraceRequest) : Prop :=
  ∃ (earlier : List RedisAnswers) (answers : RedisAnswers),
    ((earlier.foldl (fun s answers => (s.dequeue useStreams answers).2) s).dequeue useStreams answers).1 =
      .ok (some r)

/-- A nack with retry keeps a request that is unsettled and has attempts left. -/
def RetryKept (x : RedisRun) (call : RedisCall) : Prop :=
  ∀ traceId error answers r, call = .nack traceId error true answers →
    x.unsettled.get traceId = some r → r.isExhausted = false →
    Held (x.step useStreams call).store r ∧ Returnable useStreams (x.step useStreams call).store r

/-- A nack with retry in list mode, of a request that the list does not hold a second time. -/
def forgets (x : RedisRun) : RedisCall → Bool
  | .nack traceId _ true _ =>
    !useStreams && (x.unsettled.get traceId).any fun r =>
      !r.isExhausted && !x.store.queue.any fun stored => stored.incrementAttempt = r
  | _ => false

/-! ### What a call does to the stream -/

/-- A pending entry holds what `r` was made of. -/
def Pending (s : RedisStore) (r : TraceRequest) : Prop :=
  ∃ id ∈ s.pendingEntries, ∃ stored, s.traces[id]? = some stored ∧ stored.incrementAttempt = r

/-- Every id in the pending hash is the entry of the trace it stands for. -/
def Keyed (s : RedisStore) : Prop :=
  ∀ traceId id, s.pending.get traceId = some id → ∃ stored, s.traces[id]? = some stored ∧ stored.traceId = traceId

variable {useStreams} {s s' : RedisStore}

/-- The store has gained entries and pending ones, and lost none. -/
structure Extends (s s' : RedisStore) : Prop where
  traces : s.traces <+: s'.traces
  pendingEntries : s.pendingEntries ⊆ s'.pendingEntries
  pending : s'.pending = s.pending

theorem Extends.refl (s : RedisStore) : Extends s s := ⟨List.prefix_rfl, List.Subset.refl _, rfl⟩

theorem Extends.keeps (h : Extends s s') {r : TraceRequest} (hr : Pending s r) : Pending s' r := by
  obtain ⟨id, hid, stored, hstored, hinc⟩ := hr
  exact ⟨id, h.pendingEntries hid, stored, getElem?_of_prefix h.traces hstored, hinc⟩

theorem Extends.keyed (h : Extends s s') (hkeyed : Keyed s) : Keyed s' := by
  intro traceId id hget
  rw [h.pending] at hget
  obtain ⟨stored, hstored, htrace⟩ := hkeyed traceId id hget
  exact ⟨stored, getElem?_of_prefix h.traces hstored, htrace⟩

theorem xreadgroup_extends {id : ℕ} {r : TraceRequest} (h : s.xreadgroup = some (id, r, s')) :
    Extends s s' ∧ id ∈ s'.pendingEntries ∧ s'.traces[id]? = some r := by
  obtain ⟨r', hr', heq⟩ := Option.map_eq_some_iff.mp h
  cases heq
  refine ⟨⟨List.prefix_rfl, List.subset_append_left _ _, rfl⟩, ?_, hr'⟩
  exact List.mem_append_right _ (List.mem_singleton_self _)

/-- What a call in stream mode returns and leaves. -/
inductive Effect (s : RedisStore) : RedisCall → Except DispatchError (Option TraceRequest) → RedisStore → Prop
  | grown (call : RedisCall) (result : Except DispatchError (Option TraceRequest)) (s' : RedisStore)
      (h : Extends s s') (hresult : ∀ r, result ≠ .ok (some r)) : Effect s call result s'
  | delivered (answers : RedisAnswers) (s₁ : RedisStore) (h : Extends s s₁) (id : ℕ) (r : TraceRequest)
      (hid : id ∈ s₁.pendingEntries) (hr : s₁.traces[id]? = some r) :
      Effect s (.dequeue answers) (.ok (some r.incrementAttempt)) (s₁.deliver answers id r).2
  | acknowledged (answers : RedisAnswers) (traceId : TraceId) (id : ℕ)
      (hget : s.pending.get traceId = some id) :
      Effect s (.ack traceId answers) (.ok none) (s.untrack answers traceId id true)
  | nacked (answers : RedisAnswers) (traceId : TraceId) (error : String) (retry : Bool) (id : ℕ)
      (hget : s.pending.get traceId = some id) :
      Effect s (.nack traceId error retry answers) (.ok none) (s.untrack answers traceId id (!retry))

theorem effect_failed (h : Extends s s') (call : RedisCall) (e : DispatchError) : Effect s call (.error e) s' :=
  .grown _ _ _ h fun _ he => by cases he

theorem effect_empty (h : Extends s s') (call : RedisCall) : Effect s call (.ok none) s' :=
  .grown _ _ _ h fun _ he => by cases he

theorem enqueue_effect (r : TraceRequest) (answers : RedisAnswers) :
    Effect s (.enqueue r answers) (s.perform true (.enqueue r answers)).1
      (s.perform true (.enqueue r answers)).2 := by
  have hno (result : Except DispatchError TraceId) (r' : TraceRequest) :
      (result.map fun _ => (none : Option TraceRequest)) ≠ .ok (some r') := by
    cases result with
    | error e => nofun
    | ok t => nofun
  refine .grown _ _ _ ?_ (hno _)
  have hadd : Extends s (s.xadd r) := ⟨List.prefix_append _ _, List.Subset.refl _, rfl⟩
  unfold RedisStore.perform RedisStore.enqueue
  dsimp only
  split
  · exact .refl s
  · split
    · exact .refl s
    · cases answers.command with
      | answered => exact hadd
      | unheard e => exact hadd
      | refused e => exact .refl s

theorem dequeueStream_effect (answers : RedisAnswers) :
    Effect s (.dequeue answers) (s.dequeueStream answers).1 (s.dequeueStream answers).2 := by
  unfold RedisStore.dequeueStream
  cases hclaim : s.xautoclaim answers.claimed with
  | some claimed =>
    obtain ⟨id, hclaimed, hfound⟩ := Option.bind_eq_some_iff.mp hclaim
    split at hfound
    · rename_i hid
      obtain ⟨r, hr, rfl⟩ := Option.map_eq_some_iff.mp hfound
      exact .delivered answers s (.refl s) id r hid hr
    · cases hfound
  | none =>
    dsimp only
    cases hread : s.xreadgroup with
    | none => exact effect_empty (.refl s) _
    | some read =>
      obtain ⟨id, r, s₁⟩ := read
      obtain ⟨hext, hid, hr⟩ := xreadgroup_extends hread
      cases answers.command with
      | answered => exact .delivered answers s₁ hext id r hid hr
      | unheard e => exact effect_empty hext _
      | refused e => exact effect_empty (.refl s) _

theorem perform_effect (s : RedisStore) (call : RedisCall) :
    Effect s call (s.perform true call).1 (s.perform true call).2 := by
  cases call with
  | enqueue r answers => exact enqueue_effect r answers
  | dequeue answers =>
    unfold RedisStore.perform RedisStore.dequeue
    dsimp only
    split
    · exact effect_empty (.refl s) _
    · split
      · exact effect_failed (.refl s) _ _
      · exact dequeueStream_effect answers
  | ack traceId answers =>
    unfold RedisStore.perform RedisStore.ack
    dsimp only
    split
    · exact effect_failed (.refl s) _ _
    · split
      · split
        · rename_i id hget
          exact .acknowledged answers traceId id hget
        · exact effect_empty (.refl s) _
      · exact effect_empty (.refl s) _
  | nack traceId error retry answers =>
    unfold RedisStore.perform RedisStore.nack
    dsimp only
    split
    · exact effect_failed (.refl s) _ _
    · split
      · split
        · rename_i id hget
          exact .nacked answers traceId error retry id hget
        · exact effect_empty (.refl s) _
      · exact effect_empty (.refl s) _

/-! ### Stream mode keeps what is unsettled -/

/-- What holds after every sequence of calls in stream mode. -/
structure Tracked (x : RedisRun) : Prop where
  keyed : Keyed x.store
  kept : ∀ traceId r, x.unsettled.get traceId = some r → r.traceId = traceId ∧ Pending x.store r

theorem untrack_traces (answers : RedisAnswers) (traceId : TraceId) (id : ℕ) (acknowledge : Bool) :
    (s.untrack answers traceId id acknowledge).traces = s.traces := by
  unfold RedisStore.untrack
  dsimp only
  split_ifs
  all_goals rfl

theorem untrack_keyed (h : Keyed s) (answers : RedisAnswers) (traceId : TraceId) (id : ℕ) (acknowledge : Bool) :
    Keyed (s.untrack answers traceId id acknowledge) := by
  intro t id' hget
  rw [untrack_traces]
  have hold : s.pending.get t = some id' := by
    have hpending : (s.untrack answers traceId id acknowledge).pending =
        if answers.hdel then s.pending.remove traceId else s.pending := by
      unfold RedisStore.untrack
      dsimp only
      split_ifs
      all_goals rfl
    rw [hpending] at hget
    split at hget
    · exact (FiniteMap.get_remove_some _ hget).2
    · exact hget
  exact h t id' hold

theorem untrack_keeps (h : Keyed s) {traceId : TraceId} {id : ℕ} (hget : s.pending.get traceId = some id)
    (answers : RedisAnswers) (acknowledge : Bool) {r : TraceRequest} (hr : Pending s r)
    (hother : acknowledge = true → r.traceId ≠ traceId) :
    Pending (s.untrack answers traceId id acknowledge) r := by
  obtain ⟨id', hid', stored, hstored, hinc⟩ := hr
  refine ⟨id', ?_, stored, by rw [untrack_traces]; exact hstored, hinc⟩
  have hentries : (s.untrack answers traceId id acknowledge).pendingEntries =
      if acknowledge && answers.xack then s.pendingEntries.filter fun other => other ≠ id
      else s.pendingEntries := by
    unfold RedisStore.untrack
    dsimp only
    split_ifs
    all_goals rfl
  rw [hentries]
  split
  · rename_i hack
    refine List.mem_filter.mpr ⟨hid', decide_eq_true fun hsame => ?_⟩
    obtain ⟨stored', hstored', htrace⟩ := h traceId id hget
    rw [hsame, hstored'] at hstored
    cases hstored
    refine hother (Bool.and_eq_true _ _ ▸ hack).1 ?_
    rw [← hinc]
    exact htrace
  · exact hid'

theorem settle_of_quiet {unsettled : FiniteMap TraceId TraceRequest} {call : RedisCall}
    {result : Except DispatchError (Option TraceRequest)} (hresult : ∀ r, result ≠ .ok (some r))
    {traceId : TraceId} {r : TraceRequest} (h : (settle unsettled call result).get traceId = some r) :
    unsettled.get traceId = some r := by
  unfold settle at h
  split at h
  · exact absurd rfl (hresult _)
  · exact (FiniteMap.get_remove_some _ h).2
  · exact (FiniteMap.get_remove_some _ h).2
  · exact h

theorem deliver_keeps (answers : RedisAnswers) (id : ℕ) (r : TraceRequest) {r' : TraceRequest}
    (h : Pending s r') : Pending (s.deliver answers id r).2 r' := by
  unfold RedisStore.deliver
  dsimp only
  split
  · exact h
  · exact h

theorem deliver_keyed (h : Keyed s) (answers : RedisAnswers) {id : ℕ} {r : TraceRequest}
    (hr : s.traces[id]? = some r) : Keyed (s.deliver answers id r).2 := by
  unfold RedisStore.deliver
  dsimp only
  split
  · intro t id' hget
    change (s.pending.insert r.traceId id).get t = some id' at hget
    rcases FiniteMap.get_insert_some _ hget with ⟨rfl, rfl⟩ | ⟨-, hold⟩
    · exact ⟨r, hr, rfl⟩
    · exact h t id' hold
  · exact h

theorem Tracked.untracked {x : RedisRun} (h : x.Tracked) {t traceId : TraceId} {id : ℕ} {r : TraceRequest}
    (hkey : x.store.pending.get t = some id) (answers : RedisAnswers)
    (hget : (x.unsettled.remove t).get traceId = some r) :
    r.traceId = traceId ∧ Pending (x.store.untrack answers t id true) r := by
  obtain ⟨ht, hold⟩ := FiniteMap.get_remove_some _ hget
  obtain ⟨rfl, hpending⟩ := h.kept traceId r hold
  exact ⟨rfl, untrack_keeps h.keyed hkey answers true hpending fun _ => ht⟩

theorem Tracked.step {x : RedisRun} (h : x.Tracked) (call : RedisCall) : (x.step true call).Tracked := by
  have heffect := perform_effect x.store call
  unfold RedisRun.step
  generalize x.store.perform true call = out at heffect
  obtain ⟨result, s'⟩ := out
  dsimp only at heffect ⊢
  cases heffect with
  | grown _ _ _ hext hresult =>
    refine ⟨hext.keyed h.keyed, fun traceId r hget => ?_⟩
    obtain ⟨htrace, hpending⟩ := h.kept traceId r (settle_of_quiet hresult hget)
    exact ⟨htrace, hext.keeps hpending⟩
  | delivered answers s₁ hext id r hid hr =>
    refine ⟨deliver_keyed (hext.keyed h.keyed) answers hr, fun traceId r' hget => ?_⟩
    change (x.unsettled.insert r.traceId r.incrementAttempt).get traceId = some r' at hget
    rcases FiniteMap.get_insert_some _ hget with ⟨rfl, rfl⟩ | ⟨-, hold⟩
    · exact ⟨rfl, deliver_keeps answers id r ⟨id, hid, r, hr, rfl⟩⟩
    · obtain ⟨htrace, hpending⟩ := h.kept traceId r' hold
      exact ⟨htrace, deliver_keeps answers id r (hext.keeps hpending)⟩
  | acknowledged answers t id hkey =>
    exact ⟨untrack_keyed h.keyed _ _ _ _, fun traceId r hget => h.untracked hkey answers hget⟩
  | nacked answers t error retry id hkey =>
    refine ⟨untrack_keyed h.keyed _ _ _ _, fun traceId r hget => ?_⟩
    cases retry with
    | true =>
      obtain ⟨rfl, hpending⟩ := h.kept traceId r hget
      exact ⟨rfl, untrack_keeps h.keyed hkey answers false hpending nofun⟩
    | false => exact h.untracked hkey answers hget

theorem tracked_run (calls : List RedisCall) : (run true calls).Tracked := by
  unfold run
  induction calls using List.reverseRecOn with
  | nil => exact ⟨nofun, nofun⟩
  | append_singleton calls call ih =>
    rw [Machine.foldl_concat]
    exact ih.step call

/-! ### What can be returned later -/

/-- Everything is answered, and the server hands out the given entry if it is pending. -/
def answersWith (claimed : Option ℕ) : RedisAnswers := ⟨false, .ok (), .answered, claimed, true, true, true, true⟩

theorem returnable_of_pending {r : TraceRequest} (h : Pending s r) : Returnable true s r := by
  obtain ⟨id, hid, stored, hstored, rfl⟩ := h
  refine ⟨[], answersWith (some id), ?_⟩
  have hclaim : s.xautoclaim (some id) = some (id, stored) := by
    rw [RedisStore.xautoclaim, Option.bind_some, if_pos hid, hstored]
    rfl
  change (s.dequeueStream (answersWith (some id))).1 = .ok (some stored.incrementAttempt)
  rw [RedisStore.dequeueStream, answersWith, hclaim]
  rfl

theorem dequeue_last {front : List TraceRequest} {last : TraceRequest} (h : s.queue = front ++ [last]) :
    s.dequeue false (answersWith none) = (.ok (some last.incrementAttempt), { s with queue := front }) := by
  have hpop : s.brpop = some (last, { s with queue := front }) := by
    rw [RedisStore.brpop, h, List.getLast?_concat, List.dropLast_concat]
    rfl
  change s.dequeueList (answersWith none) = _
  rw [RedisStore.dequeueList, hpop]
  rfl

theorem returnable_of_queued {stored : TraceRequest} (queue : List TraceRequest) (hqueue : s.queue = queue)
    (hmem : stored ∈ queue) : Returnable false s stored.incrementAttempt := by
  induction queue using List.reverseRecOn generalizing s with
  | nil => cases hmem
  | append_singleton front last ih =>
    have hlast := dequeue_last hqueue
    rcases List.mem_append.mp hmem with hfront | hend
    · obtain ⟨earlier, answers, hreturn⟩ := ih (s := { s with queue := front }) rfl hfront
      refine ⟨answersWith none :: earlier, answers, ?_⟩
      rw [List.foldl_cons, hlast]
      exact hreturn
    · rw [List.mem_singleton.mp hend]
      exact ⟨[], answersWith none, by rw [List.foldl_nil, hlast]⟩

/-! ### List mode -/

/-- Nothing is in the stream. -/
def ListOnly (s : RedisStore) : Prop := s.traces = [] ∧ s.pendingEntries = []

theorem dequeueList_listOnly (h : ListOnly s) (answers : RedisAnswers) :
    ListOnly (s.dequeueList answers).2 := by
  unfold RedisStore.dequeueList
  cases hpop : s.brpop with
  | none => exact h
  | some popped =>
    obtain ⟨r, hr, rfl⟩ := Option.map_eq_some_iff.mp hpop
    cases answers.command with
    | answered => exact h
    | unheard e => exact h
    | refused e => exact h

theorem nack_list (answers : RedisAnswers) (traceId : TraceId) (retry : Bool) :
    (s.nack false answers traceId retry).2 = s := by
  unfold RedisStore.nack
  split
  · rfl
  · rfl

theorem perform_listOnly (h : ListOnly s) (call : RedisCall) : ListOnly (s.perform false call).2 := by
  cases call with
  | enqueue r answers =>
    unfold RedisStore.perform RedisStore.enqueue
    dsimp only
    split
    · exact h
    · split
      · exact h
      · cases answers.command with
        | answered => exact h
        | unheard e => exact h
        | refused e => exact h
  | dequeue answers =>
    unfold RedisStore.perform RedisStore.dequeue
    dsimp only
    split
    · exact h
    · split
      · exact h
      · exact dequeueList_listOnly h answers
  | ack traceId answers =>
    unfold RedisStore.perform RedisStore.ack
    dsimp only
    split
    · exact h
    · exact h
  | nack traceId error retry answers =>
    change ListOnly (s.nack false answers traceId retry).2
    rw [nack_list]
    exact h

theorem listOnly_run (calls : List RedisCall) : ListOnly (run false calls).store := by
  unfold run
  induction calls using List.reverseRecOn with
  | nil => exact ⟨rfl, rfl⟩
  | append_singleton calls call ih =>
    rw [Machine.foldl_concat]
    exact perform_listOnly ih call

theorem held_of_listOnly (h : ListOnly s) (r : TraceRequest) :
    Held s r ↔ (s.queue.any fun stored => stored.incrementAttempt = r) = true := by
  obtain ⟨htraces, hentries⟩ := h
  rw [List.any_eq_true]
  constructor
  · rintro ⟨stored, hinc, hqueue | hunread | ⟨id, hid, -⟩⟩
    · exact ⟨stored, hqueue, decide_eq_true hinc⟩
    · rw [htraces, List.drop_nil] at hunread
      cases hunread
    · rw [hentries] at hid
      cases hid
  · rintro ⟨stored, hqueue, hinc⟩
    exact ⟨stored, of_decide_eq_true hinc, .inl hqueue⟩

/-! ### Retries -/

theorem retryKept_stream (calls : List RedisCall) (call : RedisCall) : (run true calls).RetryKept true call := by
  rintro traceId error answers r rfl hget hleft
  have hafter := (tracked_run calls).step (.nack traceId error true answers)
  have hstill : ((run true calls).step true (.nack traceId error true answers)).unsettled.get traceId =
      some r := by
    rw [← hget]
    rfl
  obtain ⟨-, hpending⟩ := hafter.kept traceId r hstill
  have hreturn := returnable_of_pending hpending
  obtain ⟨id, hid, stored, hstored, hinc⟩ := hpending
  exact ⟨⟨stored, hinc, .inr (.inr ⟨id, hid, hstored⟩)⟩, hreturn⟩

theorem retryKept_list_iff (calls : List RedisCall) (call : RedisCall) :
    (run false calls).RetryKept false call ↔ (run false calls).forgets false call = false := by
  have hlist := listOnly_run calls
  generalize run false calls = x at hlist
  unfold forgets
  split
  · rename_i traceId error answers
    have hstore : (x.step false (.nack traceId error true answers)).store = x.store :=
      nack_list answers traceId true
    rw [Bool.not_false, Bool.true_and, Option.any_eq_false]
    constructor
    · intro hkept r hget
      by_contra hlost
      rw [Bool.not_eq_false, Bool.and_eq_true, Bool.not_eq_true'] at hlost
      obtain ⟨hheld, -⟩ := hkept traceId error answers r rfl hget hlost.1
      rw [hstore, held_of_listOnly hlist] at hheld
      rw [hheld] at hlost
      exact Bool.noConfusion hlost.2
    · intro hnone traceId' error' answers' r hcall hget hleft
      cases hcall
      have hr := hnone r hget
      rw [hleft, Bool.not_false, Bool.true_and, Bool.not_eq_false'] at hr
      rw [hstore]
      refine ⟨(held_of_listOnly hlist r).mpr hr, ?_⟩
      obtain ⟨stored, hqueue, hinc⟩ := List.any_eq_true.mp hr
      rw [← of_decide_eq_true hinc]
      exact returnable_of_queued x.store.queue rfl hqueue
  · rename_i hother
    refine iff_of_true (fun traceId error answers r hcall => ?_) rfl
    exact absurd hcall (hother traceId error answers)

/-- For both modes and every sequence of calls, whatever the instance, the connection and the server
answer: after every nack with retry of a request that was dequeued, is not settled since and has attempts
left, Redis holds it and a later dequeue can return it, if and only if no such nack comes in list mode
for a request of which the list holds no second copy. -/
theorem retries_kept_iff (useStreams : Bool) (calls : List RedisCall) :
    (∀ before call, before ++ [call] <+: calls → (run useStreams before).RetryKept useStreams call) ↔
      ∀ before call, before ++ [call] <+: calls → (run useStreams before).forgets useStreams call = false := by
  refine forall_congr' fun before => forall_congr' fun call => imp_congr_right fun _ => ?_
  cases useStreams with
  | true =>
    refine iff_of_true (retryKept_stream before call) ?_
    unfold forgets
    split
    · rfl
    · rfl
  | false => exact retryKept_list_iff before call

def dequeuedOnce : List RedisCall :=
  [.enqueue (DispatchRun.sampleRequest sampleTrace) (answersWith none), .dequeue (answersWith none)]

/-- The worker nacks it with retry at its first of three attempts, and Redis holds nothing. -/
theorem list_mode_forgets_retry :
    ∃ r, (run false dequeuedOnce).unsettled.get sampleTrace = some r ∧ r.isExhausted = false ∧
      ¬ (run false dequeuedOnce).RetryKept false (.nack sampleTrace "timeout" true (answersWith none)) := by
  refine ⟨(DispatchRun.sampleRequest sampleTrace).incrementAttempt, by decide, by decide, fun hkept => ?_⟩
  have hnone := (retryKept_list_iff dequeuedOnce (.nack sampleTrace "timeout" true (answersWith none))).mp hkept
  exact absurd hnone (by decide)

end RedisRun
end Xerv.Dispatch
