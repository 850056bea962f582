import Xerv.Lib.Machine
import Xerv.Lib.Positions
import Xerv.Logging.Collector

/-!
# Following the log by a cursor

Any number of calls of `collect` are in progress, each of which takes its id in one step and inserts its event
in another. A reader asks for what has come `since` the largest id it has received.
-/

namespace Xerv.Logging
open Xerv.Lib

/-! ### Sessions -/

def largestId (events : List LogEvent) : UInt64 := events.foldr (fun e c => if c < e.id then e.id else c) 0

structure LogSession where
  collector : BufferedCollector
  -- events with their ids, whose calls are yet to insert them
  waiting : List LogEvent
  -- how many events have left the buffer
  removed : ℕ
  -- each event with its number in the order of the insertions
  received : List (LogEvent × ℕ)

inductive LogAction where
  | assign (event : LogEvent)
  | insert (k : ℕ)
  | clear
  | read
  deriving DecidableEq

namespace LogSession

def start (capacity : ℕ) (filter : Option LogFilter) : LogSession := ⟨.new capacity filter, [], 0, []⟩

def cursor (s : LogSession) : UInt64 := largestId (s.received.map Prod.fst)

def inserted (s : LogSession) : ℕ := s.removed + s.collector.buffer.length

/-- What `since` returns at the cursor, with the numbers. -/
def fresh (s : LogSession) : List (LogEvent × ℕ) :=
  (s.collector.buffer.zipIdx s.removed).filter fun d => s.cursor < d.1.id

def step (toLowercase : String → String) (s : LogSession) : LogAction → Option LogSession
  | .assign event =>
    match s.collector.assignId toLowercase event with
    | some (event, collector) => some { s with collector := collector, waiting := s.waiting ++ [event] }
    | none => some s
  | .insert k =>
    s.waiting[k]?.map fun event =>
      { s with
        collector := s.collector.insert event
        waiting := s.waiting.eraseIdx k
        removed := s.removed + s.collector.evicted }
  | .clear =>
    some { s with collector := s.collector.clear, removed := s.removed + s.collector.buffer.length }
  | .read => some { s with received := s.received ++ s.fresh }

/-- Without the numbers, what a read adds is what `since` returns. -/
theorem fresh_since (s : LogSession) : s.fresh.map Prod.fst = s.collector.since s.cursor := by
  unfold fresh BufferedCollector.since
  conv_rhs => rw [← List.zipIdx_map_fst s.removed s.collector.buffer, List.filter_map]
  rfl

end LogSession

theorem id_le_largestId {events : List LogEvent} {e : LogEvent} (h : e ∈ events) : e.id ≤ largestId events := by
  induction events with
  | nil => cases h
  | cons x events ih =>
    unfold largestId
    rw [List.foldr_cons]
    change e.id ≤ if largestId events < x.id then x.id else largestId events
    rcases List.mem_cons.mp h with rfl | hmem
    · split
      · exact UInt64.le_refl _
      · exact UInt64.not_lt.mp ‹_›
    · split
      · exact UInt64.le_trans (ih hmem) (UInt64.le_of_lt ‹_›)
      · exact ih hmem

theorem largestId_le_append (events more : List LogEvent) : largestId events ≤ largestId (events ++ more) := by
  induction events with
  | nil => exact UInt64.zero_le
  | cons x events ih =>
    unfold largestId
    rw [List.cons_append, List.foldr_cons, List.foldr_cons]
    change (if largestId events < x.id then x.id else largestId events) ≤
      if largestId (events ++ more) < x.id then x.id else largestId (events ++ more)
    split
    · split
      · exact UInt64.le_refl _
      · exact UInt64.not_lt.mp ‹_›
    · split
      · exact UInt64.le_trans ih (UInt64.le_of_lt ‹_›)
      · exact ih

namespace LogSession

theorem cursor_read (s : LogSession) :
    s.cursor ≤ ({ s with received := s.received ++ s.fresh } : LogSession).cursor := by
  unfold cursor
  rw [List.map_append]
  exact largestId_le_append _ _

theorem mem_fresh {s : LogSession} {event : LogEvent} {n : ℕ} :
    (event, n) ∈ s.fresh ↔ (s.removed ≤ n ∧ s.collector.buffer[n - s.removed]? = some event) ∧ s.cursor < event.id := by
  unfold fresh
  rw [List.mem_filter, List.mk_mem_zipIdx_iff_le_and_getElem?_sub, decide_eq_true_iff]

theorem count_fresh (s : LogSession) (event : LogEvent) (n : ℕ) :
    s.fresh.count (event, n) = if (event, n) ∈ s.fresh then 1 else 0 :=
  ((nodup_zipIdx _ _).filter _).count

theorem step_cases {toLowercase : String → String} {s s' : LogSession} {a : LogAction}
    (h : step toLowercase s a = some s') :
    (∃ m more, m ≤ s.collector.buffer.length ∧ s'.collector.buffer = s.collector.buffer.drop m ++ more ∧
        s'.removed = s.removed + m ∧ s'.received = s.received) ∨
      s' = { s with received := s.received ++ s.fresh } := by
  cases a with
  | assign event =>
    refine .inl ⟨0, [], Nat.zero_le _, ?_⟩
    rw [List.drop_zero, List.append_nil, Nat.add_zero]
    unfold step BufferedCollector.assignId at h
    dsimp only at h
    split at h
    · rename_i heq
      obtain ⟨-, heq⟩ := Option.ite_none_right_eq_some.mp heq
      cases heq
      cases h
      exact ⟨rfl, rfl, rfl⟩
    · cases h
      exact ⟨rfl, rfl, rfl⟩
  | insert k =>
    obtain ⟨event, -, rfl⟩ := Option.map_eq_some_iff.mp h
    exact .inl ⟨s.collector.evicted, [event], s.collector.evicted_le, s.collector.insert_buffer event, rfl, rfl⟩
  | clear =>
    cases h
    refine .inl ⟨s.collector.buffer.length, [], le_rfl, ?_, rfl, rfl⟩
    rw [List.drop_length, List.append_nil]
    rfl
  | read =>
    cases h
    exact .inr rfl

/-! ### What becomes of an event -/

/-- Still in the buffer, above the cursor and not yet received. -/
structure Due (n : ℕ) (event : LogEvent) (s : LogSession) : Prop where
  inBuffer : s.removed ≤ n
  kept : s.collector.buffer[n - s.removed]? = some event
  unread : s.received.count (event, n) = 0
  above : s.cursor < event.id

/-- Received so often, and never again. -/
structure Settled (times n : ℕ) (event : LogEvent) (s : LogSession) : Prop where
  received : s.received.count (event, n) = times
  passed : event.id ≤ s.cursor

def Numbered (s : LogSession) : Prop := ∀ d ∈ s.received, d.2 < s.inserted

section Steps
variable {toLowercase : String → String} {s s' : LogSession} {a : LogAction} {times n : ℕ} {event : LogEvent}

theorem settled_step (h : Settled times n event s) (hstep : step toLowercase s a = some s') :
    Settled times n event s' := by
  rcases step_cases hstep with ⟨m, more, -, -, -, hreceived⟩ | rfl
  · refine ⟨by rw [hreceived, h.received], ?_⟩
    unfold cursor
    rw [hreceived]
    exact h.passed
  · refine ⟨?_, UInt64.le_trans h.passed (cursor_read s)⟩
    have hnot : (event, n) ∉ s.fresh := fun hmem => UInt64.not_lt.mpr h.passed (mem_fresh.mp hmem).2
    rw [List.count_append, h.received, count_fresh, if_neg hnot, Nat.add_zero]

theorem removed_step (hstep : step toLowercase s a = some s') : s.removed ≤ s'.removed := by
  rcases step_cases hstep with ⟨m, more, -, -, hremoved, -⟩ | rfl
  · omega
  · exact le_rfl

theorem due_read (h : Due n event s) : Settled 1 n event { s with received := s.received ++ s.fresh } := by
  have hmem : (event, n) ∈ s.fresh := mem_fresh.mpr ⟨⟨h.inBuffer, h.kept⟩, h.above⟩
  refine ⟨?_, id_le_largestId (List.mem_map_of_mem (List.mem_append_right _ hmem))⟩
  rw [List.count_append, h.unread, count_fresh, if_pos hmem]

theorem due_step (h : Due n event s) (hstep : step toLowercase s a = some s') :
    Due n event s' ∨ Settled 1 n event s' ∨ n < s'.removed := by
  rcases step_cases hstep with ⟨m, more, hm, hbuffer, hremoved, hreceived⟩ | rfl
  · rcases Nat.lt_or_ge n s'.removed with hgone | hkept
    · exact .inr (.inr hgone)
    · refine .inl ⟨hkept, ?_, by rw [hreceived, h.unread], ?_⟩
      · have hindex := (List.getElem?_eq_some_iff.mp h.kept).1
        have hsub : m + (n - s'.removed) = n - s.removed := by omega
        rw [hbuffer, List.getElem?_append_left (by rw [List.length_drop]; omega), List.getElem?_drop, hsub]
        exact h.kept
      · unfold cursor
        rw [hreceived]
        exact h.above
  · exact .inr (.inl (due_read h))

theorem numbered_step (h : Numbered s) (hstep : step toLowercase s a = some s') : Numbered s' := by
  rcases step_cases hstep with ⟨m, more, hm, hbuffer, hremoved, hreceived⟩ | rfl
  · intro d hd
    rw [hreceived] at hd
    have hlt := h d hd
    unfold inserted at hlt ⊢
    rw [hbuffer, hremoved, List.length_append, List.length_drop]
    omega
  · intro d hd
    rcases List.mem_append.mp hd with hd | hd
    · exact h d hd
    · obtain ⟨⟨hle, hget⟩, -⟩ := mem_fresh.mp hd
      have hindex := (List.getElem?_eq_some_iff.mp hget).1
      unfold inserted
      dsimp only
      omega

theorem insert_step {k : ℕ} (hnumbered : Numbered s) (hwaiting : s.waiting[k]? = some event)
    (hstep : step toLowercase s (.insert k) = some s') :
    (s.cursor < event.id → Due s.inserted event s') ∧ (event.id ≤ s.cursor → Settled 0 s.inserted event s') := by
  have hnone : s.received.count (event, s.inserted) = 0 :=
    List.count_eq_zero.mpr fun hmem => Nat.lt_irrefl _ (hnumbered _ hmem)
  obtain ⟨event', hwaiting', rfl⟩ := Option.map_eq_some_iff.mp hstep
  rw [hwaiting] at hwaiting'
  cases hwaiting'
  have hle := s.collector.evicted_le
  refine ⟨fun habove => ⟨?_, ?_, hnone, habove⟩, fun hpassed => ⟨hnone, hpassed⟩⟩
  · unfold inserted
    dsimp only
    omega
  · have hindex : s.inserted - (s.removed + s.collector.evicted) =
        (s.collector.buffer.drop s.collector.evicted).length := by
      unfold inserted
      rw [List.length_drop]
      omega
    dsimp only
    rw [hindex, s.collector.insert_buffer, List.getElem?_concat_length]

end Steps

end LogSession

/-! ### Whole runs -/

section Runs
variable (toLowercase : String → String) (first : LogSession) (actions : List LogAction)

/-- An insertion of the run, with the state before it, whose event is still in the buffer at a later call
of the reader. -/
def KeptTillRead (s : LogSession) (event : LogEvent) : Prop :=
  ∃ before k between after s₂, actions = before ++ .insert k :: (between ++ .read :: after) ∧
    Machine.run (LogSession.step toLowercase) first before = some s ∧ s.waiting[k]? = some event ∧
    Machine.run (LogSession.step toLowercase) first (before ++ .insert k :: between) = some s₂ ∧
    s₂.removed ≤ s.inserted

variable {toLowercase first actions}

/-- One event of a run: what decides is the cursor when it is inserted. -/
theorem received_once_iff {s s' : LogSession} {event : LogEvent} (hfirst : first.Numbered)
    (hrun : Machine.run (LogSession.step toLowercase) first actions = some s')
    (hkept : KeptTillRead toLowercase first actions s event) :
    s'.received.count (event, s.inserted) = 1 ↔ s.cursor < event.id := by
  obtain ⟨before, k, between, after, s₂, rfl, hbefore, hwaiting, hread, hle⟩ := hkept
  have hnumbered :=
    Machine.run_invariant LogSession.Numbered (fun _ _ _ => LogSession.numbered_step) before hfirst hbefore
  rw [Machine.run_append, hbefore, Option.bind_some] at hrun hread
  obtain ⟨s₁, hinsert, hbetween⟩ := Option.bind_eq_some_iff.mp hread
  rw [Machine.run, hinsert, Option.bind_some] at hrun
  obtain ⟨hdue, hpassed⟩ := LogSession.insert_step hnumbered hwaiting hinsert
  constructor
  · intro honce
    by_contra hnot
    have hsettled := Machine.run_invariant (LogSession.Settled 0 s.inserted event)
      (fun _ _ _ => LogSession.settled_step) _ (hpassed (UInt64.not_lt.mp hnot)) hrun
    rw [hsettled.received] at honce
    cases honce
  · intro habove
    -- before the reader calls, the event is due, has been received or has left the buffer
    have hphase := Machine.run_invariant
      (fun t => t.Due s.inserted event ∨ t.Settled 1 s.inserted event ∨ s.inserted < t.removed)
      (fun t a t' h hstep => by
        rcases h with h | h | h
        · exact LogSession.due_step h hstep
        · exact .inr (.inl (LogSession.settled_step h hstep))
        · exact .inr (.inr (Nat.lt_of_lt_of_le h (LogSession.removed_step hstep))))
      between (.inl (hdue habove)) hbetween
    rw [Machine.run_append, hbetween, Option.bind_some] at hrun
    obtain ⟨s₃, hs₃, hafter⟩ := Option.bind_eq_some_iff.mp hrun
    have hsettled : LogSession.Settled 1 s.inserted event s₃ := by
      rcases hphase with h | h | h
      · cases hs₃
        exact LogSession.due_read h
      · exact LogSession.settled_step h hs₃
      · exact absurd h (Nat.not_lt.mpr hle)
    exact (Machine.run_invariant _ (fun _ _ _ => LogSession.settled_step) after hsettled hafter).received

end Runs

/-- Along every run, with any number of calls of `collect` in progress: the reader receives every event that is
in the buffer when it calls after the insertion exactly once, if and only if each of them is inserted with an id
above the cursor. -/
theorem cursor_law_iff (toLowercase : String → String) (capacity : ℕ) (filter : Option LogFilter)
    (actions : List LogAction) (s' : LogSession)
    (hrun : Machine.run (LogSession.step toLowercase) (.start capacity filter) actions = some s') :
    (∀ s event, KeptTillRead toLowercase (.start capacity filter) actions s event →
        s'.received.count (event, s.inserted) = 1) ↔
      ∀ s event, KeptTillRead toLowercase (.start capacity filter) actions s event → s.cursor < event.id := by
  have hfirst : (LogSession.start capacity filter).Numbered := fun _ hd => absurd hd List.not_mem_nil
  exact forall₂_congr fun s event => forall_congr' fun hkept => received_once_iff hfirst hrun hkept

/-- The second of two calls inserts its event first, and the reader calls before the other insertion and after it. -/
def overtakingRun : List LogAction :=
  [.assign startEvent, .assign startEvent, .insert 1, .read, .insert 0, .read]

theorem cursor_law_overtaking : ∃ s', Machine.run (LogSession.step id) (.start 10 none) overtakingRun = some s' ∧
    ((∀ s event, KeptTillRead id (.start 10 none) overtakingRun s event → s'.received.count (event, s.inserted) = 1) ↔
      ∀ s event, KeptTillRead id (.start 10 none) overtakingRun s event → s.cursor < event.id) :=
  ⟨_, rfl, cursor_law_iff id 10 none overtakingRun _ rfl⟩

theorem cursor_skips : ∃ s s' event, Machine.run (LogSession.step id) (.start 10 none) overtakingRun = some s' ∧
    KeptTillRead id (.start 10 none) overtakingRun s event ∧ s'.received.count (event, s.inserted) = 0 := by
  refine ⟨_, _, { startEvent with id := 1 }, rfl,
    ⟨overtakingRun.take 4, 0, [], [], _, rfl, rfl, rfl, rfl, ?_⟩, ?_⟩
  · decide
  · decide

end Xerv.Logging
