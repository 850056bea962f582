import Xerv.Nodes.Triggers

/-!
# Restarting a trigger (`triggers/queue.rs`, `triggers/memory.rs`)

Call 0 is the start call whose loop is stopped, call 1 the stop call, and call 2 a start call that begins
when call 1 has returned. What is left of call 0 after its loop, the clean-up, may come at any time.
-/

namespace Xerv.Nodes
open Xerv.Lib

namespace TriggerWorld

def cleanup : List TriggerOp := [.loop false, .clearSender, .setRunning false]

/-- The steps of a start call between its check and its loop. -/
def opening : TriggerKind → List TriggerOp
  | .queue => [.setRunning true, .publishShutdown, .publishSender]
  | .memory => [.setRunning true, .resetCount, .publishShutdown, .publishSender]
  | .cron => [.setRunning true, .publishShutdown]
  | .webhook => [.bind, .setRunning true, .publishShutdown]

def started (kind : TriggerKind) : TriggerWorld :=
  (.start :: List.replicate 5 (.advance 0 false)).foldl (next kind) initial

def move (w : TriggerWorld) (m : ℕ × Bool) : TriggerWorld := w.advance m.1 m.2

/-- After the stop call and some steps of the first two calls. -/
def stopped (kind : TriggerKind) (moves : List (ℕ × Bool)) : TriggerWorld :=
  moves.foldl move ((started kind).next kind .stop)

def restarted (kind : TriggerKind) (before after : List (ℕ × Bool)) : TriggerWorld :=
  after.foldl move ((stopped kind before).next kind .start)

/-- The new call stores `running` while the old one has not returned. -/
def restartsEarly (w : TriggerWorld) (m : ℕ × Bool) : Bool :=
  decide (m.1 = 2) && decide ((w.calls 2).ops.head? = some (.setRunning true)) &&
    decide ((w.calls 0).ops ≠ [])

section Restart
variable (kind : TriggerKind)

/-! ### Until the stop call has returned -/

structure Stopping (w : TriggerWorld) : Prop where
  old : (w.calls 0).ops <:+ cleanup
  stop : (w.calls 1).ops <:+ cleanup.tail
  idle : ∀ i, 2 ≤ i → (w.calls i).ops = []
  size : w.size = 2
  taken : w.shutdownTx = none
  running : (w.calls 1).ops = [] → w.running = false

theorem cleanup_cases {op : TriggerOp} {rest : List TriggerOp} (h : op :: rest <:+ cleanup) :
    (op = .loop false ∧ rest = cleanup.tail) ∨ (op = .clearSender ∧ rest = [.setRunning false]) ∨
      (op = .setRunning false ∧ rest = []) := by
  simpa [cleanup, List.suffix_cons_iff] using h

theorem cleanup_op {op : TriggerOp} {rest : List TriggerOp} (h : op :: rest <:+ cleanup) :
    op ≠ .publishShutdown ∧ op ≠ .takeShutdown ∧ op ≠ .setRunning true ∧ op ≠ .publishSender := by
  rcases cleanup_cases h with ⟨rfl, -⟩ | ⟨rfl, -⟩ | ⟨rfl, -⟩
  · decide
  · decide
  · decide

theorem stop_cases {op : TriggerOp} {rest : List TriggerOp} (h : op :: rest <:+ cleanup.tail) :
    (op = .clearSender ∧ rest = [.setRunning false]) ∨ (op = .setRunning false ∧ rest = []) := by
  simpa [cleanup, List.suffix_cons_iff] using h

theorem Stopping.move {w : TriggerWorld} (hw : w.Stopping) (m : ℕ × Bool) : (w.move m).Stopping := by
  unfold TriggerWorld.move advance
  split
  · exact hw
  · next op rest h =>
    have hm : m.1 = 0 ∨ m.1 = 1 := by
      by_contra hne
      rw [hw.idle m.1 (by omega)] at h
      cases h
    have hcleanup : op :: rest <:+ cleanup := by
      rw [← h]
      rcases hm with hm | hm
      · rw [hm]
        exact hw.old
      · rw [hm]
        exact hw.stop.trans (List.tail_suffix cleanup)
    obtain ⟨hpublish, htake, hset, -⟩ := cleanup_op hcleanup
    have hleft := w.leftOps_suffix m.1 rest m.2 op h
    constructor
    · rw [perform_ops]
      split
      · next hm0 => exact (h ▸ hleft).trans (hm0 ▸ hw.old)
      · exact hw.old
    · rw [perform_ops]
      split
      · next hm1 => exact (h ▸ hleft).trans (hm1 ▸ hw.stop)
      · exact hw.stop
    · intro i hi
      rw [perform_ops, if_neg (by omega)]
      exact hw.idle i hi
    · rw [perform_size]
      exact hw.size
    · rw [perform_shutdownTx, if_neg hpublish, if_neg htake]
      exact hw.taken
    · intro hdone
      rw [perform_ops] at hdone
      rw [perform_running, if_neg hset]
      rcases hm with hm | hm
      · rw [if_neg (by omega)] at hdone
        rw [hw.running hdone, ite_self]
      · rw [if_pos hm.symm] at hdone
        rw [hm] at h
        rcases stop_cases (h ▸ hw.stop) with ⟨rfl, rfl⟩ | ⟨rfl, -⟩
        · cases hdone
        · rfl

theorem stopping_stopped (hkind : kind = .queue ∨ kind = .memory) (moves : List (ℕ × Bool)) :
    (stopped kind moves).Stopping := by
  have hsound : ((started kind).next kind .stop).Sound kind :=
    ((sound_initial kind).run kind _).next kind .stop
  have hbegin : ((started kind).next kind .stop).Stopping := by
    rcases hkind with rfl | rfl
    · exact ⟨by decide, by decide, hsound.beyond, rfl, rfl, fun hdone => absurd hdone (by decide)⟩
    · exact ⟨by decide, by decide, hsound.beyond, rfl, rfl, fun hdone => absurd hdone (by decide)⟩
  unfold stopped
  generalize (started kind).next kind .stop = w at hbegin
  induction moves generalizing w with
  | nil => exact hbegin
  | cons m moves ih => exact ih _ (hbegin.move m)

/-! ### From the begin of the new call -/

/-- The new call has `ahead` left before its loop. -/
structure Restarting (w : TriggerWorld) (ahead : List TriggerOp) : Prop where
  old : (w.calls 0).ops <:+ cleanup
  stop : (w.calls 1).ops = []
  new : (w.calls 2).ops = ahead ++ cleanup
  opens : ahead <:+ opening kind
  idle : ∀ i, 3 ≤ i → (w.calls i).ops = []
  unsignalled : (w.calls 2).signalled = false
  taken : .publishShutdown ∈ ahead → w.shutdownTx = none

/-- The new call has yet to store `running`, or has done so after the old one returned. -/
def Restarts (w : TriggerWorld) : Prop :=
  .setRunning true ∈ (w.calls 2).ops ∨
    ((w.calls 0).ops = [] ∧ w.running = true ∧ (.publishSender ∈ (w.calls 2).ops ∨ w.senderTx = some 2))

theorem opening_cases (hkind : kind = .queue ∨ kind = .memory) {op : TriggerOp} {ahead : List TriggerOp}
    (h : op :: ahead <:+ opening kind) :
    (op = .setRunning true ∧ .setRunning true ∉ ahead ∧ .publishSender ∈ ahead) ∨
      (op = .resetCount ∧ .setRunning true ∉ ahead ∧ .publishSender ∈ ahead) ∨
      (op = .publishShutdown ∧ ahead = [.publishSender]) ∨ (op = .publishSender ∧ ahead = []) := by
  rcases hkind with rfl | rfl
  · simp [opening, List.suffix_cons_iff] at h
    rcases h with ⟨rfl, rfl⟩ | ⟨rfl, rfl⟩ | ⟨rfl, rfl⟩
    · exact Or.inl (by decide)
    · exact Or.inr (Or.inr (Or.inl ⟨rfl, rfl⟩))
    · exact Or.inr (Or.inr (Or.inr ⟨rfl, rfl⟩))
  · simp [opening, List.suffix_cons_iff] at h
    rcases h with ⟨rfl, rfl⟩ | ⟨rfl, rfl⟩ | ⟨rfl, rfl⟩ | ⟨rfl, rfl⟩
    · exact Or.inl (by decide)
    · exact Or.inr (Or.inl (by decide))
    · exact Or.inr (Or.inr (Or.inl ⟨rfl, rfl⟩))
    · exact Or.inr (Or.inr (Or.inr ⟨rfl, rfl⟩))

variable {kind}
variable {w : TriggerWorld} {ahead : List TriggerOp}

theorem cleanup_resets {op : TriggerOp} {rest : List TriggerOp} (answer : Bool)
    (hops : (w.calls 0).ops = op :: rest) (hcleanup : op :: rest <:+ cleanup) :
    ¬ (((w.perform 0 rest answer op).calls 0).ops = [] ∧ (w.perform 0 rest answer op).running = true) := by
  rintro ⟨hdone, hrunning⟩
  rw [perform_ops, if_pos rfl] at hdone
  rw [perform_running, if_neg (cleanup_op hcleanup).2.2.1] at hrunning
  rcases cleanup_cases hcleanup with ⟨rfl, rfl⟩ | ⟨rfl, rfl⟩ | ⟨rfl, rfl⟩
  · dsimp only [leftOps] at hdone
    split at hdone
    · cases hdone
    · rw [hops] at hdone
      cases hdone
  · cases hdone
  · cases hrunning

theorem old_step (h : w.Restarting kind ahead) {op : TriggerOp} {rest : List TriggerOp} (answer : Bool)
    (hops : (w.calls 0).ops = op :: rest) :
    (w.perform 0 rest answer op).Restarting kind ahead ∧
      ((w.perform 0 rest answer op).Restarts ↔ w.Restarts) := by
  have hcleanup : op :: rest <:+ cleanup := hops ▸ h.old
  obtain ⟨hpublish, htake, -⟩ := cleanup_op hcleanup
  have hleft := w.leftOps_suffix 0 rest answer op hops
  have huses : op.usesShutdown = false := by
    rcases cleanup_cases hcleanup with ⟨rfl, -⟩ | ⟨rfl, -⟩ | ⟨rfl, -⟩
    · rfl
    · rfl
    · rfl
  have hnew : ((w.perform 0 rest answer op).calls 2).ops = (w.calls 2).ops := by
    rw [perform_ops, if_neg (by decide)]
  have hnot := cleanup_resets answer hops hcleanup
  refine ⟨⟨?_, ?_, ?_, h.opens, ?_, ?_, ?_⟩, ?_⟩
  · rw [perform_ops, if_pos rfl]
    exact hleft.trans hcleanup
  · rw [perform_ops, if_neg (by decide)]
    exact h.stop
  · rw [hnew]
    exact h.new
  · intro i hi
    rw [perform_ops, if_neg (by omega)]
    exact h.idle i hi
  · rw [perform_signalled, huses, Bool.false_and, Bool.or_false]
    exact h.unsignalled
  · intro hmem
    rw [perform_shutdownTx, if_neg hpublish, if_neg htake]
    exact h.taken hmem
  · unfold Restarts
    rw [hnew]
    constructor
    · rintro (hahead | ⟨hdone, hrunning, -⟩)
      · exact Or.inl hahead
      · exact absurd ⟨hdone, hrunning⟩ hnot
    · rintro (hahead | ⟨hdone, -, -⟩)
      · exact Or.inl hahead
      · rw [hops] at hdone
        cases hdone

theorem new_step (hkind : kind = .queue ∨ kind = .memory) {op : TriggerOp}
    (h : w.Restarting kind (op :: ahead)) (answer : Bool) :
    (w.perform 2 (ahead ++ cleanup) answer op).Restarting kind ahead ∧
      ((w.perform 2 (ahead ++ cleanup) answer op).Restarts ↔
        w.Restarts ∧ w.restartsEarly (2, answer) = false) := by
  have hcases := opening_cases kind hkind h.opens
  have hnew : w.leftOps 2 (ahead ++ cleanup) answer op = ahead ++ cleanup := by
    rcases hcases with ⟨rfl, -⟩ | ⟨rfl, -⟩ | ⟨rfl, -⟩ | ⟨rfl, -⟩
    · rfl
    · rfl
    · rfl
    · rfl
  have hops (i : ℕ) : ((w.perform 2 (ahead ++ cleanup) answer op).calls i).ops =
      if i = 2 then ahead ++ cleanup else (w.calls i).ops := by
    rw [perform_ops, hnew]
  refine ⟨⟨?_, ?_, ?_, (List.suffix_cons op ahead).trans h.opens, ?_, ?_, ?_⟩, ?_⟩
  · rw [hops, if_neg (by decide)]
    exact h.old
  · rw [hops, if_neg (by decide)]
    exact h.stop
  · rw [hops, if_pos rfl]
  · intro i hi
    rw [hops, if_neg (by omega)]
    exact h.idle i hi
  · rw [perform_signalled, h.unsignalled, Bool.false_or, Bool.and_eq_false_iff]
    rcases hcases with ⟨rfl, -⟩ | ⟨rfl, -⟩ | ⟨rfl, -⟩ | ⟨rfl, -⟩
    · exact Or.inl rfl
    · exact Or.inl rfl
    · exact Or.inr (by simp [h.taken List.mem_cons_self])
    · exact Or.inl rfl
  · intro hmem
    have htx := h.taken (List.mem_cons_of_mem op hmem)
    rw [perform_shutdownTx]
    rcases hcases with ⟨rfl, -⟩ | ⟨rfl, -⟩ | ⟨rfl, rfl⟩ | ⟨rfl, -⟩
    · exact htx
    · exact htx
    · exact absurd hmem (by decide)
    · exact htx
  · have hset : TriggerOp.setRunning true ∉ cleanup := by decide
    have hsend : TriggerOp.publishSender ∉ cleanup := by decide
    unfold Restarts restartsEarly
    rw [hops 2, hops 0, if_pos rfl, if_neg (by decide), h.new, perform_running, perform_senderTx]
    rcases hcases with ⟨rfl, hahead, hsender⟩ | ⟨rfl, hahead, hsender⟩ | ⟨rfl, rfl⟩ | ⟨rfl, rfl⟩
    · -- the store of `running`: only now does it matter whether the old call has returned
      simp [hset, hahead, hsender]
    · simp [hset, hahead, hsender]
    · simp [hset]
    · simp [hset, hsend]

theorem restarting_move (hkind : kind = .queue ∨ kind = .memory) (m : ℕ × Bool)
    (h : ∃ ahead, w.Restarting kind ahead) :
    (∃ ahead, (w.move m).Restarting kind ahead) ∧
      ((w.move m).Restarts ↔ w.Restarts ∧ w.restartsEarly m = false) := by
  obtain ⟨ahead, h⟩ := h
  have hquiet (hmove : w.move m = w) (hm : w.restartsEarly m = false) :
      (∃ ahead, (w.move m).Restarting kind ahead) ∧
        ((w.move m).Restarts ↔ w.Restarts ∧ w.restartsEarly m = false) := by
    rw [hmove, hm]
    exact ⟨⟨ahead, h⟩, (and_iff_left rfl).symm⟩
  by_cases hm2 : m.1 = 2
  · obtain ⟨i, answer⟩ := m
    dsimp only at hm2
    subst hm2
    cases ahead with
    | nil =>
      refine hquiet ?_ ?_
      · simp [TriggerWorld.move, advance, h.new, cleanup, perform, h.unsignalled]
      · simp [restartsEarly, h.new, cleanup]
    | cons op ahead =>
      have hmove : w.move (2, answer) = w.perform 2 (ahead ++ cleanup) answer op := by
        simp [TriggerWorld.move, advance, h.new]
      rw [hmove]
      obtain ⟨hnext, hiff⟩ := new_step hkind h answer
      exact ⟨⟨ahead, hnext⟩, hiff⟩
  · have hm : w.restartsEarly m = false := by
      simp [restartsEarly, hm2]
    cases hops : (w.calls m.1).ops with
    | nil =>
      refine hquiet ?_ hm
      simp [TriggerWorld.move, advance, hops]
    | cons op rest =>
      have hm0 : m.1 = 0 := by
        by_contra hne
        have hnil : (w.calls m.1).ops = [] := by
          by_cases hm1 : m.1 = 1
          · rw [hm1]
            exact h.stop
          · exact h.idle m.1 (by omega)
        rw [hnil] at hops
        cases hops
      have hmove : w.move m = w.perform 0 rest m.2 op := by
        rw [hm0] at hops
        simp [TriggerWorld.move, advance, hm0, hops]
      rw [hm0] at hops
      obtain ⟨hnext, hiff⟩ := old_step h m.2 hops
      rw [hmove, hm]
      exact ⟨⟨ahead, hnext⟩, hiff.trans (and_iff_left rfl).symm⟩

theorem restarting_begin (hkind : kind = .queue ∨ kind = .memory) (h : w.Stopping)
    (hstopped : (w.calls 1).ops = []) :
    (w.next kind .start).Restarting kind (opening kind) ∧ (w.next kind .start).Restarts := by
  have htail : CallKind.ops kind .start = .checkRunning :: (opening kind ++ cleanup) := by
    rcases hkind with rfl | rfl
    · rfl
    · rfl
  have hset : TriggerOp.setRunning true ∈ opening kind := by
    rcases hkind with rfl | rfl
    · decide
    · decide
  have hnext : w.next kind .start = (w.enter kind .start).proceed 2 (opening kind ++ cleanup) := by
    rw [show w.next kind .start = w.begin kind .start from rfl, begin_eq, htail, List.tail_cons, h.size]
    simp [perform, CallKind.first, enter, h.running hstopped]
  have hother {i : ℕ} (hi : i ≠ 2) : ((w.next kind .start).calls i).ops = (w.calls i).ops := by
    rw [hnext, proceed_ops, if_neg hi, enter_other kind w .start (h.size ▸ hi)]
  have hnew : ((w.next kind .start).calls 2).ops = opening kind ++ cleanup := by
    rw [hnext, proceed_ops, if_pos rfl]
  refine ⟨⟨?_, ?_, hnew, List.suffix_rfl, ?_, ?_, fun _ => ?_⟩, Or.inl ?_⟩
  · rw [hother (by decide)]
    exact h.old
  · rw [hother (by decide)]
    exact hstopped
  · intro i hi
    rw [hother (by omega)]
    exact h.idle i (by omega)
  · have hself := enter_self kind w .start
    rw [h.size] at hself
    rw [hnext, proceed_signalled, hself]
  · rw [hnext]
    exact h.taken
  · rw [hnew]
    exact List.mem_append_left cleanup hset

theorem restarts_iff (hkind : kind = .queue ∨ kind = .memory) (h : w.Restarting kind ahead)
    (hold : (w.calls 0).ops = []) (hnew : (w.calls 2).inLoop = true) :
    w.Restarts ↔ w.isRunning = true ∧ w.handle = some 2 := by
  cases ahead with
  | nil => simp [Restarts, h.new, hold, cleanup, isRunning, handle]
  | cons op ahead =>
    rw [TriggerCall.inLoop, h.new] at hnew
    rcases opening_cases kind hkind h.opens with ⟨rfl, -⟩ | ⟨rfl, -⟩ | ⟨rfl, -⟩ | ⟨rfl, -⟩
    · cases hnew
    · cases hnew
    · cases hnew
    · cases hnew

variable (kind)

/-- A stop call and then a start call, with the clean-up of the old loop before, between or after any of their
steps: once the old call has returned and the new one is in its loop, the trigger runs and hands out the sender
of this loop if and only if the old call had returned when the new one stored `running`. -/
theorem restarted_works_iff (hkind : kind = .queue ∨ kind = .memory) (before after : List (ℕ × Bool))
    (hstopped : ((stopped kind before).calls 1).ops = [])
    (hold : ((restarted kind before after).calls 0).ops = [])
    (hnew : ((restarted kind before after).calls 2).inLoop = true) :
    ((restarted kind before after).isRunning = true ∧ (restarted kind before after).handle = some 2) ↔
      ∀ past m, past ++ [m] <+: after → (restarted kind before past).restartsEarly m = false := by
  obtain ⟨hbegin, hgood⟩ := restarting_begin hkind (stopping_stopped kind hkind before) hstopped
  have hstep (w : TriggerWorld) (m : ℕ × Bool) (h : ∃ ahead, w.Restarting kind ahead) :=
    restarting_move hkind m h
  have hrun (moves : List (ℕ × Bool)) : ∃ ahead, (restarted kind before moves).Restarting kind ahead := by
    unfold restarted
    induction moves using List.reverseRecOn with
    | nil => exact ⟨opening kind, hbegin⟩
    | append_singleton moves m ih =>
      rw [Machine.foldl_concat]
      exact (hstep _ m ih).1
  obtain ⟨ahead, hfinal⟩ := hrun after
  rw [← restarts_iff hkind hfinal hold hnew]
  exact Machine.foldl_lasting_iff TriggerWorld.move restartsEarly (fun w => ∃ ahead, w.Restarting kind ahead)
    Restarts (fun w m h => (hstep w m h).1) (fun w m h => (hstep w m h).2) after ⟨opening kind, hbegin⟩ hgood

end Restart

/-! ### The clean-up before the restart, and after it -/

def cleanupMoves : List (ℕ × Bool) := [(0, true), (0, true), (0, true)]

def stopMoves : List (ℕ × Bool) := [(1, true), (1, true)]

def newMoves : List (ℕ × Bool) := [(2, true), (2, true), (2, true), (2, true)]

theorem restarted_after_cleanup :
    ((restarted .queue (stopMoves ++ cleanupMoves) newMoves).isRunning = true ∧
        (restarted .queue (stopMoves ++ cleanupMoves) newMoves).handle = some 2) ↔
      ∀ past m, past ++ [m] <+: newMoves →
        (restarted .queue (stopMoves ++ cleanupMoves) past).restartsEarly m = false :=
  restarted_works_iff .queue (Or.inl rfl) (stopMoves ++ cleanupMoves) newMoves rfl rfl rfl

/-- The old loop wakes up when the new one is already entered. -/
theorem late_cleanup_stops_restarted :
    ((stopped .queue stopMoves).calls 1).ops = [] ∧
      ((restarted .queue stopMoves (newMoves ++ cleanupMoves)).calls 0).ops = [] ∧
      ((restarted .queue stopMoves (newMoves ++ cleanupMoves)).calls 2).inLoop = true ∧
      (restarted .queue stopMoves (newMoves ++ cleanupMoves)).isRunning = false ∧
      (restarted .queue stopMoves (newMoves ++ cleanupMoves)).handle = none ∧
      (restarted .memory stopMoves (newMoves ++ cleanupMoves)).isRunning = false ∧
      (restarted .memory stopMoves (newMoves ++ cleanupMoves)).handle = none :=
  ⟨rfl, rfl, rfl, rfl, rfl, rfl, rfl⟩

end TriggerWorld

end Xerv.Nodes
