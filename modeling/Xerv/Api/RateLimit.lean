import Mathlib.Algebra.Order.BigOperators.Group.List
import Mathlib.Algebra.Order.Group.Nat
import Xerv.Lib.FiniteMap
import Xerv.Lib.Machine
import Xerv.Lib.Positions
import Xerv.Lib.SlidingWindow

/-!
# The rate limiter (`xerv-executor/src/api/state.rs`)

`allow` keeps a queue of accepted requests for each address, and takes the time once it has the lock, so that the
times of the calls never decrease. An instant is its number of nanoseconds.
-/

namespace Xerv.Api
open Xerv.Lib

structure RateLimiter (Ip : Type) where
  requests : FiniteMap Ip (List ℕ)
  maxPerWindow : ℕ
  window : ℕ

/-- A call of `allow`: the address and the time it finds. -/
structure IpRequest (Ip : Type) where
  ip : Ip
  time : ℕ

/-- A call and its answer. -/
structure Decision (Ip : Type) extends IpRequest Ip where
  allowed : Bool

namespace RateLimiter
variable {Ip : Type} [DecidableEq Ip]

def withLimit (maxPerWindow window : ℕ) : RateLimiter Ip := ⟨∅, maxPerWindow, window⟩

/-- `RateLimiter::new`: twenty requests a second. -/
def new : RateLimiter Ip := withLimit 20 1000000000

/-- `requests.entry(ip).or_default()`. -/
def queue (r : RateLimiter Ip) (ip : Ip) : List ℕ := (r.requests.get ip).getD []

def setQueue (r : RateLimiter Ip) (ip : Ip) (queue : List ℕ) : RateLimiter Ip :=
  { r with requests := r.requests.insert ip queue }

def allow (r : RateLimiter Ip) (ip : Ip) (now : ℕ) : Bool × RateLimiter Ip :=
  let queue := dropAged r.window now (r.queue ip)
  if r.maxPerWindow ≤ queue.length then (false, r.setQueue ip queue)
  else (true, r.setQueue ip (queue ++ [now]))

def decideNext (x : RateLimiter Ip × List (Decision Ip)) (request : IpRequest Ip) :
    RateLimiter Ip × List (Decision Ip) :=
  let (allowed, r) := x.1.allow request.ip request.time
  (r, x.2 ++ [⟨request, allowed⟩])

def afterRequests (r : RateLimiter Ip) (requests : List (IpRequest Ip)) : RateLimiter Ip × List (Decision Ip) :=
  requests.foldl decideNext (r, [])

def decisions (r : RateLimiter Ip) (requests : List (IpRequest Ip)) : List (Decision Ip) :=
  (r.afterRequests requests).2

end RateLimiter

def acceptedTimes {Ip : Type} [DecidableEq Ip] (ip : Ip) (decisions : List (Decision Ip)) : List ℕ :=
  (decisions.filter fun d => d.ip = ip && d.allowed).map (·.time)

namespace RateLimiter
variable {Ip : Type} [DecidableEq Ip]

section Queues
variable (r : RateLimiter Ip) (ip : Ip) (queue : List ℕ)

@[simp] theorem queue_setQueue_self : (r.setQueue ip queue).queue ip = queue := by
  unfold setQueue RateLimiter.queue
  rw [FiniteMap.get_insert_self, Option.getD_some]

@[simp] theorem queue_setQueue_ne {other : Ip} (h : other ≠ ip) :
    (r.setQueue ip queue).queue other = r.queue other := by
  unfold setQueue RateLimiter.queue
  rw [FiniteMap.get_insert_ne _ _ h]

theorem allow_cases (now : ℕ) :
    (r.maxPerWindow ≤ (dropAged r.window now (r.queue ip)).length ∧
        r.allow ip now = (false, r.setQueue ip (dropAged r.window now (r.queue ip)))) ∨
      ((dropAged r.window now (r.queue ip)).length < r.maxPerWindow ∧
        r.allow ip now = (true, r.setQueue ip (dropAged r.window now (r.queue ip) ++ [now]))) := by
  unfold allow
  dsimp only
  split_ifs with h
  · exact .inl ⟨h, rfl⟩
  · exact .inr ⟨not_le.mp h, rfl⟩

end Queues

@[simp] theorem setQueue_maxPerWindow (r : RateLimiter Ip) (ip : Ip) (queue : List ℕ) :
    (r.setQueue ip queue).maxPerWindow = r.maxPerWindow := rfl

@[simp] theorem setQueue_window (r : RateLimiter Ip) (ip : Ip) (queue : List ℕ) :
    (r.setQueue ip queue).window = r.window := rfl

end RateLimiter

section Accepted
variable {Ip : Type} [DecidableEq Ip] {decisions : List (Decision Ip)} {request : IpRequest Ip}

theorem acceptedTimes_accepted :
    acceptedTimes request.ip (decisions ++ [⟨request, true⟩]) =
      acceptedTimes request.ip decisions ++ [request.time] := by
  unfold acceptedTimes
  rw [List.filter_append, List.map_append, List.filter_cons_of_pos (by simp)]
  rfl

theorem acceptedTimes_other {ip : Ip} {allowed : Bool} (h : request.ip = ip → allowed = false) :
    acceptedTimes ip (decisions ++ [⟨request, allowed⟩]) = acceptedTimes ip decisions := by
  have hnot : ¬ (decide (request.ip = ip) && allowed) = true := by
    rw [Bool.and_eq_true, decide_eq_true_eq]
    rintro ⟨hip, hallowed⟩
    rw [h hip] at hallowed
    cases hallowed
  unfold acceptedTimes
  rw [List.filter_append, List.filter_cons_of_neg (p := fun d : Decision Ip => decide (d.ip = ip) && d.allowed) hnot,
    List.filter_nil, List.append_nil]

end Accepted

namespace RateLimiter
variable {Ip : Type} [DecidableEq Ip] {maxPerWindow window : ℕ}

/-- A decision that refuses follows as many accepted requests of the address within the window as are allowed. -/
def Justified (maxPerWindow window : ℕ) (before : List (Decision Ip)) (d : Decision Ip) : Prop :=
  d.allowed = false →
    maxPerWindow ≤ (acceptedTimes d.ip before).countP fun t => d.time ≤ t + window ∧ t ≤ d.time

/-- What holds of a limiter and its decisions up to the time `last`. -/
structure Limits (maxPerWindow window : ℕ) (x : RateLimiter Ip × List (Decision Ip)) (last : ℕ) : Prop where
  limit : x.1.maxPerWindow = maxPerWindow
  span : x.1.window = window
  remembers : ∀ ip, Remembers window (acceptedTimes ip x.2) (x.1.queue ip) last
  bounded : ∀ ip start, countFrom start window (acceptedTimes ip x.2) ≤ maxPerWindow
  justified : ∀ before d after, x.2 = before ++ d :: after → Justified maxPerWindow window before d

namespace Limits
variable {x : RateLimiter Ip × List (Decision Ip)} {last : ℕ}

theorem start (maxPerWindow window last : ℕ) :
    Limits maxPerWindow window ((withLimit maxPerWindow window : RateLimiter Ip), []) last where
  limit := rfl
  span := rfl
  remembers ip := by
    unfold withLimit queue
    dsimp only
    rw [FiniteMap.get_empty]
    exact .nil _ _
  bounded _ _ := Nat.zero_le _
  justified before d after h := by
    have hlength := congrArg List.length h
    rw [List.length_append, List.length_cons, List.length_nil] at hlength
    omega

theorem later {now : ℕ} (h : Limits maxPerWindow window x last) (hle : last ≤ now) :
    Limits maxPerWindow window x now :=
  { h with remembers := fun ip => (h.remembers ip).later hle }

theorem step (h : Limits maxPerWindow window x last) (request : IpRequest Ip) (hle : last ≤ request.time) :
    Limits maxPerWindow window (decideNext x request) request.time := by
  obtain ⟨r, decisions⟩ := x
  obtain ⟨hlimit, hspan, hremembers, hbounded, hjustified⟩ := h
  dsimp only at hlimit hspan hremembers hbounded hjustified
  have hdropped := (hremembers request.ip).drop hle
  have hfiltered := (hremembers request.ip).dropAged_eq hle
  unfold decideNext
  dsimp only
  rcases r.allow_cases request.ip request.time with ⟨hfull, hallow⟩ | ⟨hroom, hallow⟩
  · rw [hspan] at hallow hfull
    rw [hallow]
    have hsame : ∀ ip, acceptedTimes ip (decisions ++ [⟨request, false⟩]) = acceptedTimes ip decisions :=
      fun ip => acceptedTimes_other fun _ => rfl
    refine ⟨hlimit, hspan, fun ip => ?_, fun ip start => (hsame ip).symm ▸ hbounded ip start,
      forall_split_concat hjustified fun _ => ?_⟩
    · dsimp only
      rw [hsame]
      by_cases hip : ip = request.ip
      · subst hip
        rw [queue_setQueue_self]
        exact hdropped
      · rw [queue_setQueue_ne _ _ _ hip]
        exact (hremembers ip).later hle
    · rw [hfiltered, ← List.countP_eq_length_filter, hlimit] at hfull
      refine hfull.trans (List.countP_mono_left fun t ht hage => ?_)
      have hpast := (hremembers request.ip).past t ht
      rw [decide_eq_true_eq] at hage ⊢
      show request.time ≤ t + window ∧ t ≤ request.time
      omega
  · rw [hspan] at hallow hroom
    rw [hallow]
    refine ⟨hlimit, hspan, fun ip => ?_, fun ip start => ?_,
      forall_split_concat hjustified fun hrefused => Bool.noConfusion hrefused⟩
    · dsimp only
      by_cases hip : ip = request.ip
      · subst hip
        rw [queue_setQueue_self, acceptedTimes_accepted]
        exact hdropped.push
      · rw [queue_setQueue_ne _ _ _ hip, acceptedTimes_other fun heq => absurd heq.symm hip]
        exact (hremembers ip).later hle
    · dsimp only
      by_cases hip : ip = request.ip
      · subst hip
        rw [acceptedTimes_accepted]
        exact countFrom_concat_le maxPerWindow (hbounded _ start) (hfiltered ▸ hlimit ▸ hroom)
      · rw [acceptedTimes_other fun heq => absurd heq.symm hip]
        exact hbounded ip start

end Limits

theorem limits_after (maxPerWindow window : ℕ) (requests : List (IpRequest Ip))
    (hsorted : requests.Pairwise fun q q' => q.time ≤ q'.time) :
    ∀ {last : ℕ}, (∀ q ∈ requests, q.time ≤ last) →
      Limits maxPerWindow window ((withLimit maxPerWindow window).afterRequests requests) last := by
  induction requests using List.reverseRecOn with
  | nil => exact fun _ => .start _ _ _
  | append_singleton requests request ih =>
    intro last hlast
    obtain ⟨hbefore, -, hordered⟩ := List.pairwise_append.mp hsorted
    have hlimits := ih hbefore fun q hq => hordered q hq request (List.mem_singleton_self _)
    unfold afterRequests
    rw [Machine.foldl_concat]
    exact (hlimits.step request le_rfl).later (hlast request (List.mem_append_right _ (List.mem_singleton_self _)))

theorem allow_congr {r r' : RateLimiter Ip} {ip : Ip} (hqueue : r.queue ip = r'.queue ip)
    (hlimit : r.maxPerWindow = r'.maxPerWindow) (hwindow : r.window = r'.window) (now : ℕ) :
    (r.allow ip now).1 = (r'.allow ip now).1 ∧ (r.allow ip now).2.queue ip = (r'.allow ip now).2.queue ip := by
  unfold allow
  dsimp only
  rw [hqueue, hlimit, hwindow]
  split_ifs
  · exact ⟨rfl, by rw [queue_setQueue_self, queue_setQueue_self]⟩
  · exact ⟨rfl, by rw [queue_setQueue_self, queue_setQueue_self]⟩

theorem allow_other {r : RateLimiter Ip} {ip other : Ip} (hne : ip ≠ other) (now : ℕ) :
    (r.allow other now).2.queue ip = r.queue ip := by
  rcases r.allow_cases other now with ⟨-, hallow⟩ | ⟨-, hallow⟩
  · rw [hallow, queue_setQueue_ne _ _ _ hne]
  · rw [hallow, queue_setQueue_ne _ _ _ hne]

theorem allow_settings (r : RateLimiter Ip) (ip : Ip) (now : ℕ) :
    (r.allow ip now).2.maxPerWindow = r.maxPerWindow ∧ (r.allow ip now).2.window = r.window := by
  rcases r.allow_cases ip now with ⟨-, hallow⟩ | ⟨-, hallow⟩
  · rw [hallow]
    exact ⟨rfl, rfl⟩
  · rw [hallow]
    exact ⟨rfl, rfl⟩

/-- What the run and the run on the calls of one address agree on. -/
structure AgreeOn (ip : Ip) (x y : RateLimiter Ip × List (Decision Ip)) : Prop where
  queue : x.1.queue ip = y.1.queue ip
  limit : x.1.maxPerWindow = y.1.maxPerWindow
  span : x.1.window = y.1.window
  decisions : x.2.filter (fun d => d.ip = ip) = y.2

theorem agreeOn_run (r : RateLimiter Ip) (ip : Ip) (requests : List (IpRequest Ip)) :
    AgreeOn ip (r.afterRequests requests) (r.afterRequests (requests.filter fun q => q.ip = ip)) := by
  induction requests using List.reverseRecOn with
  | nil => exact ⟨rfl, rfl, rfl, rfl⟩
  | append_singleton requests request ih =>
    obtain ⟨hqueue, hlimit, hwindow, hdecisions⟩ := ih
    rw [List.filter_append]
    by_cases hip : request.ip = ip
    · have hkept : [request].filter (fun q => decide (q.ip = ip)) = [request] := by simp [hip]
      rw [hkept]
      unfold afterRequests at *
      rw [Machine.foldl_concat, Machine.foldl_concat]
      generalize requests.foldl decideNext (r, []) = x at *
      generalize (requests.filter fun q => decide (q.ip = ip)).foldl decideNext (r, []) = y at *
      subst hip
      obtain ⟨hallowed, hnext⟩ := allow_congr hqueue hlimit hwindow request.time
      obtain ⟨hmaxx, hspanx⟩ := allow_settings x.1 request.ip request.time
      obtain ⟨hmaxy, hspany⟩ := allow_settings y.1 request.ip request.time
      refine ⟨hnext, hmaxx.trans (hlimit.trans hmaxy.symm), hspanx.trans (hwindow.trans hspany.symm), ?_⟩
      unfold decideNext
      dsimp only
      rw [List.filter_append, hdecisions, hallowed, List.filter_cons_of_pos (by simp), List.filter_nil]
    · have hgone : [request].filter (fun q => decide (q.ip = ip)) = [] := by simp [hip]
      rw [hgone, List.append_nil]
      unfold afterRequests at *
      rw [Machine.foldl_concat]
      generalize requests.foldl decideNext (r, []) = x at *
      generalize (requests.filter fun q => decide (q.ip = ip)).foldl decideNext (r, []) = y at *
      obtain ⟨hmaxx, hspanx⟩ := allow_settings x.1 request.ip request.time
      refine ⟨(allow_other (Ne.symm hip) _).trans hqueue, hmaxx.trans hlimit, hspanx.trans hwindow, ?_⟩
      unfold decideNext
      dsimp only
      rw [List.filter_append, hdecisions]
      simp [hip]

/-- For every limit and window and every sequence of calls at times that do not decrease: no closed interval as
long as the window has more accepted requests of an address than the limit; a request is refused only after as many
accepted ones of its address within the window before it; and the decisions for an address are those of the
run on its own requests. -/
theorem rate_limit_law (maxPerWindow window : ℕ) (requests : List (IpRequest Ip))
    (hsorted : requests.Pairwise fun q q' => q.time ≤ q'.time) :
    let made := (withLimit maxPerWindow window).decisions requests
    (∀ ip start, countFrom start window (acceptedTimes ip made) ≤ maxPerWindow) ∧
      (∀ before d after, made = before ++ d :: after → d.allowed = false →
        maxPerWindow ≤ (acceptedTimes d.ip before).countP fun t => d.time ≤ t + window ∧ t ≤ d.time) ∧
      ∀ ip, made.filter (fun d => d.ip = ip) =
        (withLimit maxPerWindow window).decisions (requests.filter fun q => q.ip = ip) := by
  intro made
  have hbound : ∀ q ∈ requests, q.time ≤ (requests.map (·.time)).sum :=
    fun q hq => List.le_sum_of_mem (List.mem_map_of_mem hq)
  have hlimits := limits_after maxPerWindow window requests hsorted hbound
  exact ⟨hlimits.bounded, fun before d after h => hlimits.justified before d after h,
    fun ip => (agreeOn_run _ ip requests).decisions⟩

/-- Two addresses, the first of them again at the exact age of the window and right after it. -/
def boundaryRequests : List (IpRequest ℕ) := [⟨1, 0⟩, ⟨1, 5⟩, ⟨2, 5⟩, ⟨1, 10⟩, ⟨1, 11⟩]

example : ((withLimit 1 10).decisions boundaryRequests).map (·.allowed) = [true, false, true, false, true] := by
  decide

theorem rate_limit_boundary :
    countFrom 0 10 (acceptedTimes 1 ((withLimit 1 10).decisions boundaryRequests)) ≤ 1 ∧
      ((withLimit 1 10).decisions boundaryRequests).filter (fun d => d.ip = 1) =
        (withLimit 1 10).decisions (boundaryRequests.filter fun q => q.ip = 1) := by
  have hlaw := rate_limit_law 1 10 boundaryRequests (by decide)
  exact ⟨hlaw.1 1 0, hlaw.2.2 1⟩

end RateLimiter

end Xerv.Api
