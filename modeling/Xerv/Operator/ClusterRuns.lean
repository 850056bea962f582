import Xerv.Lib.Machine
import Xerv.Operator.Clusters

/-!
# Runs of the cluster controller

A cluster from its creation on, whatever its owner changes and whatever the calls of its reconciles answer: how
often it is started again, and what becomes of one whose workload could not be created.
-/

namespace Xerv.Operator
open Xerv.Lib

/-! ### A sample cluster -/

def sampleBuilders : ResourceBuilders Unit ℤ :=
  ⟨(·.replicas), (·.replicas), (·.replicas), (·.replicas), (·.replicas)⟩

def sampleClusterSpec (replicas : ℤ) : XervClusterSpec Unit := ⟨replicas, ⟨"raft", none, none⟩, 8080, ()⟩

def sampleClusterEnv (ready : ℤ) (healthy : Bool) : ClusterEnv where
  configMap := .done
  headlessService := .done
  apiService := .done
  workload := .done
  replicas := some (ready, ready)
  pods := some [⟨"xerv-0", healthy⟩]
  podsAgain := some [⟨"xerv-0", healthy⟩]
  deletePod _ := true
  deleteWorkload := .done
  deleteService _ := .done
  deleteConfigMap := .done
  write := .done

def sampleLife : List (ClusterEvent Unit) :=
  [.reconcile (sampleClusterEnv 3 true), .reconcile (sampleClusterEnv 3 false), .reconcile (sampleClusterEnv 3 false),
    .reconcile (sampleClusterEnv 3 true)]

def sampleLives (n : ℕ) : List (ClusterEvent Unit) :=
  .reconcile (sampleClusterEnv 3 true) :: (List.replicate n sampleLife).flatten

section Runs
variable {T R : Type} (build : ResourceBuilders T R)

theorem next_reconcile (w : ClusterWorld T R) (env : ClusterEnv) : w.next build (.reconcile env) =
    match reconcileCluster build w env w with
    | .ok _ w' => w'
    | .error _ w' => w' := rfl

theorem next_meets {P : ClusterWorld T R → Prop} {w : ClusterWorld T R} {env : ClusterEnv}
    (h : Meets (reconcileCluster build w env) w (fun _ => P) fun _ => P) : P (w.next build (.reconcile env)) := by
  unfold Meets at h
  rw [next_reconcile]
  cases hrun : reconcileCluster build w env w with
  | ok action w' =>
    rw [hrun] at h
    exact h
  | error e w' =>
    rw [hrun] at h
    exact h

theorem next_wrote (w : ClusterWorld T R) (env : ClusterEnv) : Wrote w (w.next build (.reconcile env)) :=
  next_meets build (reconcile_writes build w env)

theorem after_append (w : ClusterWorld T R) (before events : List (ClusterEvent T)) :
    w.after build (before ++ events) = (w.after build before).after build events :=
  List.foldl_append

theorem updateClusterStatus_run (env : ClusterEnv) (new : XervClusterStatus) (w : ClusterWorld T R) :
    updateClusterStatus env new w =
      match env.write with
      | .done => .ok () { w with status := some (.merge w.status new) }
      | .lost => .error .kube { w with status := some (.merge w.status new) }
      | .failed => .error .kube w := by
  unfold updateClusterStatus apiCall
  cases env.write <;> rfl

theorem after_invariant {P : ClusterWorld T R → Prop} (events : List (ClusterEvent T)) (w : ClusterWorld T R)
    (hnext : ∀ w, ∀ event ∈ events, P w → P (w.next build event)) (h : P w) : P (w.after build events) := by
  induction events generalizing w with
  | nil => exact h
  | cons event events ih =>
    have hhere := hnext w event List.mem_cons_self h
    exact ih (w.next build event) (fun w e he => hnext w e (List.mem_cons_of_mem event he)) hhere

theorem fields_of_record {w w' : ClusterWorld T R} (h : w'.record = w.record) :
    w'.phase = w.phase ∧ w'.retryCount = w.retryCount ∧ w'.observedGeneration = w.observedGeneration ∧
      w'.spec = w.spec ∧ w'.generation = w.generation := by
  simp only [ClusterWorld.record, Prod.mk.injEq] at h
  obtain ⟨-, -, holder, hspec, hstatus⟩ := h
  simp only [ClusterWorld.phase, ClusterWorld.retryCount, ClusterWorld.observedGeneration,
    ClusterWorld.generation, hstatus, hspec, holder, and_self]

theorem wrote_fields {w w' : ClusterWorld T R} (h : Wrote w w') :
    (w'.phase = w.phase ∧ w'.retryCount = w.retryCount ∧ w'.observedGeneration = w.observedGeneration) ∨
      ∃ new, ClusterWrite w new ∧ w'.phase = new.phase ∧
        w'.retryCount = (new.retryCount.or (w.status.bind (·.retryCount))).getD 0 ∧
        w'.observedGeneration = new.observedGeneration.or w.observedGeneration := by
  rcases h with hrecord | ⟨new, hwrite, hrecord⟩
  · obtain ⟨hphase, hretry, hobserved, -⟩ := fields_of_record hrecord
    exact .inl ⟨hphase, hretry, hobserved⟩
  · obtain ⟨hphase, hretry, hobserved, -⟩ :=
      fields_of_record (w := { w with status := some (.merge w.status new) }) hrecord
    exact .inr ⟨new, hwrite, hphase, hretry, hobserved⟩

theorem next_spec (w : ClusterWorld T R) (env : ClusterEnv) :
    (w.next build (.reconcile env)).spec = w.spec ∧ (w.next build (.reconcile env)).generation = w.generation := by
  rcases next_wrote build w env with hrecord | ⟨new, -, hrecord⟩
  · obtain ⟨-, -, -, hspec, hgeneration⟩ := fields_of_record hrecord
    exact ⟨hspec, hgeneration⟩
  · obtain ⟨-, -, -, hspec, hgeneration⟩ :=
      fields_of_record (w := { w with status := some (.merge w.status new) }) hrecord
    exact ⟨hspec, hgeneration⟩

/-! ### Recoveries -/

/-- A reconcile that starts a failed cluster again. -/
def recovers (w w' : ClusterWorld T R) : Bool := w.phase = .failed && w'.phase = .initializing

def recoveries (w : ClusterWorld T R) : List (ClusterEvent T) → ℕ
  | [] => 0
  | event :: events =>
    (if recovers w (w.next build event) then 1 else 0) + recoveries (w.next build event) events

/-- What one event does to the count of recoveries. -/
structure RetryStep (w w' : ClusterWorld T R) : Prop where
  counted : w'.retryCount = w.retryCount + (if recovers w w' then 1 else 0)
  bounded : w.retryCount ≤ 5 → w'.retryCount ≤ 5
  stays : w.phase = .failed → 5 ≤ w.retryCount → w'.phase = .failed

theorem retryStep_kept {w w' : ClusterWorld T R} (hno : w.phase = .failed → w'.phase = .failed)
    (hretry : w'.retryCount = w.retryCount) : RetryStep w w' where
  counted := by
    have hrecovers : recovers w w' = false := by
      unfold recovers
      by_cases hfailed : w.phase = .failed
      · simp [hno hfailed]
      · simp [hfailed]
    simp [hrecovers, hretry]
  bounded h := hretry ▸ h
  stays h _ := hno h

theorem wrote_retryStep {w w' : ClusterWorld T R} (h : Wrote w w') : RetryStep w w' := by
  rcases wrote_fields h with ⟨hphase, hretry, -⟩ | ⟨new, hwrite, hphase, hretry, -⟩
  · exact retryStep_kept (fun h => hphase.trans h) hretry
  · -- the count is left out of the patch, or it is the one that was read
    have hnone (h : new.retryCount = none) : w'.retryCount = w.retryCount := by
      rw [hretry, h]
      rfl
    have hcopy (h : new.retryCount = w.statusCopy.retryCount) : w'.retryCount = w.retryCount := by
      rw [hretry, h, statusCopy_retryCount, Option.or_self]
      rfl
    cases hwrite with
    | created hpending _ _ h => exact retryStep_kept (fun hw => by simp [hpending] at hw) (hnone h)
    | started hinitializing _ _ h _ => exact retryStep_kept (fun hw => by simp [hinitializing] at hw) (hnone h)
    | changed hrunning _ _ _ h => exact retryStep_kept (fun hw => by simp [hrunning] at hw) (hcopy h)
    | checked hrunning _ _ _ h => exact retryStep_kept (fun hw => by simp [hrunning] at hw) (hcopy h)
    | updated hupdating _ _ h => exact retryStep_kept (fun hw => by simp [hupdating] at hw) (hcopy h)
    | copied hfrom _ h =>
      have hnot : w.phase ≠ .failed := by
        rcases hfrom with ⟨h, -⟩ | ⟨h, -⟩ <;> simp [h]
      exact retryStep_kept (fun hw => absurd hw hnot) (hcopy h)
    | gaveUp _ hfailed _ _ h => exact retryStep_kept (fun _ => hphase.trans hfailed) (hcopy h)
    | recovered hfailed hinitializing hlimit _ h =>
      have hcount : w'.retryCount = w.retryCount + 1 := by
        rw [hretry, h]
        rfl
      have hrecovers : recovers w w' = true := by simp [recovers, hfailed, hphase, hinitializing]
      exact ⟨by simp [hcount, hrecovers], fun _ => by omega, fun _ h => by omega⟩

theorem next_retryStep (w : ClusterWorld T R) (event : ClusterEvent T) : RetryStep w (w.next build event) := by
  cases event with
  | edit spec => exact retryStep_kept (fun h => h) rfl
  | reconcile env => exact wrote_retryStep (next_wrote build w env)

theorem retryCount_after (w : ClusterWorld T R) (events : List (ClusterEvent T)) :
    (w.after build events).retryCount = w.retryCount + (recoveries build w events : ℤ) := by
  induction events generalizing w with
  | nil => simp [ClusterWorld.after, recoveries]
  | cons event events ih =>
    have hstep := (next_retryStep build w event).counted
    have hrest := ih (w.next build event)
    have hafter : w.after build (event :: events) = (w.next build event).after build events := rfl
    rw [hafter, hrest, hstep, recoveries]
    push_cast
    exact add_assoc _ _ _

def ClusterWorld.objects (w : ClusterWorld T R) : Option R × Option R × Option R × Option R × Option R :=
  (w.configMap, w.headlessService, w.apiService, w.statefulSet, w.deployment)

theorem given_up_next {w : ClusterWorld T R} (event : ClusterEvent T)
    (h : w.phase = .failed ∧ 5 ≤ w.retryCount) :
    ((w.next build event).phase = .failed ∧ 5 ≤ (w.next build event).retryCount) ∧
      (w.next build event).objects = w.objects := by
  obtain ⟨hfailed, hlimit⟩ := h
  have hstep := next_retryStep build w event
  have hretry : 5 ≤ (w.next build event).retryCount := by
    have hcounted := hstep.counted
    split at hcounted <;> omega
  refine ⟨⟨hstep.stays hfailed hlimit, hretry⟩, ?_⟩
  cases event with
  | edit spec => rfl
  | reconcile env =>
    have hkept : Keeps ClusterWorld.objects AnyError (handleClusterFailed build w env) := by
      unfold handleClusterFailed
      rw [if_pos hlimit]
      exact (keeps_updateClusterStatus env _ fun _ _ => rfl).bind fun _ => Keeps.pure _
    refine next_meets build (P := fun w' => w'.objects = w.objects) ?_
    unfold reconcileCluster
    rw [hfailed]
    exact (hkept w).imp (fun _ _ h => h) fun _ _ h => h.1

/-- Over its whole life, whatever happens to it, a cluster is started again as often as its retry count says and
five times at most. Once it has failed after that, no event changes its phase or touches its objects. -/
theorem recoveries_bounded (name nameSpace : String) (spec : XervClusterSpec T) (events : List (ClusterEvent T)) :
    let start : ClusterWorld T R := .created name nameSpace spec
    let w := start.after build events
    w.retryCount = recoveries build start events ∧ recoveries build start events ≤ 5 ∧
      (w.phase = .failed → recoveries build start events = 5 → ∀ later : List (ClusterEvent T),
        (w.after build later).phase = .failed ∧ (w.after build later).objects = w.objects) := by
  intro start w
  have hstart : start.retryCount = 0 := rfl
  have hcount : w.retryCount = recoveries build start events := by
    rw [retryCount_after build start events, hstart, zero_add]
  have hbound : w.retryCount ≤ 5 :=
    after_invariant (P := fun w => w.retryCount ≤ 5) build events start
      (fun w event _ h => (next_retryStep build w event).bounded h) (by simp [hstart])
  refine ⟨hcount, by omega, fun hfailed hspent later => ?_⟩
  have hgiven : (w.after build later).phase = .failed ∧ 5 ≤ (w.after build later).retryCount ∧
      (w.after build later).objects = w.objects := by
    refine after_invariant (P := fun w' => w'.phase = .failed ∧ 5 ≤ w'.retryCount ∧ w'.objects = w.objects)
      build later w (fun w' event _ h => ?_) ⟨hfailed, by omega, rfl⟩
    obtain ⟨⟨hphase, hretry⟩, hobjects⟩ := given_up_next build event ⟨h.1, h.2.1⟩
    exact ⟨hphase, hretry, hobjects.trans h.2.2⟩
  exact ⟨hgiven.1, hgiven.2.2⟩

theorem recoveries_spent :
    let w := (ClusterWorld.created "xerv" "default" (sampleClusterSpec 3)).after sampleBuilders (sampleLives 6)
    (w.after sampleBuilders (.edit (sampleClusterSpec 1) :: sampleLife)).phase = .failed := by
  have hrun := recoveries_bounded sampleBuilders "xerv" "default" (sampleClusterSpec 3) (sampleLives 6)
  exact (hrun.2.2 (by decide) (by decide) _).1

/-! ### A creation that stops early -/

/-- All the calls of a creation up to that for the workload answer, and that one takes effect. -/
def ClusterEnv.createsWorkload (env : ClusterEnv) : Bool :=
  env.write.returned && env.configMap.returned && env.headlessService.returned && env.apiService.returned &&
    env.workload.applied

def ClusterWorld.workloads (w : ClusterWorld T R) : Option R × Option R := (w.statefulSet, w.deployment)

/-- The objects and the record that a creation without a workload leaves. -/
def ClusterWorld.waiting (w : ClusterWorld T R) := (w.workloads, w.record)

theorem apiCall_bind_keeps {V : Type} {view : ClusterWorld T R → V} {α : Type} {outcome : CallOutcome}
    {effect : ClusterWorld T R → ClusterWorld T R} {f : Unit → ClusterM T R α} {v : V} (w : ClusterWorld T R)
    (heffect : ∀ w, view (effect w) = view w) (hw : view w = v)
    (hrest : outcome.returned = true → ∀ w', view w' = v →
      Meets (f ()) w' (fun _ w'' => view w'' = v) fun _ w'' => view w'' = v) :
    Meets (apiCall outcome effect >>= f) w (fun _ w'' => view w'' = v) fun _ w'' => view w'' = v := by
  have heffect : view (effect w) = v := (heffect w).trans hw
  cases outcome with
  | done => exact hrest rfl (effect w) heffect
  | lost => exact heffect
  | failed => exact hw

theorem creation_keeps_workloads {w cluster : ClusterWorld T R} {env : ClusterEnv}
    (hreturned : env.write.returned = true) (hbroken : env.createsWorkload = false) :
    Meets (do
        ensureConfigMap build cluster env
        ensureHeadlessService build cluster env
        ensureApiService build cluster env
        ensureWorkload build cluster env
        return ReconcileAction.requeueShort) w
      (fun _ w' => w'.waiting = w.waiting) fun _ w' => w'.waiting = w.waiting := by
  refine apiCall_bind_keeps w (fun _ => rfl) rfl fun hconfigMap w₁ h₁ => ?_
  refine apiCall_bind_keeps w₁ (fun _ => rfl) h₁ fun hheadless w₂ h₂ => ?_
  refine apiCall_bind_keeps w₂ (fun _ => rfl) h₂ fun hapi w₃ h₃ => ?_
  have happlied : env.workload.applied = false := by
    simpa [ClusterEnv.createsWorkload, hreturned, hconfigMap, hheadless, hapi] using hbroken
  have hworkload : env.workload = .failed := by
    cases houtcome : env.workload <;> simp [houtcome, CallOutcome.applied] at happlied ⊢
  have hrun : ensureWorkload build cluster env w₃ = .error .kube w₃ := by
    cases hraft : cluster.isRaft <;>
      simp [ensureWorkload, ensureStatefulSet, ensureDeployment, apiCall, hraft, hworkload, CallOutcome.returned,
        CallOutcome.applied]
  exact (meets_bind_error hrun).mpr h₃

/-- The controller has not done anything for the cluster. -/
def Untouched (w : ClusterWorld T R) : Prop := w.status = none ∧ w.workloads = (none, none)

/-- The cluster waits for a workload that nobody makes. -/
def Stuck (w : ClusterWorld T R) : Prop := w.phase = .initializing ∧ w.workloads = (none, none)

/-- An answered reconcile that meets a spec without replicas takes the stuck cluster for a running one. -/
def takenForRunning (w : ClusterWorld T R) : ClusterEvent T → Bool
  | .edit _ => false
  | .reconcile env => w.spec.replicas ≤ 0 && env.replicas.isSome && env.write.applied

theorem pending_broken {w : ClusterWorld T R} {env : ClusterEnv} (hnone : Untouched w)
    (hvalid : w.spec.validate = .ok ()) (hwrite : env.write.applied = true) (hbroken : env.createsWorkload = false) :
    Stuck (w.next build (.reconcile env)) := by
  obtain ⟨hstatus, hworkloads⟩ := hnone
  have hphase : w.phase = .pending := by simp [ClusterWorld.phase, hstatus]
  refine next_meets build ?_
  unfold reconcileCluster
  rw [hphase]
  unfold handleClusterPending
  rw [hvalid]
  cases houtcome : env.write with
  | failed => simp [houtcome, CallOutcome.applied] at hwrite
  | lost =>
    refine (meets_bind_error (by rw [updateClusterStatus_run, houtcome])).mpr ?_
    exact ⟨rfl, hworkloads⟩
  | done =>
    refine (meets_bind_ok (by rw [updateClusterStatus_run, houtcome])).mpr ?_
    have hreturned : env.write.returned = true := by simp [houtcome, CallOutcome.returned]
    have hstuck {w₁ w' : ClusterWorld T R} (h : w'.waiting = w₁.waiting) (h₁ : Stuck w₁) : Stuck w' := by
      obtain ⟨hworkloads, hrecord⟩ := Prod.mk.inj h
      exact ⟨(fields_of_record hrecord).1.trans h₁.1, hworkloads.trans h₁.2⟩
    refine (creation_keeps_workloads build hreturned hbroken).imp (fun _ w' h => ?_) fun _ w' h => ?_
    · exact hstuck h ⟨rfl, hworkloads⟩
    · exact hstuck h ⟨rfl, hworkloads⟩

theorem stuck_reconcile {w : ClusterWorld T R} (h : Stuck w) (env : ClusterEnv) :
    (takenForRunning w (.reconcile env) = false ∧ w.next build (.reconcile env) = w) ∨
      (takenForRunning w (.reconcile env) = true ∧ (w.next build (.reconcile env)).phase = .running) := by
  obtain ⟨hphase, hworkloads⟩ := h
  have hnone : w.workload = none := by
    obtain ⟨hstatefulSet, hdeployment⟩ := Prod.mk.inj hworkloads
    simp [ClusterWorld.workload, hstatefulSet, hdeployment]
  refine next_meets build (P := fun w' => (takenForRunning w (.reconcile env) = false ∧ w' = w) ∨
    (takenForRunning w (.reconcile env) = true ∧ w'.phase = .running)) ?_
  unfold reconcileCluster
  rw [hphase]
  cases hread : env.replicas with
  | none =>
    have hrun : getWorkloadStatus w env w = .error .kube w := by
      rw [getWorkloadStatus, hread]
      rfl
    exact (meets_bind_error hrun).mpr (.inl ⟨by simp [takenForRunning, hread], rfl⟩)
  | some answer =>
    have hstatus : Meets (getWorkloadStatus w env) w (fun answer w' => w' = w ∧ answer = (0, 0))
        fun _ _ => False := by
      rw [getWorkloadStatus, hread]
      refine ⟨rfl, ?_⟩
      unfold ClusterWorld.workload at hnone
      rw [hnone]
      rfl
    refine (hstatus.imp (fun _ _ h => h) fun _ _ h => h.elim).bind fun answer w' hanswer => ?_
    obtain ⟨rfl, rfl⟩ := hanswer
    dsimp only
    by_cases hfew : w'.spec.replicas ≤ 0
    · rw [if_pos hfew]
      cases houtcome : env.write with
      | failed =>
        refine (meets_bind_error (by rw [updateClusterStatus_run, houtcome])).mpr (.inl ⟨?_, rfl⟩)
        simp [takenForRunning, houtcome, CallOutcome.applied]
      | lost =>
        refine (meets_bind_error (by rw [updateClusterStatus_run, houtcome])).mpr (.inr ⟨?_, rfl⟩)
        simp [takenForRunning, hread, hfew, houtcome, CallOutcome.applied]
      | done =>
        refine (meets_bind_ok (by rw [updateClusterStatus_run, houtcome])).mpr (.inr ⟨?_, rfl⟩)
        simp [takenForRunning, hread, hfew, houtcome, CallOutcome.applied]
    · rw [if_neg hfew]
      exact .inl ⟨by simp [takenForRunning, hfew], rfl⟩

theorem stuck_next_iff {w : ClusterWorld T R} (event : ClusterEvent T) (h : Stuck w) :
    Stuck (w.next build event) ↔ takenForRunning w event = false := by
  cases event with
  | edit spec => exact iff_of_true h rfl
  | reconcile env =>
    rcases stuck_reconcile build h env with ⟨hkept, hsame⟩ | ⟨htaken, hrunning⟩
    · rw [hsame]
      exact iff_of_true h hkept
    · refine iff_of_false (fun hstuck => ?_) (by simp [htaken])
      have hphase := hstuck.1
      simp [hrunning] at hphase

theorem pending_next {w : ClusterWorld T R} (env : ClusterEnv) (hphase : w.phase = .pending) :
    w.next build (.reconcile env) = w ∨ (w.next build (.reconcile env)).phase = .initializing := by
  refine next_meets build (P := fun w' => w' = w ∨ w'.phase = .initializing) ?_
  have hhandler : reconcileCluster build w env = handleClusterPending build w env := by
    unfold reconcileCluster
    rw [hphase]
  rw [hhandler]
  unfold handleClusterPending
  split
  · exact Or.inl rfl
  · cases houtcome : env.write with
    | failed => exact (meets_bind_error (by rw [updateClusterStatus_run, houtcome])).mpr (.inl rfl)
    | lost => exact (meets_bind_error (by rw [updateClusterStatus_run, houtcome])).mpr (.inr rfl)
    | done =>
      refine (meets_bind_ok (by rw [updateClusterStatus_run, houtcome])).mpr ?_
      have hkept := (keeps_ensureConfigMap build w env).bind fun _ =>
        (keeps_ensureHeadlessService build w env).bind fun _ => (keeps_ensureApiService build w env).bind fun _ =>
          (keeps_ensureWorkload build w env).bind fun _ => Keeps.pure ReconcileAction.requeueShort
      refine (hkept _).imp (fun _ w' hrecord => .inr ?_) fun _ w' hrecord => .inr ?_
      · exact (fields_of_record hrecord).1
      · exact (fields_of_record hrecord.1).1

theorem untouched_next {w : ClusterWorld T R} (event : ClusterEvent T) (h : w.phase = .pending → Untouched w)
    (hpending : (w.next build event).phase = .pending) : Untouched (w.next build event) := by
  cases event with
  | edit spec => exact h hpending
  | reconcile env =>
    have hstay : w.phase = .pending := by
      rcases wrote_fields (next_wrote build w env) with ⟨hphase, -⟩ | ⟨new, hwrite, hphase, -⟩
      · exact hphase ▸ hpending
      · cases hwrite <;> simp_all
    rcases pending_next build env hstay with hsame | hinitializing
    · rw [hsame]
      exact h hstay
    · simp [hpending] at hinitializing

/-- A creation whose first status is written and whose workload does not come about, because one of its calls
before that failed or because an answer was lost, is not taken up again: whatever the owner and the calls do
later, the cluster stays in initialization and nobody makes a workload for it, up to the first answered
reconcile that meets a spec without replicas. -/
theorem failed_creation_stuck_iff (name nameSpace : String) (spec : XervClusterSpec T) (events : List (ClusterEvent T))
    (env : ClusterEnv) (later : List (ClusterEvent T))
    (hpending : ((ClusterWorld.created name nameSpace spec : ClusterWorld T R).after build events).phase = .pending)
    (hvalid : ((ClusterWorld.created name nameSpace spec : ClusterWorld T R).after build events).spec.validate = .ok ())
    (hwrite : env.write.applied = true) (hbroken : env.createsWorkload = false) :
    let broken := (ClusterWorld.created name nameSpace spec).after build (events ++ [.reconcile env])
    (∀ before, before <+: later →
        let w := broken.after build before
        w.phase = .initializing ∧ w.statefulSet = none ∧ w.deployment = none) ↔
      ∀ before event, before ++ [event] <+: later → takenForRunning (broken.after build before) event = false := by
  intro broken
  have huntouched := after_invariant (P := fun w : ClusterWorld T R => w.phase = .pending → Untouched w) build events
    (.created name nameSpace spec) (fun w event _ h hphase => untouched_next build event h hphase)
    (fun _ => ⟨rfl, rfl⟩) hpending
  have hstuck : Stuck broken := by
    unfold broken
    rw [after_append]
    exact pending_broken build huntouched hvalid hwrite hbroken
  have hfields (w : ClusterWorld T R) :
      (w.phase = .initializing ∧ w.statefulSet = none ∧ w.deployment = none) ↔ Stuck w := by
    simp only [Stuck, ClusterWorld.workloads, Prod.mk.injEq]
  simp only [hfields]
  exact Machine.foldl_throughout_iff (ClusterWorld.next build) takenForRunning Stuck
    (fun _ event h => stuck_next_iff build event h) later hstuck

/-- The config map cannot be made; the owner then asks for five replicas. -/
theorem failed_creation_stuck_sample :
    let broken := (ClusterWorld.created "xerv" "default" (sampleClusterSpec 3)).after sampleBuilders
      ([] ++ [.reconcile { sampleClusterEnv 0 true with configMap := .failed }])
    let w := broken.after sampleBuilders [.edit (sampleClusterSpec 5), .reconcile (sampleClusterEnv 5 true)]
    w.phase = .initializing ∧ w.statefulSet = none ∧ w.deployment = none := by
  intro broken w
  have hiff := failed_creation_stuck_iff sampleBuilders "xerv" "default" (sampleClusterSpec 3) []
    { sampleClusterEnv 0 true with configMap := .failed }
    [.edit (sampleClusterSpec 5), .reconcile (sampleClusterEnv 5 true)] rfl (by decide) rfl rfl
  refine hiff.mpr (fun before event hpre => ?_) _ List.prefix_rfl
  rcases before with - | ⟨first, before⟩
  · obtain ⟨rfl, -⟩ := List.cons_prefix_cons.mp hpre
    rfl
  · obtain ⟨rfl, hrest⟩ := List.cons_prefix_cons.mp hpre
    rcases before with - | ⟨second, before⟩
    · obtain ⟨rfl, -⟩ := List.cons_prefix_cons.mp hrest
      decide
    · obtain ⟨-, hnil⟩ := List.cons_prefix_cons.mp hrest
      simp at hnil

end Runs

end Xerv.Operator
