import Xerv.Operator.ClusterRuns

/-!
# Edits of a cluster

Which edits of its spec a cluster takes up: those that it meets before its creation or while it runs are applied
by the reconcile that sees them, those that it meets in a transition are not.
-/

namespace Xerv.Operator
open Xerv.Lib

section Edits
variable {T R : Type} (build : ResourceBuilders T R)

/-! ### What has been applied -/

theorem reconcile_running {w : ClusterWorld T R} (env : ClusterEnv) (hphase : w.phase = .running) :
    reconcileCluster build w env = handleClusterRunning build w env := by
  unfold reconcileCluster
  rw [hphase]

theorem reconcile_failed {w : ClusterWorld T R} (env : ClusterEnv) (hphase : w.phase = .failed) :
    reconcileCluster build w env = handleClusterFailed build w env := by
  unfold reconcileCluster
  rw [hphase]

/-- The reconciles that make and delete nothing. -/
def Quiet (w : ClusterWorld T R) : Prop :=
  w.phase = .initializing ∨ w.phase = .updating ∨ w.phase = .degraded ∨
    w.phase = .running ∧ w.observedGeneration = some w.generation

theorem quiet_keeps {w : ClusterWorld T R} (env : ClusterEnv) (h : Quiet w) :
    Keeps ClusterWorld.objects AnyError (reconcileCluster build w env) := by
  have hupdate (new : XervClusterStatus) : Keeps ClusterWorld.objects AnyError
      (updateClusterStatus env new : ClusterM T R Unit) := keeps_updateClusterStatus env new fun _ _ => rfl
  have hdone (new : XervClusterStatus) (action : ReconcileAction) : Keeps ClusterWorld.objects AnyError
      (do updateClusterStatus env new; return action : ClusterM T R ReconcileAction) :=
    (hupdate new).bind fun _ => Keeps.pure action
  rcases h with hphase | hphase | hphase | ⟨hphase, hobserved⟩
  · unfold reconcileCluster
    rw [hphase]
    refine (keeps_getWorkloadStatus w env).bind fun answer => ?_
    dsimp only
    split
    · exact hdone _ _
    · exact Keeps.pure _
  · unfold reconcileCluster
    rw [hphase]
    refine (keeps_getWorkloadStatus w env).bind fun answer => ?_
    dsimp only
    split
    · exact hdone _ _
    · exact hdone _ _
  · unfold reconcileCluster
    rw [hphase]
    refine (keeps_checkPodHealth env).bind fun answer => ?_
    dsimp only
    split
    · exact hdone _ _
    · refine (keeps_apiRead env.podsAgain).bind fun pods => ?_
      have hdelete : Keeps ClusterWorld.objects AnyError (modify fun w : ClusterWorld T R =>
        { w with deletedPods := w.deletedPods ++ deleteUnhealthy env.deletePod pods }) := Keeps.modify _ fun _ => rfl
      refine hdelete.bind fun _ => ?_
      split
      · exact hdone _ _
      · exact hdone _ _
  · rw [reconcile_running build env hphase]
    unfold handleClusterRunning
    rw [if_neg (not_not.mpr hobserved)]
    refine (keeps_checkPodHealth env).bind fun answer => ?_
    dsimp only
    split
    · exact hdone _ _
    · exact (keeps_getWorkloadStatus w env).bind fun _ => hdone _ _

theorem quiet_objects {w : ClusterWorld T R} (env : ClusterEnv) (h : Quiet w) :
    (w.next build (.reconcile env)).objects = w.objects := by
  refine next_meets build (P := fun w' => w'.objects = w.objects) ?_
  exact (quiet_keeps build env h w).imp (fun _ _ h => h) fun _ _ h => h.1

theorem failed_configMap {w : ClusterWorld T R} (env : ClusterEnv) (hphase : w.phase = .failed) :
    (w.next build (.reconcile env)).configMap = w.configMap := by
  have hupdate (new : XervClusterStatus) : Keeps ClusterWorld.configMap AnyError
      (updateClusterStatus env new : ClusterM T R Unit) := keeps_updateClusterStatus env new fun _ _ => rfl
  have hkeeps : Keeps ClusterWorld.configMap AnyError (handleClusterFailed build w env) := by
    unfold handleClusterFailed
    split
    · exact (hupdate _).bind fun _ => Keeps.pure _
    · have hremove (w' : ClusterWorld T R) : (removeWorkload w w').configMap = w'.configMap := by
        unfold removeWorkload
        split <;> rfl
      refine (keeps_apiCallIgnored env.deleteWorkload (removeWorkload w) hremove).bind fun _ => ?_
      have hensure : Keeps ClusterWorld.configMap AnyError (ensureWorkload build w env) := by
        unfold ensureWorkload
        split
        · exact keeps_apiCall env.workload _ fun _ => rfl
        · exact keeps_apiCall env.workload _ fun _ => rfl
      exact hensure.bind fun _ => (hupdate _).bind fun _ => Keeps.pure _
  refine next_meets build (P := fun w' => w'.configMap = w.configMap) ?_
  rw [reconcile_failed build env hphase]
  exact (hkeeps w).imp (fun _ _ h => h) fun _ _ h => h.1

/-- The status of the cluster says, or is bound to say once its pods are ready, that the current spec is applied. -/
def Claimed (w : ClusterWorld T R) : Prop :=
  w.phase = .initializing ∨ w.phase = .updating ∨
    (w.phase = .running ∨ w.phase = .degraded ∨ w.phase = .failed) ∧ w.observedGeneration = some w.generation

theorem claimed_next {w : ClusterWorld T R} (env : ClusterEnv) (h : Claimed w) :
    Claimed (w.next build (.reconcile env)) := by
  have hgeneration := (next_spec build w env).2
  unfold Claimed at h ⊢
  rw [hgeneration]
  rcases wrote_fields (next_wrote build w env) with ⟨hphase, -, hobserved⟩ | ⟨new, hwrite, hphase, -, hobserved⟩
  · rw [hphase, hobserved]
    exact h
  · rw [hphase, hobserved]
    have hcopy (hnew : new.observedGeneration = w.statusCopy.observedGeneration) :
        new.observedGeneration.or w.observedGeneration = w.observedGeneration := by
      rw [hnew, statusCopy_observedGeneration, Option.or_self]
    cases hwrite with
    | created hpending _ _ _ => simp [hpending] at h
    | started _ hrunning hnew _ _ => simp [hrunning, hnew]
    | changed hrunning _ hdrift _ _ => simp [hrunning, hdrift] at h
    | checked _ hnew _ hobs _ => rcases hnew with hnew | hnew <;> simp [hnew, hobs]
    | updated _ hnew hobs _ => simp [hnew, hobs]
    | copied hfrom hobs _ =>
      rw [hcopy hobs]
      rcases hfrom with ⟨-, hnew⟩ | ⟨hdegraded, hnew⟩
      · simp [hnew]
      · have hgen : w.observedGeneration = some w.generation := by simpa [hdegraded] using h
        rcases hnew with hnew | hnew | hnew <;> simp [hnew, hgen]
    | gaveUp hfailed hnew _ hobs _ =>
      have hgen : w.observedGeneration = some w.generation := by simpa [hfailed] using h
      rw [hcopy hobs]
      simp [hnew, hgen]
    | recovered _ hnew _ _ _ => simp [hnew]

theorem claimed_configMap {w : ClusterWorld T R} (env : ClusterEnv) (h : Claimed w) :
    (w.next build (.reconcile env)).configMap = w.configMap := by
  have hquiet (hq : Quiet w) : (w.next build (.reconcile env)).configMap = w.configMap :=
    congrArg (fun objects : Option R × Option R × Option R × Option R × Option R => objects.1)
      (quiet_objects build env hq)
  rcases h with hphase | hphase | ⟨hphase | hphase | hphase, hobserved⟩
  · exact hquiet (.inl hphase)
  · exact hquiet (.inr (.inl hphase))
  · exact hquiet (.inr (.inr (.inr ⟨hphase, hobserved⟩)))
  · exact hquiet (.inr (.inr (.inl hphase)))
  · exact failed_configMap build env hphase

/-- A spec that is edited while the cluster starts or is updated is lost: until the owner edits it once more the
config map stays the one of before, whatever the reconciles meet, and a cluster that runs says in its status that
the edited generation has been observed. -/
theorem lost_edit (w : ClusterWorld T R) (hphase : w.phase = .initializing ∨ w.phase = .updating)
    (spec : XervClusterSpec T) (envs : List ClusterEnv) :
    let w' := (w.next build (.edit spec)).after build (envs.map .reconcile)
    w'.spec = spec ∧ w'.configMap = w.configMap ∧
      (w'.phase = .running → w'.observedGeneration = some w'.generation) := by
  intro w'
  have hedited : Claimed (w.next build (.edit spec)) := by
    rcases hphase with h | h
    · exact .inl h
    · exact .inr (.inl h)
  have hinvariant : w'.spec = spec ∧ w'.configMap = w.configMap ∧ Claimed w' := by
    refine after_invariant (P := fun w' => w'.spec = spec ∧ w'.configMap = w.configMap ∧ Claimed w') build
      (envs.map .reconcile) _ (fun w₁ event hevent h => ?_) ⟨rfl, rfl, hedited⟩
    obtain ⟨env, -, rfl⟩ := List.mem_map.mp hevent
    obtain ⟨hspec, hconfigMap, hclaimed⟩ := h
    exact ⟨(next_spec build w₁ env).1.trans hspec, (claimed_configMap build env hclaimed).trans hconfigMap,
      claimed_next build env hclaimed⟩
  obtain ⟨hspec, hconfigMap, hclaimed⟩ := hinvariant
  refine ⟨hspec, hconfigMap, fun hrunning => ?_⟩
  simpa [Claimed, hrunning] using hclaimed

theorem lost_edit_sample :
    let start := (ClusterWorld.created "xerv" "default" (sampleClusterSpec 3)).after sampleBuilders
      [.reconcile (sampleClusterEnv 0 true)]
    let w := (start.next sampleBuilders (.edit (sampleClusterSpec 5))).after sampleBuilders
      ([sampleClusterEnv 5 true, sampleClusterEnv 5 true].map .reconcile)
    w.phase = .running ∧ w.spec = sampleClusterSpec 5 ∧ w.configMap = some 3 ∧ w.observedGeneration = some 2 := by
  intro start w
  obtain ⟨hspec, hconfigMap, hobserved⟩ := lost_edit sampleBuilders start (.inl rfl) (sampleClusterSpec 5)
    [sampleClusterEnv 5 true, sampleClusterEnv 5 true]
  have hrunning : w.phase = .running := by decide
  exact ⟨hrunning, hspec, hconfigMap, hobserved hrunning⟩

/-! ### Edits of a settled cluster -/

def ResourceBuilders.workload (spec : XervClusterSpec T) : R :=
  if spec.dispatch.backend = "raft" then build.statefulSet spec else build.deployment spec

/-- The reconcile writes the status of a creation or of a change, and only then makes the objects. -/
def ClusterWorld.Announces (w : ClusterWorld T R) : Prop :=
  w.phase = .pending ∨ w.phase = .running ∧ w.observedGeneration ≠ some w.generation

/-- The calls that make objects succeed, and a status that goes before them is not written without an answer. -/
structure ClusterEnv.Reliable (env : ClusterEnv) (w : ClusterWorld T R) : Prop where
  configMap : env.configMap = .done
  headlessService : env.headlessService = .done
  apiService : env.apiService = .done
  workload : env.workload = .done
  write : w.Announces → env.write ≠ .lost

/-- The calls of a run are answered, and its edits meet a cluster that is not created yet or runs. -/
def Settled : ClusterWorld T R → List (ClusterEvent T) → Prop
  | _, [] => True
  | w, .edit spec :: events =>
    (w.phase = .pending ∨ w.phase = .running) ∧ Settled (w.next build (.edit spec)) events
  | w, .reconcile env :: events => env.Reliable w ∧ Settled (w.next build (.reconcile env)) events

end Edits

end Xerv.Operator
