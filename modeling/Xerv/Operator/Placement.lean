import Mathlib.Data.List.Nodup
import Xerv.Operator.Rollout

/-!
# What placement selects (`controller/federated_pipeline.rs`)

The targets that a spec asks for, rule by rule, against the targets that are resolved.
-/

namespace Xerv.Operator

/-- The rule of a placement that is in force: the first of them that is given. -/
inductive PlacementRule where
  | everywhere
  | listed (clusters : List String)
  | labelled (selector : Labels)
  | unspecified
  deriving DecidableEq

def PlacementConfig.rule (placement : PlacementConfig) : PlacementRule :=
  if placement.all then .everywhere
  else if placement.clusters ≠ [] then .listed placement.clusters
  else if placement.clusterSelector ≠ [] then .labelled placement.clusterSelector
  else .unspecified

def PlacementRule.Selects : PlacementRule → FederationMember → Prop
  | .everywhere, _ => True
  | .listed clusters, c => c.name ∈ clusters
  | .labelled selector, c => ∀ label ∈ selector, c.labels.lookup label.1 = some label.2
  | .unspecified, _ => True

/-- A cluster on which the pipeline may run. -/
def FederatedPipelineSpec.Eligible (spec : FederatedPipelineSpec) (c : FederationMember) : Prop :=
  c.enabled = true ∧ ¬ ∃ o ∈ spec.overrides, o.cluster = c.name ∧ o.disabled = true

/-- The targets are those that the spec asks for, each of them once. -/
structure ExactTargets (spec : FederatedPipelineSpec) (federation : XervFederation)
    (targets : List String) : Prop where
  nodup : targets.Nodup
  mem_iff : ∀ name, name ∈ targets ↔
    ∃ c ∈ federation.clusters, c.name = name ∧ spec.Eligible c ∧ spec.placement.rule.Selects c

variable {spec : FederatedPipelineSpec} {federation : XervFederation}

theorem eligible_iff (c : FederationMember) :
    spec.Eligible c ↔ c.enabled = true ∧ spec.disabledByOverride c.name = false := by
  simp [FederatedPipelineSpec.Eligible, FederatedPipelineSpec.disabledByOverride]

/-! ### Names of a part of the federation -/

theorem names_nodup (p : FederationMember → Bool)
    (hdistinct : (federation.clusters.map FederationMember.name).Nodup) :
    ((federation.clusters.filter p).map FederationMember.name).Nodup :=
  hdistinct.sublist ((List.filter_sublist (p := p)).map FederationMember.name)

/-- Of the clusters with names of their own, the names of a part tell which clusters it has. -/
theorem names_exact_iff (p : FederationMember → Bool)
    (hdistinct : (federation.clusters.map FederationMember.name).Nodup) :
    ExactTargets spec federation ((federation.clusters.filter p).map FederationMember.name) ↔
      ∀ c ∈ federation.clusters, p c = true ↔ spec.Eligible c ∧ spec.placement.rule.Selects c := by
  constructor
  · intro h c hc
    have hname := h.mem_iff c.name
    constructor
    · intro hp
      obtain ⟨c', hc', heq, htarget⟩ :=
        hname.mp (List.mem_map_of_mem (List.mem_filter.mpr ⟨hc, hp⟩))
      rwa [List.inj_on_of_nodup_map hdistinct hc' hc heq] at htarget
    · intro htarget
      obtain ⟨c', hmem, heq⟩ := List.mem_map.mp (hname.mpr ⟨c, hc, rfl, htarget⟩)
      obtain ⟨hc', hp⟩ := List.mem_filter.mp hmem
      rwa [List.inj_on_of_nodup_map hdistinct hc' hc heq] at hp
  · intro h
    refine ⟨names_nodup p hdistinct, fun name => ?_⟩
    rw [List.mem_map]
    constructor
    · rintro ⟨c, hmem, heq⟩
      obtain ⟨hc, hp⟩ := List.mem_filter.mp hmem
      exact ⟨c, hc, heq, (h c hc).mp hp⟩
    · rintro ⟨c, hc, heq, htarget⟩
      exact ⟨c, List.mem_filter.mpr ⟨hc, (h c hc).mpr htarget⟩, heq⟩

/-! ### Rule by rule -/

/-- What is resolved, by the rule in force. -/
theorem resolveTargetClusters_eq (spec : FederatedPipelineSpec) (federation : XervFederation) :
    resolveTargetClusters spec federation =
      match spec.placement.rule with
      | .everywhere =>
        (federation.clusters.filter fun c => !spec.disabledByOverride c.name && c.enabled).map
          FederationMember.name
      | .listed clusters =>
        clusters.filter fun name => !spec.disabledByOverride name &&
          federation.clusters.any fun c => c.name == name && c.enabled
      | .labelled selector =>
        (federation.clusters.filter fun c => !spec.disabledByOverride c.name &&
          selector.all (fun label => c.labels.lookup label.1 == some label.2) && c.enabled).map
            FederationMember.name
      | .unspecified => (federation.clusters.filter fun c => c.enabled).map FederationMember.name := by
  unfold resolveTargetClusters PlacementConfig.rule
  split
  · rw [List.filter_filter]
  · split
    · rw [List.filter_filter]
    · split
      · rw [List.filter_filter, List.filter_filter]
      · rfl

theorem resolve_everywhere_exact (hdistinct : (federation.clusters.map FederationMember.name).Nodup)
    (hrule : spec.placement.rule = .everywhere) :
    ExactTargets spec federation (resolveTargetClusters spec federation) := by
  rw [resolveTargetClusters_eq, hrule, names_exact_iff _ hdistinct]
  intro c _
  rw [eligible_iff, hrule]
  simp [PlacementRule.Selects, and_comm]

theorem resolve_labelled_exact (hdistinct : (federation.clusters.map FederationMember.name).Nodup)
    {selector : Labels} (hrule : spec.placement.rule = .labelled selector) :
    ExactTargets spec federation (resolveTargetClusters spec federation) := by
  rw [resolveTargetClusters_eq, hrule, names_exact_iff _ hdistinct]
  intro c _
  rw [eligible_iff, hrule]
  simp only [PlacementRule.Selects, Bool.and_eq_true, Bool.not_eq_true', List.all_eq_true, beq_iff_eq]
  tauto

theorem resolve_unspecified_exact_iff
    (hdistinct : (federation.clusters.map FederationMember.name).Nodup)
    (hrule : spec.placement.rule = .unspecified) :
    ExactTargets spec federation (resolveTargetClusters spec federation) ↔
      ∀ c ∈ federation.clusters, c.enabled = true → spec.disabledByOverride c.name = false := by
  rw [resolveTargetClusters_eq, hrule, names_exact_iff _ hdistinct]
  refine forall₂_congr fun c _ => ?_
  rw [eligible_iff, hrule]
  simp [PlacementRule.Selects]

theorem nodup_filter_iff {α : Type*} [DecidableEq α] (p : α → Bool) (xs : List α) :
    (xs.filter p).Nodup ↔ ∀ x, p x = true → xs.count x ≤ 1 := by
  rw [List.nodup_iff_count_le_one]
  constructor
  · intro h x hx
    have hcount : (xs.filter p).count x = xs.count x := List.count_filter hx
    exact hcount ▸ h x
  · intro h x
    by_cases hx : p x = true
    · exact (List.count_filter hx).trans_le (h x hx)
    · rw [List.count_eq_zero.mpr fun hmem => hx (List.mem_filter.mp hmem).2]
      exact Nat.zero_le 1

theorem listed_eligible_iff (name : String) :
    (!spec.disabledByOverride name && federation.clusters.any fun c => c.name == name && c.enabled) = true ↔
      ∃ c ∈ federation.clusters, c.name = name ∧ spec.Eligible c := by
  simp only [Bool.and_eq_true, Bool.not_eq_true', List.any_eq_true, beq_iff_eq, eligible_iff]
  constructor
  · rintro ⟨hfree, c, hc, rfl, henabled⟩
    exact ⟨c, hc, rfl, henabled, hfree⟩
  · rintro ⟨c, hc, rfl, henabled, hfree⟩
    exact ⟨hfree, c, hc, rfl, henabled⟩

theorem resolve_listed_exact_iff {clusters : List String}
    (hrule : spec.placement.rule = .listed clusters) :
    ExactTargets spec federation (resolveTargetClusters spec federation) ↔
      ∀ c ∈ federation.clusters, spec.Eligible c → clusters.count c.name ≤ 1 := by
  rw [resolveTargetClusters_eq, hrule]
  constructor
  · intro h c hc hfree
    exact (nodup_filter_iff _ clusters).mp h.nodup c.name
      ((listed_eligible_iff c.name).mpr ⟨c, hc, rfl, hfree⟩)
  · intro h
    refine ⟨(nodup_filter_iff _ clusters).mpr fun name hname => ?_, fun name => ?_⟩
    · obtain ⟨c, hc, rfl, hfree⟩ := (listed_eligible_iff name).mp hname
      exact h c hc hfree
    · rw [List.mem_filter, listed_eligible_iff, hrule]
      constructor
      · rintro ⟨hmem, c, hc, rfl, hfree⟩
        exact ⟨c, hc, rfl, hfree, hmem⟩
      · rintro ⟨c, hc, rfl, hfree, hmem⟩
        exact ⟨hmem, c, hc, rfl, hfree⟩

/-- The placements that are resolved as they ask: a list repeats no cluster that can take the pipeline,
and where nothing is asked no override disables an enabled cluster. -/
def Placeable (spec : FederatedPipelineSpec) (federation : XervFederation) : Prop :=
  match spec.placement.rule with
  | .everywhere | .labelled _ => True
  | .listed clusters => ∀ c ∈ federation.clusters, spec.Eligible c → clusters.count c.name ≤ 1
  | .unspecified =>
    ∀ c ∈ federation.clusters, c.enabled = true → spec.disabledByOverride c.name = false

theorem resolveTargetClusters_exact_iff
    (hdistinct : (federation.clusters.map FederationMember.name).Nodup) :
    ExactTargets spec federation (resolveTargetClusters spec federation) ↔ Placeable spec federation := by
  unfold Placeable
  cases hrule : spec.placement.rule with
  | everywhere => exact iff_of_true (resolve_everywhere_exact hdistinct hrule) trivial
  | listed clusters => exact resolve_listed_exact_iff hrule
  | labelled selector => exact iff_of_true (resolve_labelled_exact hdistinct hrule) trivial
  | unspecified => exact resolve_unspecified_exact_iff hdistinct hrule

def pair : XervFederation := ⟨"pair", [⟨"east", none, true, []⟩, ⟨"west", none, true, []⟩]⟩

def withoutWest : FederatedPipelineSpec :=
  ⟨"pair", ⟨false, [], []⟩, "p", [⟨"west", true⟩], ⟨.allAtOnce, 1⟩⟩

def eastTwice : FederatedPipelineSpec :=
  ⟨"pair", ⟨false, ["east", "east"], []⟩, "p", [], ⟨.allAtOnce, 1⟩⟩

def eastListed : FederatedPipelineSpec :=
  { withoutWest with placement := ⟨false, ["east", "west", "west"], []⟩ }

theorem eastListed_exact : ExactTargets eastListed pair (resolveTargetClusters eastListed pair) := by
  refine (resolveTargetClusters_exact_iff (by decide)).mpr ?_
  simp [Placeable, PlacementConfig.rule, pair, eastListed, withoutWest, FederatedPipelineSpec.Eligible]

theorem accepted_not_exact :
    (pair.clusters.map FederationMember.name).Nodup ∧
    (validateSpec withoutWest pair = .ok () ∧
      ¬ ExactTargets withoutWest pair (resolveTargetClusters withoutWest pair)) ∧
    validateSpec eastTwice pair = .ok () ∧
      ¬ ExactTargets eastTwice pair (resolveTargetClusters eastTwice pair) := by
  refine ⟨by decide, ⟨by decide, fun h => ?_⟩, by decide, fun h => ?_⟩
  · obtain ⟨c, -, hname, ⟨-, hfree⟩, -⟩ := (h.mem_iff "west").mp (by decide)
    exact hfree ⟨⟨"west", true⟩, List.mem_singleton_self _, hname.symm, rfl⟩
  · exact absurd h.nodup (by decide)

end Xerv.Operator
