import Mathlib.Data.Set.Card
import Xerv.Schema.MigrationPaths

/-!
# The views of the migrations

The vector of migrations only grows, while unregistering takes the entry out of the index
and of the graph. The vector shows what the index shows as long as the two have one length.
-/

namespace Xerv.Schema
open Xerv.Lib

variable {Transform : Type}

namespace MigrationRegistry

/-- The migrations that `find_direct` returns. -/
def live (r : MigrationRegistry Transform) : Set (Migration Transform) :=
  {m | r.findDirect m.fromHash m.toHash = some m}

/-- All views describe the live migrations. -/
structure ViewsAgree (r : MigrationRegistry Transform) : Prop where
  list : ∀ m, m ∈ r.list ↔ m ∈ r.live
  migrationsFrom : ∀ m, m ∈ r.migrationsFrom m.fromHash ↔ m ∈ r.live
  migrationsTo : ∀ order, r.direct.Enumerates order → ∀ m, m ∈ r.migrationsTo order m.toHash ↔ m ∈ r.live
  len : r.len = r.live.ncard
  isEmpty : r.isEmpty = true ↔ r.live = ∅

theorem mem_live (r : MigrationRegistry Transform) (m : Migration Transform) :
    m ∈ r.live ↔ ∃ index, r.direct.get m.key = some index ∧ r.migrations[index]? = some m :=
  Option.bind_eq_some_iff

def takesAway (r : MigrationRegistry Transform) : MigrationCall Transform → Bool
  | .register _ => false
  | .unregister fromHash toHash => r.direct.contains (fromHash, toHash)

end MigrationRegistry

namespace Describes
variable {r : MigrationRegistry Transform} {registered : Registered Transform}

theorem ncard_live (h : Describes r registered) : r.live.ncard = r.direct.size := by
  have hinj : Set.InjOn Migration.key r.live := by
    intro m hm m' hm' hkey
    have hfind : r.findDirect m.fromHash m.toHash = r.findDirect m'.fromHash m'.toHash := by
      rw [(Prod.mk.inj hkey).1, (Prod.mk.inj hkey).2]
    exact Option.some.inj (hm.symm.trans (hfind.trans hm'))
  have himage : Migration.key '' r.live = ↑r.direct.keys := by
    ext k
    rw [Set.mem_image, Finset.mem_coe, FiniteMap.mem_keys, Option.isSome_iff_exists]
    constructor
    · rintro ⟨m, hm, rfl⟩
      obtain ⟨index, hget, -⟩ := (r.mem_live m).mp hm
      exact ⟨index, hget⟩
    · rintro ⟨index, hget⟩
      obtain ⟨m, hm, rfl, -⟩ := h.entry k index hget
      exact ⟨m, (r.mem_live m).mpr ⟨index, hget, hm⟩, rfl⟩
  rw [← hinj.ncard_image, himage, Set.ncard_coe_finset]
  rfl

theorem mem_migrationsFrom (h : Describes r registered) (m : Migration Transform) :
    m ∈ r.migrationsFrom m.fromHash ↔ m ∈ r.live := by
  rw [r.mem_live]
  unfold MigrationRegistry.migrationsFrom
  rw [List.mem_filterMap]
  constructor
  · rintro ⟨e, he, hm⟩
    obtain ⟨m', hm', hkey, -⟩ := h.entry _ e.2 ((h.edges _ _ _).mp he)
    cases hm.symm.trans hm'
    rw [hkey]
    exact ⟨e.2, (h.edges _ _ _).mp he, hm⟩
  · rintro ⟨index, hget, hm⟩
    exact ⟨(m.toHash, index), (h.edges _ _ _).mpr hget, hm⟩

theorem mem_migrationsTo (h : Describes r registered) {order : List ((UInt64 × UInt64) × ℕ)}
    (horder : r.direct.Enumerates order) (m : Migration Transform) :
    m ∈ r.migrationsTo order m.toHash ↔ m ∈ r.live := by
  rw [r.mem_live]
  unfold MigrationRegistry.migrationsTo
  rw [List.mem_filterMap]
  constructor
  · rintro ⟨⟨k, index⟩, he, hm⟩
    have hget := (horder.mem_iff _ _).mp (List.mem_of_mem_filter he)
    obtain ⟨m', hm', rfl, -⟩ := h.entry k index hget
    cases hm.symm.trans hm'
    exact ⟨index, hget, hm⟩
  · rintro ⟨index, hget, hm⟩
    refine ⟨(m.key, index), List.mem_filter.mpr ⟨(horder.mem_iff _ _).mpr hget, ?_⟩, hm⟩
    exact decide_eq_true rfl

theorem mem_list (h : Describes r registered) (hsize : r.direct.size = r.migrations.length) (m : Migration Transform) :
    m ∈ r.list ↔ m ∈ r.live := by
  rw [r.mem_live]
  constructor
  · intro hm
    obtain ⟨index, hindex⟩ := List.mem_iff_getElem?.mp hm
    have hlt := (List.getElem?_eq_some_iff.mp hindex).1
    have hmaps : Set.MapsTo (fun k => (r.direct.get k).getD 0) r.direct.keys (Finset.range r.migrations.length) := by
      intro k hk
      obtain ⟨i, hi⟩ := FiniteMap.exists_of_mem_keys _ hk
      have hbound := h.index_lt hi
      dsimp only
      rw [hi]
      exact Finset.mem_coe.mpr (Finset.mem_range.mpr hbound)
    have hinj : Set.InjOn (fun k => (r.direct.get k).getD 0) r.direct.keys := by
      intro j hj k hk heq
      obtain ⟨i, hi⟩ := FiniteMap.exists_of_mem_keys _ hj
      obtain ⟨i', hi'⟩ := FiniteMap.exists_of_mem_keys _ hk
      dsimp only at heq
      rw [hi, hi'] at heq
      obtain rfl : i = i' := heq
      exact h.index_inj hi hi'
    have hcard : (Finset.range r.migrations.length).card ≤ r.direct.keys.card := by
      rw [Finset.card_range]
      exact Nat.le_of_eq hsize.symm
    obtain ⟨k, hk, hki⟩ := Finset.surjOn_of_injOn_of_card_le _ hmaps hinj hcard
      (Finset.mem_coe.mpr (Finset.mem_range.mpr hlt))
    obtain ⟨i, hi⟩ := FiniteMap.exists_of_mem_keys _ hk
    dsimp only at hki
    rw [hi] at hki
    obtain rfl : i = index := hki
    obtain ⟨m', hm', rfl, -⟩ := h.entry k i hi
    cases hindex.symm.trans hm'
    exact ⟨i, hi, hindex⟩
  · rintro ⟨index, -, hm⟩
    exact List.mem_of_getElem? hm

/-- The views agree where no migration of the vector has lost its entry. -/
theorem viewsAgree_iff (h : Describes r registered) : r.ViewsAgree ↔ r.direct.size = r.migrations.length := by
  constructor
  · intro hviews
    rw [← h.ncard_live]
    exact hviews.len.symm
  · intro hsize
    refine ⟨h.mem_list hsize, h.mem_migrationsFrom, fun order horder => h.mem_migrationsTo horder,
      hsize.symm.trans h.ncard_live.symm, ?_⟩
    rw [Set.eq_empty_iff_forall_notMem]
    unfold MigrationRegistry.isEmpty
    rw [List.isEmpty_iff, List.eq_nil_iff_forall_not_mem]
    exact forall_congr' fun m => not_congr (h.mem_list hsize m)

end Describes

namespace MigrationRegistry

/-- Whether a migration has been taken away tells whether the index is the smaller one. -/
def Sizes (taken : Bool) (r : MigrationRegistry Transform) : Prop :=
  match taken with
  | true => r.direct.size < r.migrations.length
  | false => r.direct.size = r.migrations.length

theorem sizes_register (taken : Bool) (r : MigrationRegistry Transform) (m : Migration Transform)
    {r' : MigrationRegistry Transform} (h : Sizes taken r) (hstep : r.register m = some r') : Sizes taken r' := by
  obtain hlen : r'.migrations.length + r.direct.size = r.migrations.length + r'.direct.size := by
    unfold register at hstep
    split at hstep
    · cases hstep
      exact congrArg (· + r.direct.size) List.length_set
    · rename_i hget
      split at hstep
      · cases hstep
      · cases hstep
        have hcontains : r.direct.contains m.key = false := (r.direct.contains_eq_false _).mpr hget
        rw [FiniteMap.size_insert, hcontains, if_neg Bool.false_ne_true, List.length_append, List.length_singleton]
        omega
  cases taken with
  | true =>
    change _ < _ at h ⊢
    omega
  | false =>
    change _ = _ at h ⊢
    omega

theorem sizes_unregister (taken : Bool) (r : MigrationRegistry Transform) (fromHash toHash : UInt64)
    (h : Sizes taken r) :
    Sizes (taken || r.direct.contains (fromHash, toHash)) (r.unregister fromHash toHash).1 := by
  unfold unregister
  cases hget : r.direct.get (fromHash, toHash) with
  | none =>
    have hcontains : r.direct.contains (fromHash, toHash) = false := (r.direct.contains_eq_false _).mpr hget
    rw [hcontains, Bool.or_false]
    exact h
  | some index =>
    have hcontains := r.direct.contains_of_get hget
    have hsize := FiniteMap.size_remove_add_one r.direct hcontains
    rw [hcontains, Bool.or_true]
    change (r.direct.remove (fromHash, toHash)).size < r.migrations.length
    cases taken with
    | true =>
      change _ < _ at h
      omega
    | false =>
      change _ = _ at h
      omega

theorem sizes_step (taken : Bool) (r : MigrationRegistry Transform) (call : MigrationCall Transform)
    {r' : MigrationRegistry Transform} (h : Sizes taken r) (hstep : r.step call = some r') :
    Sizes (taken || r.takesAway call) r' := by
  cases call with
  | register m =>
    rw [takesAway, Bool.or_false]
    exact sizes_register taken r m h hstep
  | unregister fromHash toHash =>
    cases hstep
    exact sizes_unregister taken r fromHash toHash h

end MigrationRegistry

theorem Describes.takesAway_iff {r : MigrationRegistry Transform} {registered : Registered Transform}
    (h : Describes r registered) (fromHash toHash : UInt64) :
    r.takesAway (.unregister fromHash toHash) = false ↔ registered (fromHash, toHash) = none := by
  rw [← h.findDirect, MigrationRegistry.takesAway, FiniteMap.contains, MigrationRegistry.findDirect]
  cases hget : r.direct.get (fromHash, toHash) with
  | none => exact iff_of_true rfl rfl
  | some index =>
    obtain ⟨m, hm, -⟩ := h.entry _ index hget
    rw [Option.bind_some, hm]
    exact iff_of_false Bool.false_ne_true.symm (Option.some_ne_none m)

/-- After a sequence of calls the views agree if and only if no call has unregistered a migration
that was registered. -/
theorem views_agree_iff (calls : List (MigrationCall Transform)) (r : MigrationRegistry Transform)
    (hrun : Machine.run MigrationRegistry.step MigrationRegistry.new calls = some r) :
    r.ViewsAgree ↔
      ∀ before a b, before ++ [.unregister a b] <+: calls → registered before (a, b) = none := by
  have hnew : MigrationRegistry.Sizes false (MigrationRegistry.new : MigrationRegistry Transform) := rfl
  have hsizes := Machine.run_flags MigrationRegistry.takesAway (fun _ _ => false)
    (fun taken _ => MigrationRegistry.Sizes taken)
    (fun taken _ r call _ h hstep => MigrationRegistry.sizes_step taken r call h hstep) calls false false hnew hrun
  rw [Bool.false_or] at hsizes
  have hagree : r.ViewsAgree ↔ Machine.happens MigrationRegistry.step MigrationRegistry.takesAway
      MigrationRegistry.new calls = false := by
    rw [(Describes.run hrun).viewsAgree_iff]
    cases htaken : Machine.happens MigrationRegistry.step MigrationRegistry.takesAway MigrationRegistry.new calls with
    | true =>
      rw [htaken] at hsizes
      exact iff_of_false (Nat.ne_of_lt hsizes) nofun
    | false =>
      rw [htaken] at hsizes
      exact iff_of_true hsizes rfl
  rw [hagree, Machine.not_happens_iff MigrationRegistry.takesAway calls hrun]
  constructor
  · intro hnone before a b hpre
    obtain ⟨r₁, hbefore⟩ := Machine.run_prefix hrun ((List.prefix_append before _).trans hpre)
    exact ((Describes.run hbefore).takesAway_iff a b).mp (hnone before _ r₁ hpre hbefore)
  · intro hnone before call r₁ hpre hbefore
    cases call with
    | register m => rfl
    | unregister a b => exact ((Describes.run hbefore).takesAway_iff a b).mpr (hnone before a b hpre)

def orderReplaced : List (MigrationCall Unit) :=
  [.register (.new "Order@v1" 100 "Order@v2" 200 ()), .register (.new "Order@v1.1" 100 "Order@v2" 200 ())]

theorem views_agree_replaced :
    ∃ r, Machine.run MigrationRegistry.step MigrationRegistry.new orderReplaced = some r ∧ r.ViewsAgree := by
  refine ⟨_, rfl, (views_agree_iff orderReplaced _ rfl).mpr fun before a b hpre => ?_⟩
  have hmem : MigrationCall.unregister a b ∈ orderReplaced :=
    hpre.subset (List.mem_append_right before List.mem_cons_self)
  simp [orderReplaced] at hmem

theorem unregistered_listed : ∃ r : MigrationRegistry Unit,
    Machine.run MigrationRegistry.step MigrationRegistry.new
      [.register (.new "Order@v1" 100 "Order@v2" 200 ()), .unregister 100 200] = some r ∧ ¬ r.ViewsAgree := by
  refine ⟨_, rfl, fun hviews => ?_⟩
  have hlive := (hviews.list (.new "Order@v1" 100 "Order@v2" 200 ())).mp List.mem_cons_self
  cases hlive

end Xerv.Schema
