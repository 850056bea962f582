import Mathlib.Data.List.AList
import Mathlib.Data.List.Sort

/-!
# Directories of numbered files

A directory maps file names to files. Its listing order (`read_dir`) is the
order of the association list and may be any order; code that needs the files
in sequence keeps the names that parse to a number and sorts by that number
(`sort_by_key`, a stable sort).
-/

namespace Xerv.Lib

abbrev Directory (F : Type) := AList fun _ : String => F

def Directory.get {F : Type} (d : Directory F) (name : String) : Option F := d.lookup name

namespace Directory
variable {F : Type} (d : Directory F)

theorem get_isSome (name : String) : (d.get name).isSome ↔ name ∈ d := AList.lookup_isSome

theorem get_eq_none (name : String) : d.get name = none ↔ name ∉ d := AList.lookup_eq_none

@[simp] theorem get_insert_self (name : String) (f : F) : Directory.get (d.insert name f) name = some f :=
  AList.lookup_insert d

theorem get_insert_ne (name p : String) (f : F) (h : p ≠ name) :
    Directory.get (d.insert name f) p = d.get p := AList.lookup_insert_ne h

@[simp] theorem get_erase_self (name : String) : Directory.get (d.erase name) name = none :=
  AList.lookup_erase name d

theorem get_erase_ne (name p : String) (h : p ≠ name) : Directory.get (d.erase name) p = d.get p :=
  AList.lookup_erase_ne h

end Directory

def stripPrefix (p cs : List Char) : Option (List Char) :=
  if p.isPrefixOf cs then some (cs.drop p.length) else none

def stripSuffix (s cs : List Char) : Option (List Char) :=
  if s.isSuffixOf cs then some (cs.take (cs.length - s.length)) else none

theorem stripPrefix_append (p cs : List Char) : stripPrefix p (p ++ cs) = some cs := by
  have hp : p.isPrefixOf (p ++ cs) = true := List.isPrefixOf_iff_prefix.mpr (List.prefix_append p cs)
  rw [stripPrefix, if_pos hp, List.drop_left]

theorem stripSuffix_append (s cs : List Char) : stripSuffix s (cs ++ s) = some cs := by
  have hs : s.isSuffixOf (cs ++ s) = true := List.isSuffixOf_iff_suffix.mpr (List.suffix_append cs s)
  have hlen : (cs ++ s).length - s.length = cs.length := by
    rw [List.length_append]
    omega
  rw [stripSuffix, if_pos hs, hlen, List.take_left]

section Numbered
variable {F : Type} (parse : String → Option ℕ)

/-- The names that parse, with their numbers, in the order of the numbers. -/
def listNumbered (d : Directory F) : List (ℕ × String) :=
  (d.keys.filterMap fun name => (parse name).map fun i => (i, name)).insertionSort
    fun a b => a.1 ≤ b.1

theorem mem_listNumbered (d : Directory F) (i : ℕ) (name : String) :
    (i, name) ∈ listNumbered parse d ↔ name ∈ d ∧ parse name = some i := by
  rw [listNumbered, List.mem_insertionSort, List.mem_filterMap]
  constructor
  · rintro ⟨n, hn, hp⟩
    obtain ⟨j, hj, he⟩ := Option.map_eq_some_iff.mp hp
    obtain ⟨rfl, rfl⟩ := Prod.mk.inj he
    exact ⟨hn, hj⟩
  · rintro ⟨hn, hp⟩
    exact ⟨name, hn, by rw [hp]; rfl⟩

theorem listNumbered_sorted (d : Directory F) :
    (listNumbered parse d).Pairwise fun a b => a.1 ≤ b.1 := by
  have : Std.Total fun a b : ℕ × String => a.1 ≤ b.1 := ⟨fun a b => le_total a.1 b.1⟩
  have : IsTrans (ℕ × String) fun a b => a.1 ≤ b.1 := ⟨fun _ _ _ => le_trans⟩
  exact List.pairwise_insertionSort _ _

theorem listNumbered_nodup (d : Directory F) : (listNumbered parse d).Nodup := by
  rw [listNumbered, (List.perm_insertionSort _ _).nodup_iff]
  refine d.keys_nodup.filterMap ?_
  intro a b p ha hb
  obtain ⟨_, _, rfl⟩ := Option.map_eq_some_iff.mp ha
  obtain ⟨_, _, he⟩ := Option.map_eq_some_iff.mp hb
  exact (Prod.mk.inj he).2.symm

theorem listNumbered_eq (name : ℕ → String) (d : Directory F) (idx : List ℕ)
    (hparse : ∀ i ∈ idx, parse (name i) = some i) (hidx : idx.Pairwise (· < ·))
    (hmem : ∀ n, n ∈ d ↔ ∃ i ∈ idx, n = name i) :
    listNumbered parse d = idx.map fun i => (i, name i) := by
  have hnodup : (idx.map fun i => (i, name i)).Nodup := by
    refine List.Nodup.map ?_ (hidx.imp fun h => ne_of_lt h)
    intro a b h
    exact (Prod.mk.inj h).1
  have hperm : (listNumbered parse d).Perm (idx.map fun i => (i, name i)) := by
    rw [List.perm_ext_iff_of_nodup (listNumbered_nodup parse d) hnodup]
    rintro ⟨i, n⟩
    rw [mem_listNumbered, hmem, List.mem_map]
    constructor
    · rintro ⟨⟨j, hj, rfl⟩, hp⟩
      have hji : j = i := Option.some.inj ((hparse j hj).symm.trans hp)
      exact ⟨j, hj, by rw [hji]⟩
    · rintro ⟨j, hj, he⟩
      obtain ⟨rfl, rfl⟩ := Prod.mk.inj he
      exact ⟨⟨j, hj, rfl⟩, hparse j hj⟩
  have hsorted : (idx.map fun i => (i, name i)).Pairwise fun a b => a.1 ≤ b.1 :=
    List.pairwise_map.mpr (hidx.imp fun h => le_of_lt h)
  refine hperm.eq_of_pairwise ?_ (listNumbered_sorted parse d) hsorted
  rintro ⟨i, n⟩ ⟨j, m⟩ hi hj hij hji
  obtain ⟨k, _, hk⟩ := List.mem_map.mp (hperm.mem_iff.mp hi)
  obtain ⟨l, _, hl⟩ := List.mem_map.mp hj
  obtain ⟨rfl, rfl⟩ := Prod.mk.inj hk
  obtain ⟨rfl, rfl⟩ := Prod.mk.inj hl
  have hkl : k = l := le_antisymm hij hji
  rw [hkl]

theorem pair_sublist_or {α : Type} {l : List α} {x y : α} (hx : x ∈ l) (hy : y ∈ l) (hne : x ≠ y) :
    [x, y].Sublist l ∨ [y, x].Sublist l := by
  obtain ⟨before, after, rfl⟩ := List.append_of_mem hx
  rcases List.mem_append.mp hy with hbefore | hafter
  · exact .inr ((List.singleton_sublist.mpr hbefore).append (List.singleton_sublist.mpr List.mem_cons_self))
  · have hlater := (List.mem_cons.mp hafter).resolve_left hne.symm
    exact .inl (((List.singleton_sublist.mpr hlater).cons_cons x).trans (List.sublist_append_right _ _))

theorem pair_sublist_asymm {α : Type} {l : List α} {x y : α} (hl : l.Nodup) (h : [x, y].Sublist l) :
    ¬ [y, x].Sublist l := by
  induction l with
  | nil => cases h
  | cons z l ih =>
    obtain ⟨hz, htail⟩ := List.nodup_cons.mp hl
    intro hback
    cases h with
    | cons _ hxy =>
      cases hback with
      | cons _ hyx => exact ih htail hxy hyx
      | cons_cons _ _ => exact hz (hxy.subset (List.mem_cons_of_mem _ List.mem_cons_self))
    | cons_cons _ hy =>
      cases hback with
      | cons _ hyx => exact hz (hyx.subset (List.mem_cons_of_mem _ List.mem_cons_self))
      | cons_cons _ _ => exact hz (hy.subset List.mem_cons_self)

/-- Of two files that are listed, the one with the lower number comes first, and of two with one number the one
that the directory has first. -/
theorem listNumbered_before (d : Directory F) {a b : String} {i j : ℕ} (ha : a ∈ d) (hb : b ∈ d) (hne : a ≠ b)
    (hi : parse a = some i) (hj : parse b = some j) :
    [a, b].Sublist ((listNumbered parse d).map Prod.snd) ↔ i < j ∨ i = j ∧ [a, b].Sublist d.keys := by
  have : Std.Total fun a b : ℕ × String => a.1 ≤ b.1 := ⟨fun a b => le_total a.1 b.1⟩
  have : IsTrans (ℕ × String) fun a b => a.1 ≤ b.1 := ⟨fun _ _ _ => le_trans⟩
  have hx : (i, a) ∈ listNumbered parse d := (mem_listNumbered parse d i a).mpr ⟨ha, hi⟩
  have hy : (j, b) ∈ listNumbered parse d := (mem_listNumbered parse d j b).mpr ⟨hb, hj⟩
  have hxy : (i, a) ≠ (j, b) := fun h => hne (Prod.mk.inj h).2
  have hnames : [a, b].Sublist ((listNumbered parse d).map Prod.snd) ↔
      [(i, a), (j, b)].Sublist (listNumbered parse d) := by
    constructor
    · intro h
      obtain ⟨pairs, hpairs, heq⟩ := List.sublist_map_iff.mp h
      obtain ⟨⟨k, c⟩, rest, rfl, hc, hrest⟩ := List.map_eq_cons_iff.mp heq.symm
      obtain ⟨⟨l, e⟩, last, rfl, he, hlast⟩ := List.map_eq_cons_iff.mp hrest
      obtain rfl := List.map_eq_nil_iff.mp hlast
      obtain rfl : c = a := hc
      obtain rfl : e = b := he
      have hk := ((mem_listNumbered parse d k c).mp (hpairs.subset List.mem_cons_self)).2
      have hl := ((mem_listNumbered parse d l e).mp
        (hpairs.subset (List.mem_cons_of_mem _ List.mem_cons_self))).2
      obtain rfl : k = i := Option.some.inj (hk.symm.trans hi)
      obtain rfl : l = j := Option.some.inj (hl.symm.trans hj)
      exact hpairs
    · exact fun h => h.map Prod.snd
  -- The sort is stable.
  have hstable {p q : ℕ × String} (hp : parse p.2 = some p.1) (hq : parse q.2 = some q.1) (hle : p.1 ≤ q.1)
      (hkeys : [p.2, q.2].Sublist d.keys) : [p, q].Sublist (listNumbered parse d) := by
    have hfiltered := hkeys.filterMap fun name => (parse name).map fun i => (i, name)
    simp only [List.filterMap_cons, hp, hq, Option.map_some, List.filterMap_nil] at hfiltered
    exact List.pair_sublist_insertionSort hle hfiltered
  have hordered {p q : ℕ × String} (h : [p, q].Sublist (listNumbered parse d)) : p.1 ≤ q.1 :=
    (List.pairwise_cons.mp ((listNumbered_sorted parse d).sublist h)).1 q List.mem_cons_self
  rw [hnames]
  constructor
  · intro h
    rcases Nat.lt_or_eq_of_le (hordered h) with hlt | heq
    · exact .inl hlt
    · have hkeys := pair_sublist_or (AList.mem_keys.mp ha) (AList.mem_keys.mp hb) hne
      refine .inr ⟨heq, hkeys.resolve_right fun hback => ?_⟩
      exact pair_sublist_asymm (listNumbered_nodup parse d) h (hstable hj hi (Nat.le_of_eq heq.symm) hback)
  · rintro (hlt | ⟨heq, hkeys⟩)
    · refine (pair_sublist_or hx hy hxy).resolve_right fun hback => ?_
      exact absurd (hordered hback) (Nat.not_le.mpr hlt)
    · exact hstable hi hj (Nat.le_of_eq heq) hkeys

end Numbered

end Xerv.Lib
