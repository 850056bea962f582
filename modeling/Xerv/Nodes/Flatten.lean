import Mathlib.Data.List.Perm.Subperm
import Xerv.Nodes.JsonDynamic

/-!
# Flattening (`flatten_recursive` of `json_dynamic.rs`)

The scalars below an object are inserted one after the other under the names on their way, joined by the
separator. Whether anything is lost depends on whether two of these keys are the same, and on empty objects
and arrays, which leave no entry.
-/

namespace Xerv
open Xerv.Lib
open JsonDynamicNode

namespace JsonMap

def insertAll (map entries : JsonMap) : JsonMap := entries.foldl (fun map f => map.insert f.1 f.2) map

theorem keys_insert_nodup {map : JsonMap} (h : (map.map Prod.fst).Nodup) (key : String) (value : Json) :
    ((map.insert key value).map Prod.fst).Nodup := by
  refine List.nodup_cons.mpr ⟨fun hmem => ?_, h.sublist (List.filter_sublist.map _)⟩
  obtain ⟨f, hf, hkey⟩ := List.mem_map.mp hmem
  exact of_decide_eq_true (List.mem_filter.mp hf).2 hkey

theorem keys_insertAll_nodup {map : JsonMap} (h : (map.map Prod.fst).Nodup) (entries : JsonMap) :
    ((map.insertAll entries).map Prod.fst).Nodup := by
  induction entries generalizing map with
  | nil => exact h
  | cons f entries ih => exact ih (keys_insert_nodup h f.1 f.2)

theorem keys_insertAll_subset (map entries : JsonMap) :
    (map.insertAll entries).map Prod.fst ⊆ map.map Prod.fst ++ entries.map Prod.fst := by
  induction entries generalizing map with
  | nil => exact List.subset_append_left _ _
  | cons f entries ih =>
    intro key hkey
    rcases List.mem_append.mp (ih (map.insert f.1 f.2) hkey) with hkey | hkey
    · rcases List.mem_cons.mp hkey with rfl | hkey
      · simp
      · exact List.mem_append_left _ ((List.filter_sublist.map _).subset hkey)
    · exact List.mem_append_right _ (List.mem_cons_of_mem _ hkey)

theorem insertAll_perm {map entries : JsonMap} (h : (map.map Prod.fst ++ entries.map Prod.fst).Nodup) :
    (map.insertAll entries).Perm (map ++ entries) := by
  induction entries generalizing map with
  | nil => rw [List.append_nil]; exact .refl _
  | cons f entries ih =>
    have hnew : f.1 ∉ map.map Prod.fst := by
      intro hmem
      exact (List.nodup_append.mp h).2.2 f.1 hmem f.1 List.mem_cons_self rfl
    have hinsert : map.insert f.1 f.2 = f :: map := by
      have hkept : map.filter (fun g => g.1 ≠ f.1) = map := by
        refine List.filter_eq_self.mpr fun g hg => decide_eq_true fun heq => hnew ?_
        rw [← heq]
        exact List.mem_map_of_mem hg
      unfold insert
      rw [hkept]
    change (insertAll (map.insert f.1 f.2) entries).Perm _
    rw [hinsert]
    have hmiddle : (map.map Prod.fst ++ f.1 :: entries.map Prod.fst).Perm
        (f.1 :: (map.map Prod.fst ++ entries.map Prod.fst)) := List.perm_middle
    refine (ih ?_).trans List.perm_middle.symm
    exact hmiddle.nodup_iff.mp h

end JsonMap

/-! ### Leaves -/

mutual

/-- The scalars of a value, each with the names and positions on its way. -/
def leaves : Json → List (List String × Json)
  | .object fields => leavesOfFields fields
  | .array items => leavesOfItems items 0
  | v => [([], v)]

def leavesOfFields : JsonMap → List (List String × Json)
  | [] => []
  | (key, v) :: fields => (leaves v).map (fun l => (key :: l.1, l.2)) ++ leavesOfFields fields

def leavesOfItems : List Json → ℕ → List (List String × Json)
  | [], _ => []
  | v :: items, i => (leaves v).map (fun l => (indexText i :: l.1, l.2)) ++ leavesOfItems items (i + 1)

end

mutual

/-- How many objects and arrays of a value are empty, itself included. -/
def emptyContainers : Json → ℕ
  | .object fields => if fields.isEmpty then 1 else emptyInFields fields
  | .array items => if items.isEmpty then 1 else emptyInItems items
  | _ => 0

def emptyInFields : JsonMap → ℕ
  | [] => 0
  | (_, v) :: fields => emptyContainers v + emptyInFields fields

def emptyInItems : List Json → ℕ
  | [] => 0
  | v :: items => emptyContainers v + emptyInItems items

end

/-- The names without the empty ones in front, joined by the separator. -/
def joinNames (separator : String) (names : List String) : String :=
  match names.dropWhile (· = "") with
  | [] => ""
  | first :: rest => rest.foldl (fun key name => key ++ separator ++ name) first

theorem foldl_newPrefix_of_ne (separator : String) {pre : String} (hpre : pre ≠ "") (names : List String) :
    names.foldl (newPrefix separator) pre = names.foldl (fun key name => key ++ separator ++ name) pre := by
  induction names generalizing pre with
  | nil => rfl
  | cons name names ih =>
    have hnext : newPrefix separator pre name = pre ++ separator ++ name := if_neg hpre
    have hne : pre ++ separator ++ name ≠ "" := by
      intro heq
      rw [String.append_eq_empty_iff, String.append_eq_empty_iff] at heq
      exact hpre heq.1.1
    rw [List.foldl_cons, List.foldl_cons, hnext]
    exact ih hne

theorem foldl_newPrefix (separator : String) (names : List String) :
    names.foldl (newPrefix separator) "" = joinNames separator names := by
  unfold joinNames
  induction names with
  | nil => rfl
  | cons name names ih =>
    have hnext : newPrefix separator "" name = name := if_pos rfl
    rw [List.foldl_cons, hnext]
    by_cases hname : name = ""
    · subst hname
      rw [List.dropWhile_cons_of_pos (by simp)]
      exact ih
    · rw [List.dropWhile_cons_of_neg (by simp [hname])]
      exact foldl_newPrefix_of_ne separator hname names

def entriesBelow (separator pre : String) (ls : List (List String × Json)) : JsonMap :=
  ls.map fun l => (l.1.foldl (newPrefix separator) pre, l.2)

theorem entriesBelow_cons (separator pre name : String) (ls : List (List String × Json)) :
    entriesBelow separator pre (ls.map fun l => (name :: l.1, l.2)) =
      entriesBelow separator (newPrefix separator pre name) ls := by
  unfold entriesBelow
  rw [List.map_map]
  rfl

theorem insertAll_entriesBelow_append (output : JsonMap) (separator pre : String) (ls ls' : List (List String × Json)) :
    (output.insertAll (entriesBelow separator pre ls)).insertAll (entriesBelow separator pre ls') =
      output.insertAll (entriesBelow separator pre (ls ++ ls')) := by
  unfold entriesBelow JsonMap.insertAll
  rw [List.map_append, List.foldl_append]

mutual

theorem flattenRecursive_eq (separator : String) : ∀ (v : Json) (pre : String) (output : JsonMap),
    flattenRecursive separator v pre (.object output) =
      .object (output.insertAll (entriesBelow separator pre (leaves v)))
  | .object fields, pre, output => by
    rw [flattenRecursive, leaves]
    exact flattenFields_eq separator fields pre output
  | .array items, pre, output => by
    rw [flattenRecursive, leaves]
    exact flattenItems_eq separator items 0 pre output
  | .null, _, _ | .bool _, _, _ | .number _, _, _ | .string _, _, _ => rfl

theorem flattenFields_eq (separator : String) : ∀ (fields : JsonMap) (pre : String) (output : JsonMap),
    flattenFields separator fields pre (.object output) =
      .object (output.insertAll (entriesBelow separator pre (leavesOfFields fields)))
  | [], _, _ => rfl
  | (key, v) :: fields, pre, output => by
    rw [flattenFields, leavesOfFields, flattenRecursive_eq separator v, flattenFields_eq separator fields,
      ← insertAll_entriesBelow_append, entriesBelow_cons]

theorem flattenItems_eq (separator : String) : ∀ (items : List Json) (i : ℕ) (pre : String) (output : JsonMap),
    flattenItems separator items i pre (.object output) =
      .object (output.insertAll (entriesBelow separator pre (leavesOfItems items i)))
  | [], _, _, _ => rfl
  | v :: items, i, pre, output => by
    rw [flattenItems, leavesOfItems, flattenRecursive_eq separator v, flattenItems_eq separator items,
      ← insertAll_entriesBelow_append, entriesBelow_cons]

end

/-! ### What is lost -/

/-- One entry for each leaf with the leaf's value, one for each empty object or array below the root, and all
of them under different keys. -/
def LosesNothing (fields output : JsonMap) : Prop :=
  ∃ (keys : List String) (reps : JsonMap), keys.length = (leavesOfFields fields).length ∧
    reps.length = emptyInFields fields ∧ (output.map Prod.fst).Nodup ∧
      output.Perm (keys.zip ((leavesOfFields fields).map Prod.snd) ++ reps)

def leafKeys (separator : String) (fields : JsonMap) : List String :=
  (leavesOfFields fields).map fun l => joinNames separator l.1

section Flatten
variable (separator : String) (fields : JsonMap)

theorem process_flatten :
    (JsonDynamicNode.flatten separator).process (.object fields) =
      .ok (.object (JsonMap.insertAll [] (entriesBelow separator "" (leavesOfFields fields)))) :=
  congrArg Except.ok (flattenFields_eq separator fields "" [])

theorem keys_entriesBelow :
    (entriesBelow separator "" (leavesOfFields fields)).map Prod.fst = leafKeys separator fields := by
  unfold entriesBelow leafKeys
  rw [List.map_map]
  exact List.map_congr_left fun l _ => foldl_newPrefix separator l.1

theorem losesNothing_of_distinct (hempty : emptyInFields fields = 0) (hkeys : (leafKeys separator fields).Nodup) :
    LosesNothing fields (JsonMap.insertAll [] (entriesBelow separator "" (leavesOfFields fields))) := by
  have hentries : (leafKeys separator fields).zip ((leavesOfFields fields).map Prod.snd) =
      entriesBelow separator "" (leavesOfFields fields) := by
    rw [← keys_entriesBelow]
    unfold entriesBelow
    rw [List.map_map, List.zip_map']
    rfl
  have hnil : (([] : JsonMap).map Prod.fst).Nodup := List.nodup_nil
  refine ⟨leafKeys separator fields, [], List.length_map _, hempty.symm, JsonMap.keys_insertAll_nodup hnil _, ?_⟩
  rw [List.append_nil, hentries]
  refine JsonMap.insertAll_perm ?_
  rw [List.map_nil, List.nil_append, keys_entriesBelow]
  exact hkeys

/-- The keys of the output are among those of the leaves, so there is none left for anything empty. -/
theorem distinct_of_losesNothing
    (h : LosesNothing fields (JsonMap.insertAll [] (entriesBelow separator "" (leavesOfFields fields)))) :
    emptyInFields fields = 0 ∧ (leafKeys separator fields).Nodup := by
  obtain ⟨keys, reps, hkeys, hreps, hnodup, hperm⟩ := h
  have hlen := hperm.length_eq
  rw [List.length_append, List.length_zip, List.length_map, hkeys, Nat.min_self, hreps] at hlen
  have hsubset := JsonMap.keys_insertAll_subset [] (entriesBelow separator "" (leavesOfFields fields))
  rw [List.map_nil, List.nil_append, keys_entriesBelow] at hsubset
  have hsubperm := List.subperm_of_subset hnodup hsubset
  have hle := hsubperm.length_le
  have hleaves : (leafKeys separator fields).length = (leavesOfFields fields).length := List.length_map _
  rw [List.length_map, hlen, hleaves] at hle
  refine ⟨by omega, ?_⟩
  refine (hsubperm.perm_of_length_le ?_).nodup_iff.mp hnodup
  rw [List.length_map, hlen, hleaves]
  omega

/-- For every object and every separator: flattening loses nothing if and only if no object or array below the
root is empty and no two leaves have the same joined names. -/
theorem flatten_losesNothing_iff :
    (∃ output, (JsonDynamicNode.flatten separator).process (.object fields) = .ok (.object output) ∧
        LosesNothing fields output) ↔
      emptyInFields fields = 0 ∧ (leafKeys separator fields).Nodup := by
  rw [process_flatten]
  constructor
  · rintro ⟨output, houtput, h⟩
    cases houtput
    exact distinct_of_losesNothing separator fields h
  · rintro ⟨hempty, hkeys⟩
    exact ⟨_, rfl, losesNothing_of_distinct separator fields hempty hkeys⟩

end Flatten

theorem colliding_leaf_lost :
    ¬ ∃ output, (JsonDynamicNode.flatten "_").process
        (.object [("a", .object [("b", .number "2")]), ("a_b", .number "1")]) = .ok (.object output) ∧
      LosesNothing [("a", .object [("b", .number "2")]), ("a_b", .number "1")] output := by
  rintro ⟨output, houtput, keys, reps, hkeys, hreps, -, hperm⟩
  cases houtput
  have hlen := hperm.length_eq
  rw [List.length_append, List.length_zip, List.length_map, hkeys, Nat.min_self, hreps] at hlen
  exact absurd hlen (by decide)

end Xerv
