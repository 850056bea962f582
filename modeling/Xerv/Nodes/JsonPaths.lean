import Xerv.Lib.Positions
import Xerv.Nodes.JsonDynamic

/-!
# The laws of setting and deleting a path

What is set is read back, what is deleted is gone, and every unrelated place stays. The writer knows neither
`$.` nor indices, and it puts an object in the place of an array; else the laws hold.
-/

namespace Xerv
open Xerv.Lib
open JsonDynamicNode

namespace Json
variable (v : Json) (key : String) (value : Json)

theorem asObject_get : v.asObject.get key = v.get key := by
  cases v with
  | _ => rfl

theorem asObject_eq : ∃ fields, v.asObject = object fields := by
  cases v with
  | object fields => exact ⟨fields, rfl⟩
  | _ => exact ⟨[], rfl⟩

theorem get_asObject_insert_self : (v.asObject.insert key value).get key = some value := by
  obtain ⟨fields, hfields⟩ := v.asObject_eq
  rw [hfields]
  exact get_insert_self fields key value

theorem get_asObject_insert_ne {k : String} (h : k ≠ key) : (v.asObject.insert key value).get k = v.get k := by
  rw [get_insert_ne _ key k value h, asObject_get]

theorem item_asObject_insert (i : ℕ) : (v.asObject.insert key value).item i = none := by
  obtain ⟨fields, hfields⟩ := v.asObject_eq
  rw [hfields]
  rfl

theorem get_remove_self : (v.remove key).get key = none := by
  cases v with
  | object fields => simp [remove, get, List.find?_filter]
  | _ => rfl

theorem get_remove_ne {k : String} (h : k ≠ key) : (v.remove key).get k = v.get k := by
  cases v with
  | object fields =>
    simp only [remove, get, List.find?_filter]
    congr 2
    funext f
    by_cases hf : f.1 = k
    · simp [hf, h]
    · simp [hf]
  | _ => rfl

theorem follow_empty {p : List PathStep} (hp : p ≠ []) : (object []).follow p = none := by
  cases p with
  | nil => exact absurd rfl hp
  | cons s p =>
    cases s with
    | _ => rfl

theorem sizeOf_get_lt {v w : Json} {key : String} (h : v.get key = some w) : sizeOf w < sizeOf v := by
  cases v with
  | object fields =>
    obtain ⟨f, hf, rfl⟩ := Option.map_eq_some_iff.mp h
    have hmem := List.sizeOf_lt_of_mem (List.mem_of_find?_eq_some hf)
    obtain ⟨k, w⟩ := f
    simp only [Prod.mk.sizeOf_spec, object.sizeOf_spec] at hmem ⊢
    omega
  | _ => cases h

/-- A list with items stands above the place. -/
def ArrayInWay (v : Json) (parts : List String) : Prop :=
  ∃ front items, front <+: parts ∧ front ≠ parts ∧ v.follow (front.map .key) = some (array items) ∧ items ≠ []

theorem ArrayInWay.cons {v w : Json} {key : String} {rest : List String} (hw : v.get key = some w)
    (h : w.ArrayInWay rest) : v.ArrayInWay (key :: rest) := by
  obtain ⟨front, items, hpre, hne, hfollow, hitems⟩ := h
  refine ⟨key :: front, items, List.cons_prefix_cons.mpr ⟨rfl, hpre⟩, ?_, ?_, hitems⟩
  · intro heq
    exact hne (List.cons.inj heq).2
  · change (v.get key).bind _ = _
    rw [hw]
    exact hfollow

theorem not_arrayInWay_empty (parts : List String) : ¬ (object []).ArrayInWay parts := by
  rintro ⟨front, items, -, -, hfollow, -⟩
  cases front with
  | nil => cases hfollow
  | cons key front =>
    rw [List.map_cons, follow_empty (List.cons_ne_nil _ _)] at hfollow
    cases hfollow

end Json

section Writing
variable (v : Json) (key : String) (rest : List String) (value : Json)

theorem setPathRecursive_cons :
    setPathRecursive v (key :: rest) value = v.asObject.insert key
      (if rest = [] then value else setPathRecursive ((v.get key).getD (.object [])) rest value) := by
  rw [setPathRecursive, Json.asObject_get]
  split
  · rfl
  · rfl

theorem follow_set_self {parts : List String} (hparts : parts ≠ []) :
    (setPathRecursive v parts value).follow (parts.map .key) = some value := by
  induction parts generalizing v with
  | nil => exact absurd rfl hparts
  | cons key rest ih =>
    change ((setPathRecursive v (key :: rest) value).get key).bind _ = _
    rw [setPathRecursive_cons, Json.get_asObject_insert_self, Option.bind_some]
    cases rest with
    | nil => rfl
    | cons next rest =>
      rw [if_neg (List.cons_ne_nil _ _)]
      exact ih _ (List.cons_ne_nil _ _)

theorem follow_set_item (i : ℕ) (p : List PathStep) :
    (setPathRecursive v (key :: rest) value).follow (.index i :: p) = v.follow (.index i :: p) ∨
      ((setPathRecursive v (key :: rest) value).follow (.index i :: p) = none ∧ v.ArrayInWay (key :: rest)) := by
  have hnone : (setPathRecursive v (key :: rest) value).follow (.index i :: p) = none := by
    rw [setPathRecursive_cons]
    change ((v.asObject.insert key _).item i).bind _ = none
    rw [Json.item_asObject_insert, Option.bind_none]
  rw [hnone]
  cases v with
  | array items =>
    cases items with
    | nil => exact .inl rfl
    | cons item items =>
      exact .inr ⟨rfl, [], item :: items, List.nil_prefix, (List.cons_ne_nil _ _).symm, rfl, List.cons_ne_nil _ _⟩
  | _ => exact .inl rfl

/-- A place that is unrelated to the one set keeps its value, or it was in an array that an object replaces. -/
theorem follow_set_unrelated {parts : List String} {p : List PathStep} (h : Unrelated p (parts.map .key)) :
    (setPathRecursive v parts value).follow p = v.follow p ∨
      ((setPathRecursive v parts value).follow p = none ∧ v.ArrayInWay parts) := by
  induction parts generalizing v p with
  | nil => exact absurd (List.nil_prefix) h.2
  | cons key rest ih =>
    cases p with
    | nil => exact absurd (List.nil_prefix) h.1
    | cons s p =>
      cases s with
      | index i => exact follow_set_item v key rest value i p
      | key k =>
        rw [setPathRecursive_cons]
        change ((v.asObject.insert key _).get k).bind _ = (v.get k).bind _ ∨
          ((v.asObject.insert key _).get k).bind _ = none ∧ _
        by_cases hk : k = key
        · subst hk
          rw [List.map_cons, unrelated_cons] at h
          have hrest : rest ≠ [] := h.parts_ne_nil
          rw [Json.get_asObject_insert_self, Option.bind_some, if_neg hrest]
          cases hget : v.get k with
          | none =>
            have hempty : (Json.object []).follow p = none := by
              refine Json.follow_empty ?_
              rintro rfl
              exact h.1 List.nil_prefix
            rcases ih (.object []) h with heq | ⟨-, harray⟩
            · exact .inl (heq.trans hempty)
            · exact absurd harray (Json.not_arrayInWay_empty rest)
          | some w =>
            rcases ih w h with heq | ⟨hnone, harray⟩
            · exact .inl heq
            · exact .inr ⟨hnone, harray.cons hget⟩
        · rw [Json.get_asObject_insert_ne _ _ _ hk]
          exact .inl rfl

theorem follow_set_index {front rest : List String} (hrest : rest ≠ []) (i : ℕ) :
    (setPathRecursive v (front ++ rest) value).follow (front.map .key ++ [.index i]) = none := by
  induction front generalizing v with
  | nil =>
    cases rest with
    | nil => exact absurd rfl hrest
    | cons key rest =>
      change ((setPathRecursive v (key :: rest) value).item i).bind _ = none
      rw [setPathRecursive_cons, Json.item_asObject_insert, Option.bind_none]
  | cons key front ih =>
    change ((setPathRecursive v (key :: (front ++ rest)) value).get key).bind _ = none
    rw [setPathRecursive_cons, Json.get_asObject_insert_self, Option.bind_some,
      if_neg (List.append_ne_nil_of_right_ne_nil front hrest)]
    exact ih _

theorem follow_delete_self {parts : List String} (hparts : parts ≠ []) :
    (deletePathRecursive v parts).follow (parts.map .key) = none := by
  induction parts generalizing v with
  | nil => exact absurd rfl hparts
  | cons key rest ih =>
    change ((deletePathRecursive v (key :: rest)).get key).bind _ = none
    cases v with
    | object fields =>
      unfold deletePathRecursive
      dsimp only
      by_cases hrest : rest = []
      · rw [if_pos hrest, Json.get_remove_self, Option.bind_none]
      · rw [if_neg hrest]
        cases hget : (Json.object fields).get key with
        | none =>
          dsimp only
          rw [hget, Option.bind_none]
        | some next =>
          dsimp only
          rw [Json.get_insert_self, Option.bind_some]
          exact ih next hrest
    | _ => rfl

theorem step_delete_of_ne (fields : List (String × Json)) {s : PathStep} (hs : s ≠ .key key) :
    (deletePathRecursive (.object fields) (key :: rest)).step s = (Json.object fields).step s := by
  unfold deletePathRecursive
  dsimp only
  split
  · cases s with
    | key k => exact Json.get_remove_ne (.object fields) key fun hk => hs (congrArg _ hk)
    | index i => rfl
  · split
    · cases s with
      | key k => exact Json.get_insert_ne (.object fields) key k _ fun hk => hs (congrArg _ hk)
      | index i => rfl
    · rfl

theorem follow_delete_unrelated {parts : List String} {p : List PathStep} (h : Unrelated p (parts.map .key)) :
    (deletePathRecursive v parts).follow p = v.follow p := by
  induction parts generalizing v p with
  | nil => exact absurd List.nil_prefix h.2
  | cons key rest ih =>
    cases v with
    | object fields =>
      cases p with
      | nil => exact absurd List.nil_prefix h.1
      | cons s p =>
        by_cases hs : s = .key key
        · subst hs
          rw [List.map_cons, unrelated_cons] at h
          have hrest : rest ≠ [] := h.parts_ne_nil
          unfold deletePathRecursive
          dsimp only
          rw [if_neg hrest]
          cases hget : (Json.object fields).get key with
          | none => rfl
          | some next =>
            change (((Json.object fields).insert key _).get key).bind _ = ((Json.object fields).get key).bind _
            rw [Json.get_insert_self, hget]
            exact ih next h
        · change ((deletePathRecursive (.object fields) (key :: rest)).step s).bind _ = _
          rw [step_delete_of_ne key rest fields hs]
          rfl
    | _ => rfl

end Writing

/-! ### Paths that are written where they are read -/

theorem stepsOfPart_of_no_index {part : List Char} (h : '[' ∉ part) :
    stepsOfPart part = some [.key (String.ofList part)] := by
  have hnone : splitAtText ['['] part = none :=
    splitAtText_eq_none_iff.mpr fun hoccurs => h (hoccurs.subset List.mem_cons_self)
  unfold stepsOfPart
  rw [hnone]

theorem stepsOfParts_of_no_index {parts : List (List Char)} (h : ∀ part ∈ parts, '[' ∉ part) :
    (parts.mapM stepsOfPart).map List.flatten = some ((parts.map String.ofList).map .key) := by
  induction parts with
  | nil => rfl
  | cons part parts ih =>
    obtain ⟨hpart, hparts⟩ := List.forall_mem_cons.mp h
    obtain ⟨more, hmore, hflat⟩ := Option.map_eq_some_iff.mp (ih hparts)
    rw [List.mapM_cons, stepsOfPart_of_no_index hpart, hmore]
    exact congrArg (fun steps => some (PathStep.key (String.ofList part) :: steps)) hflat

/-- A part with an index is read as a field and its item, and written as one key. -/
theorem stepsOfPart_of_index {part : List Char} (h : '[' ∈ part) {steps : List PathStep}
    (hsteps : stepsOfPart part = some steps) :
    ∃ field i, steps = [.key field, .index i] ∧ field ≠ String.ofList part := by
  unfold stepsOfPart at hsteps
  cases hsplit : splitAtText ['['] part with
  | none => exact absurd ((List.singleton_infix_iff _ _).mpr h) (splitAtText_eq_none_iff.mp hsplit)
  | some p =>
    obtain ⟨field, index⟩ := p
    rw [hsplit] at hsteps
    obtain ⟨digits, -, hdigits⟩ := Option.bind_eq_some_iff.mp hsteps
    obtain ⟨i, -, hi⟩ := Option.bind_eq_some_iff.mp hdigits
    refine ⟨String.ofList field, i, (Option.some.inj hi).symm, fun heq => ?_⟩
    have hlen := congrArg List.length ((String.ofList_inj.mp heq).trans (splitAtText_some hsplit))
    simp at hlen

theorem mapM_cons_eq_some {α β : Type*} {f : α → Option β} {x : α} {xs : List α} {ys : List β}
    (h : (x :: xs).mapM f = some ys) : ∃ y rest, f x = some y ∧ xs.mapM f = some rest ∧ ys = y :: rest := by
  rw [List.mapM_cons] at h
  obtain ⟨y, hy, h⟩ := Option.bind_eq_some_iff.mp h
  obtain ⟨rest, hrest, h⟩ := Option.bind_eq_some_iff.mp h
  exact ⟨y, rest, hy, hrest, (Option.some.inj h).symm⟩

theorem unrelated_of_index {parts : List (List Char)} (h : ∃ part ∈ parts, '[' ∈ part) {steps : List PathStep}
    (hsteps : (parts.mapM stepsOfPart).map List.flatten = some steps) :
    Unrelated steps ((parts.map String.ofList).map .key) := by
  obtain ⟨all, hall, rfl⟩ := Option.map_eq_some_iff.mp hsteps
  clear hsteps
  induction parts generalizing all with
  | nil =>
    obtain ⟨part, hpart, -⟩ := h
    cases hpart
  | cons part parts ih =>
    obtain ⟨here, more, hhere, hmore, rfl⟩ := mapM_cons_eq_some hall
    by_cases hpart : '[' ∈ part
    · obtain ⟨field, i, rfl, hne⟩ := stepsOfPart_of_index hpart hhere
      exact unrelated_of_head_ne (fun heq => hne (PathStep.key.inj heq)) _ _
    · rw [stepsOfPart_of_no_index hpart] at hhere
      obtain rfl := Option.some.inj hhere
      refine (unrelated_cons _ _ _).mpr (ih ?_ more hmore)
      obtain ⟨part', hmem, hindex⟩ := h
      rcases List.mem_cons.mp hmem with rfl | hmem
      · exact absurd hindex hpart
      · exact ⟨part', hmem, hindex⟩

/-- What is read behind `$.` is written below the key `$`. -/
theorem unrelated_or_dollars {parts : List (List Char)} {steps : List PathStep}
    (hsteps : (parts.mapM stepsOfPart).map List.flatten = some steps) :
    Unrelated steps (.key "$" :: (parts.map String.ofList).map .key) ∨
      steps ++ [.key "$"] = .key "$" :: (parts.map String.ofList).map .key := by
  obtain ⟨all, hall, rfl⟩ := Option.map_eq_some_iff.mp hsteps
  clear hsteps
  induction parts generalizing all with
  | nil =>
    cases hall
    exact .inr rfl
  | cons part parts ih =>
    obtain ⟨here, more, hhere, hmore, rfl⟩ := mapM_cons_eq_some hall
    by_cases hpart : '[' ∈ part
    · obtain ⟨field, i, rfl, -⟩ := stepsOfPart_of_index hpart hhere
      refine .inl ?_
      by_cases hfield : field = "$"
      · have hne : PathStep.index i ≠ .key (String.ofList part) := nofun
        rw [hfield]
        exact (unrelated_cons _ _ _).mpr (unrelated_of_head_ne hne _ _)
      · exact unrelated_of_head_ne (fun heq => hfield (PathStep.key.inj heq)) _ _
    · rw [stepsOfPart_of_no_index hpart] at hhere
      obtain rfl := Option.some.inj hhere
      by_cases hdollar : String.ofList part = "$"
      · rw [List.map_cons, List.map_cons, List.flatten_cons, List.singleton_append, hdollar]
        rcases ih more hmore with hunrelated | heq
        · exact .inl ((unrelated_cons _ _ _).mpr hunrelated)
        · exact .inr (congrArg (PathStep.key "$" :: ·) heq)
      · exact .inl (unrelated_of_head_ne (fun heq => hdollar (PathStep.key.inj heq)) _ _)

theorem exists_path_to_item {front : List (List Char)} (hfront : front ≠ []) (hindex : ∀ part ∈ front, '[' ∉ part)
    (hdot : ∀ part ∈ front, '.' ∉ part) :
    ∃ path, pathSteps path = some ((front.map String.ofList).map .key ++ [.index 0]) := by
  obtain ⟨init, last, rfl⟩ := List.eq_nil_or_concat front |>.resolve_left hfront
  rw [List.concat_eq_append] at *
  have hparts : ∀ part ∈ init ++ [last ++ ['[', '0', ']']], '.' ∉ part := by
    intro part hpart
    rcases List.mem_append.mp hpart with hpart | hpart
    · exact hdot part (List.mem_append_left _ hpart)
    · rw [List.mem_singleton.mp hpart, List.mem_append, not_or]
      exact ⟨hdot last (by simp), by decide⟩
  have hlast : stepsOfPart (last ++ ['[', '0', ']']) = some [.key (String.ofList last), .index 0] := by
    unfold stepsOfPart
    rw [splitAtText_char (hindex last (by simp))]
    rfl
  obtain ⟨more, hmore, hflat⟩ := Option.map_eq_some_iff.mp
    (stepsOfParts_of_no_index fun part hpart => hindex part (List.mem_append_left [last] hpart))
  refine ⟨String.ofList (['$', '.'] ++ ['.'].intercalate (init ++ [last ++ ['[', '0', ']']])), ?_⟩
  unfold pathSteps readParts
  rw [String.toList_ofList, stripPrefix_append, Option.getD_some, List.splitOn_intercalate _ hparts (by simp),
    List.mapM_append, hmore]
  simp [hlast, hflat]

/-- Set and delete at a path: what is set is read back, what is deleted is gone, and unrelated paths read what
they read before. -/
structure LensLaws (doc : Json) (path : String) (steps : List PathStep) (value : Json) : Prop where
  set : ∃ out, (JsonDynamicNode.set path value).process doc = .ok out ∧ out.getField path = some value ∧
    ∀ q other, pathSteps q = some other → Unrelated other steps → out.getField q = doc.getField q
  delete : ∃ out, (JsonDynamicNode.delete path).process doc = .ok out ∧ out.getField path = none ∧
    ∀ q other, pathSteps q = some other → Unrelated other steps → out.getField q = doc.getField q

/-- The path is written where it is read, and no list with items stands above its place. -/
structure WritesWhereRead (doc : Json) (path : String) : Prop where
  unrooted : ¬ ['$', '.'] <+: path.toList
  noIndex : '[' ∉ path.toList
  noArray : ¬ doc.ArrayInWay (Json.splitPath path)

section Laws
variable {doc : Json} {path : String} {steps : List PathStep} {value : Json}

theorem pathSteps_plain (hroot : ¬ ['$', '.'] <+: path.toList) (hindex : '[' ∉ path.toList) :
    pathSteps path = some ((Json.splitPath path).map .key) := by
  have hstrip : stripPrefix ['$', '.'] path.toList = none :=
    if_neg fun h => hroot (List.isPrefixOf_iff_prefix.mp h)
  unfold pathSteps readParts
  rw [hstrip, Option.getD_none]
  exact stepsOfParts_of_no_index fun part hpart h => hindex (mem_part_of_splitOn_iff.mp ⟨part, hpart, h⟩).1

theorem lensLaws_of_writesWhereRead (h : WritesWhereRead doc path) :
    LensLaws doc path ((Json.splitPath path).map .key) value := by
  have hsteps := pathSteps_plain h.unrooted h.noIndex
  refine ⟨⟨_, rfl, ?_, fun q other hq hunrelated => ?_⟩, ⟨_, rfl, ?_, fun q other hq hunrelated => ?_⟩⟩
  · rw [Json.getField_eq, hsteps, Option.bind_some]
    exact follow_set_self doc value (splitPath_ne_nil path)
  · rw [Json.getField_eq, Json.getField_eq, hq, Option.bind_some, Option.bind_some]
    exact (follow_set_unrelated doc value hunrelated).resolve_right fun hright => h.noArray hright.2
  · rw [Json.getField_eq, hsteps, Option.bind_some]
    exact follow_delete_self doc (splitPath_ne_nil path)
  · rw [Json.getField_eq, Json.getField_eq, hq, Option.bind_some, Option.bind_some]
    exact follow_delete_unrelated doc hunrelated

/-- A path that is read apart from where it is written would have to be unset and deleted at once. -/
theorem LensLaws.not_unrelated (h : LensLaws doc path steps value) (hsteps : pathSteps path = some steps) :
    ¬ Unrelated steps ((Json.splitPath path).map .key) := by
  intro hunrelated
  obtain ⟨out, hout, hset, -⟩ := h.set
  obtain ⟨out', hout', hdelete, -⟩ := h.delete
  cases hout
  cases hout'
  rw [Json.getField_eq, hsteps, Option.bind_some] at hset hdelete
  have hdeleted := (follow_delete_unrelated doc hunrelated).symm.trans hdelete
  rcases follow_set_unrelated doc value hunrelated with hkept | ⟨hnone, -⟩
  · cases (hkept.symm.trans hset).symm.trans hdeleted
  · cases hnone.symm.trans hset

theorem LensLaws.unrooted (h : LensLaws doc path steps value) (hsteps : pathSteps path = some steps) :
    ¬ ['$', '.'] <+: path.toList := by
  rintro ⟨rest, hrest⟩
  have hread : readParts path = rest.splitOn '.' := by
    unfold readParts
    rw [← hrest, stripPrefix_append]
    rfl
  have hwritten : Json.splitPath path = "$" :: (rest.splitOn '.').map String.ofList := by
    have hdollar : '.' ∉ ['$'] := by decide
    unfold Json.splitPath
    rw [← hrest]
    exact congrArg (List.map String.ofList) (List.splitOn_append_cons_self_of_not_mem hdollar rest)
  have hparts := hsteps
  unfold pathSteps at hparts
  rw [hread] at hparts
  have hnot := h.not_unrelated hsteps
  rw [hwritten] at hnot
  rcases unrelated_or_dollars hparts with hunrelated | heq
  · exact hnot hunrelated
  · -- the value would contain itself
    obtain ⟨out, hout, hset, -⟩ := h.set
    cases hout
    have hself := follow_set_self doc value (splitPath_ne_nil path)
    rw [Json.getField_eq, hsteps, Option.bind_some] at hset
    rw [congrArg (List.map PathStep.key) hwritten, List.map_cons, ← heq, Json.follow_append] at hself
    have hinner : value.get "$" = some value := by
      rw [JsonDynamicNode.setPath] at hset
      rw [hset, Option.bind_some] at hself
      exact (Option.bind_fun_some _).symm.trans hself
    exact absurd (Json.sizeOf_get_lt hinner) (Nat.lt_irrefl _)

theorem LensLaws.noIndex (h : LensLaws doc path steps value) (hsteps : pathSteps path = some steps) :
    '[' ∉ path.toList := by
  intro hindex
  have hstrip : stripPrefix ['$', '.'] path.toList = none :=
    if_neg fun hpre => h.unrooted hsteps (List.isPrefixOf_iff_prefix.mp hpre)
  have hparts := hsteps
  unfold pathSteps readParts at hparts
  rw [hstrip, Option.getD_none] at hparts
  exact h.not_unrelated hsteps (unrelated_of_index (mem_part_of_splitOn_iff.mpr ⟨hindex, by decide⟩) hparts)

theorem LensLaws.noArray (h : LensLaws doc path ((Json.splitPath path).map .key) value)
    (hdoc : ∀ items, doc ≠ .array items) (hindex : '[' ∉ path.toList) : ¬ doc.ArrayInWay (Json.splitPath path) := by
  rintro ⟨front, items, hpre, hne, hfollow, hitems⟩
  obtain ⟨out, hout, -, hother⟩ := h.set
  cases hout
  obtain ⟨rest, hrest⟩ := hpre
  obtain ⟨above, below, hraw, rfl, rfl⟩ := List.map_eq_append_iff.mp hrest.symm
  have hbelow : below.map String.ofList ≠ [] := by
    intro hnil
    rw [hnil, List.append_nil] at hrest
    exact hne hrest
  have habove : above ≠ [] := by
    rintro rfl
    exact hdoc items (Option.some.inj hfollow)
  have hpart (part : List Char) (hmem : part ∈ above) : part ∈ path.toList.splitOn '.' := by
    rw [hraw]
    exact List.mem_append_left _ hmem
  obtain ⟨q, hq⟩ := exists_path_to_item habove
    (fun part hmem h => hindex (mem_part_of_splitOn_iff.mp ⟨part, hpart part hmem, h⟩).1)
    (fun part hmem h => (mem_part_of_splitOn_iff.mp ⟨part, hpart part hmem, h⟩).2 rfl)
  have hkept := hother q _ hq ?_
  · rw [Json.getField_eq, Json.getField_eq, hq, Option.bind_some, Option.bind_some, JsonDynamicNode.setPath, ← hrest,
      follow_set_index doc value hbelow 0, Json.follow_append, hfollow] at hkept
    cases items with
    | nil => exact hitems rfl
    | cons item items => cases hkept
  · rw [← hrest, List.map_append]
    cases hkeys : below.map String.ofList with
    | nil => exact absurd hkeys hbelow
    | cons key keys =>
      have hstep : PathStep.index 0 ≠ .key key := nofun
      exact (unrelated_append _ _ _).mpr (unrelated_of_head_ne hstep _ _)

/-- For every object, every path that `get_field` accepts and every value: set and delete follow the laws if and
only if the path has neither `$.` nor an index, and no list with items stands above its place. -/
theorem lensLaws_iff (fields : List (String × Json)) (path : String) (steps : List PathStep)
    (hsteps : pathSteps path = some steps) (value : Json) :
    LensLaws (.object fields) path steps value ↔ WritesWhereRead (.object fields) path := by
  constructor
  · intro h
    have hroot := h.unrooted hsteps
    have hindex := h.noIndex hsteps
    obtain rfl := Option.some.inj (hsteps.symm.trans (pathSteps_plain hroot hindex))
    exact ⟨hroot, hindex, h.noArray nofun hindex⟩
  · intro h
    obtain rfl := Option.some.inj (hsteps.symm.trans (pathSteps_plain h.unrooted h.noIndex))
    exact lensLaws_of_writesWhereRead h

end Laws

theorem nested_field_lawful :
    LensLaws (.object [("user", .object [("id", .number "7")])]) "user.name" [.key "user", .key "name"] (.string "Ann") := by
  refine (lensLaws_iff [("user", .object [("id", .number "7")])] "user.name" [.key "user", .key "name"] (by decide)
    (.string "Ann")).mpr ⟨by decide +kernel, by decide +kernel, ?_⟩
  rintro ⟨front, items, hpre, hne, hfollow, -⟩
  have hsplit : Json.splitPath "user.name" = ["user", "name"] := by decide
  rw [hsplit] at hpre hne
  cases front with
  | nil => cases hfollow
  | cons key front =>
    obtain ⟨rfl, hrest⟩ := List.cons_prefix_cons.mp hpre
    cases front with
    | nil => cases hfollow
    | cons next front =>
      obtain ⟨rfl, hnil⟩ := List.cons_prefix_cons.mp hrest
      rw [List.prefix_nil.mp hnil] at hne
      exact hne rfl

/-- A path with an index names an item when it is read, and a new field when it is set. -/
theorem item_not_set :
    pathSteps "items[0]" = some [.key "items", .index 0] ∧
      ¬ LensLaws (.object [("items", .array [.number "1"])]) "items[0]" [.key "items", .index 0] (.number "2") := by
  refine ⟨by decide, fun h => ?_⟩
  obtain ⟨out, hout, hset, -⟩ := h.set
  cases hout
  exact absurd hset (by decide)

end Xerv
