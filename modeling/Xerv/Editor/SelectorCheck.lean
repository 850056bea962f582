import Xerv.Editor.Cycle
import Xerv.Linker.Parser

/-!
# The selector check of the editor (`xerv-wasm/src/lib.rs`)

`validate_selector` counts every brace behind the first `$\x7b` and asks of a selector that its text has a dot and
does not end with one. The engine counts the braces of selectors only and asks for identifiers.
-/

namespace Xerv.Editor
open Xerv.Lib.Template

/-- A string in the memory of a WebAssembly module, where no allocation is larger. -/
structure WasmString where
  text : String
  fits : text.utf8ByteSize < 2 ^ 31

structure SelectorScan where
  inSelector : Bool
  depth : Int32
  current : List Char
  errors : List String
  deriving DecidableEq, Repr

def scanStep (s : SelectorScan) (c : Char) : SelectorScan :=
  if c = '$' then s
  else if c = '\x7b' then { s with inSelector := true, depth := s.depth + 1, current := [] }
  else if c = '\x7d' ∧ s.inSelector then
    let s := { s with depth := s.depth - 1 }
    if s.depth = 0 then
      { s with
        inSelector := false
        errors :=
          if '.' ∉ s.current ∨ ['.'] <:+ s.current then s.errors ++ ["Selector must include a field reference"]
          else s.errors }
    else s
  else if s.inSelector then { s with current := s.current ++ [c] }
  else s

def validateSelector (expression : WasmString) : ValidationResult :=
  let errors :=
    if ['$', '\x7b'] <:+: expression.text.toList then
      let s := expression.text.toList.foldl scanStep ⟨false, 0, [], []⟩
      if s.depth ≠ 0 then s.errors ++ ["Unbalanced braces in selector"] else s.errors
    else []
  ⟨errors.isEmpty, errors, []⟩

/-! ### What the editor asks for -/

/-- The text behind the last opening brace, without dollar signs and closing braces. -/
def fieldText (body : List Char) : List Char :=
  (body.rtakeWhile fun c => c ≠ '\x7b').filter fun c => c ≠ '$' ∧ c ≠ '\x7d'

def FieldReference (body : List Char) : Prop := '.' ∈ fieldText body ∧ ¬['.'] <:+ fieldText body

/-- The texts of the selectors, each up to the brace that closes its opening one. -/
def SelectorBodies (text : List Char) (bodies : List (List Char)) : Prop :=
  ∃ pieces, Reads selectorMarks (fun body b => selectorMarks.Balanced body ∧ b = body) 0 text pieces ∧
    bodies = holes pieces

/-- No opening brace but those of selectors. -/
def BracesOpen (text : List Char) : Prop :=
  ∀ before after, text = before ++ '\x7b' :: after → before.getLast? = some '$'

theorem BracesOpen.tail {c : Char} {text : List Char} (h : BracesOpen (c :: text))
    (hplain : ¬ selectorMarks.Opens (c :: text)) : BracesOpen text := by
  rintro before after rfl
  have hlast := h (c :: before) after rfl
  cases before with
  | nil =>
    obtain rfl := Option.some.inj hlast
    exact absurd ⟨after, rfl⟩ hplain
  | cons d before =>
    rwa [List.getLast?_cons_cons] at hlast

theorem BracesOpen.behind {text rest : List Char} (h : BracesOpen (text ++ '\x7d' :: rest)) : BracesOpen rest := by
  rintro before after rfl
  have hlast := h (text ++ '\x7d' :: before) after (by simp)
  cases before with
  | nil =>
    rw [List.getLast?_append, List.getLast?_singleton] at hlast
    exact absurd (Option.some.inj hlast) (by decide)
  | cons d before =>
    rwa [List.getLast?_append, List.getLast?_cons_cons, List.getLast?_cons, Option.some_or, ← List.getLast?_cons]
      at hlast

theorem bracesOpen_selector {text : List Char} (h : '\x7b' ∉ text) : BracesOpen ('$' :: '\x7b' :: text) := by
  intro before after heq
  cases before with
  | nil => exact absurd (List.cons.inj heq).1 (by decide)
  | cons c before =>
    obtain ⟨rfl, hrest⟩ := List.cons.inj heq
    cases before with
    | nil => rfl
    | cons d before =>
      obtain ⟨-, rfl⟩ := List.cons.inj hrest
      simp at h

/-! ### The depth -/

theorem ofNat_succ (depth : ℕ) : Int32.ofNat (depth + 1) = Int32.ofNat depth + 1 := Int32.ofNat_add depth 1

theorem ofNat_succ_sub_one (depth : ℕ) : Int32.ofNat (depth + 1) - 1 = Int32.ofNat depth := by
  rw [Int32.ofNat_add]
  exact Int32.add_sub_cancel _ _

theorem ofNat_ne_zero {depth : ℕ} (hpos : depth ≠ 0) (hfits : depth < 2 ^ 31) : Int32.ofNat depth ≠ 0 := by
  intro hzero
  have hint := Int32.toInt_ofNat_of_lt hfits
  rw [hzero, Int32.toInt_zero] at hint
  exact hpos (Int.natCast_eq_zero.mp hint.symm)

/-! ### The scan -/

def keepChar (current : List Char) (c : Char) : List Char :=
  if c = '$' then current else if c = '\x7b' then [] else if c = '\x7d' then current else current ++ [c]

theorem fieldText_concat (body : List Char) (c : Char) : fieldText (body ++ [c]) = keepChar (fieldText body) c := by
  unfold fieldText keepChar
  rw [List.rtakeWhile_concat]
  by_cases hopen : c = '\x7b'
  · subst hopen
    rfl
  · rw [if_pos (decide_eq_true hopen), List.filter_append, if_neg hopen]
    by_cases hsigil : c = '$'
    · subst hsigil
      exact List.append_nil _
    · by_cases hclose : c = '\x7d'
      · subst hclose
        exact List.append_nil _
      · rw [if_neg hsigil, if_neg hclose]
        simp [hsigil, hclose]

theorem foldl_keepChar (body : List Char) : body.foldl keepChar [] = fieldText body := by
  induction body using List.reverseRecOn with
  | nil => rfl
  | append_singleton body c ih => rw [List.foldl_concat, ih, fieldText_concat]

theorem scanStep_opener (s : SelectorScan) :
    scanStep s '\x7b' = { s with inSelector := true, depth := s.depth + 1, current := [] } := rfl

theorem scanStep_closer {depth : ℕ} (hpos : depth ≠ 0) (hfits : depth < 2 ^ 31) (current : List Char)
    (errors : List String) : scanStep ⟨true, Int32.ofNat (depth + 1), current, errors⟩ '\x7d' =
      ⟨true, Int32.ofNat depth, current, errors⟩ := by
  unfold scanStep
  rw [if_neg (by decide), if_neg (by decide), if_pos ⟨rfl, rfl⟩]
  dsimp only
  rw [ofNat_succ_sub_one, if_neg (ofNat_ne_zero hpos hfits)]

/-- The closing brace of a selector. -/
theorem scanStep_close (current : List Char) (errors : List String) :
    scanStep ⟨true, 1, current, errors⟩ '\x7d' = ⟨false, 0, current,
      if '.' ∉ current ∨ ['.'] <:+ current then errors ++ ["Selector must include a field reference"] else errors⟩ := by
  unfold scanStep
  rw [if_neg (by decide), if_neg (by decide), if_pos ⟨rfl, rfl⟩]
  dsimp only
  rw [if_pos (by decide)]
  rfl

theorem scanStep_char {c : Char} (hopen : c ≠ '\x7b') (hclose : c ≠ '\x7d') (depth : Int32) (current : List Char)
    (errors : List String) :
    scanStep ⟨true, depth, current, errors⟩ c = ⟨true, depth, keepChar current c, errors⟩ := by
  by_cases hsigil : c = '$'
  · subst hsigil
    rfl
  · unfold scanStep keepChar
    rw [if_neg hsigil, if_neg hopen, if_neg fun h => hclose h.1, if_pos rfl, if_neg hsigil, if_neg hopen,
      if_neg hclose]

theorem scanStep_outside {c : Char} (hopen : c ≠ '\x7b') (depth : Int32) (current : List Char)
    (errors : List String) : scanStep ⟨false, depth, current, errors⟩ c = ⟨false, depth, current, errors⟩ := by
  have hout : ¬(c = '\x7d' ∧ false = true) := fun h => absurd h.2 Bool.false_ne_true
  unfold scanStep
  rw [if_neg hopen, if_neg hout, if_neg Bool.false_ne_true, ite_self]

/-- A part of a selector that does not close it. -/
theorem scan_body {body : List Char} {depth depth' : ℕ} (h : selectorMarks.nesting depth body = some depth')
    (hfits : depth + body.length + 1 < 2 ^ 31) (current : List Char) (errors : List String) :
    body.foldl scanStep ⟨true, Int32.ofNat (depth + 1), current, errors⟩ =
      ⟨true, Int32.ofNat (depth' + 1), body.foldl keepChar current, errors⟩ := by
  induction body generalizing depth current with
  | nil =>
    obtain rfl := Option.some.inj h
    rfl
  | cons c body ih =>
    rw [List.length_cons] at hfits
    rw [List.foldl_cons, List.foldl_cons]
    by_cases hopen : c = '\x7b'
    · subst hopen
      have hinner := (nesting_opener (m := selectorMarks) depth body).symm.trans h
      rw [scanStep_opener, ← ofNat_succ]
      exact ih hinner (by omega) []
    by_cases hclose : c = '\x7d'
    · subst hclose
      cases depth with
      | zero => cases (nesting_closer_zero (m := selectorMarks) body).symm.trans h
      | succ depth =>
        have houter := (nesting_closer (m := selectorMarks) depth body).symm.trans h
        rw [scanStep_closer (Nat.succ_ne_zero _) (by omega)]
        exact ih houter (by omega) current
    · have hsame := (nesting_char (m := selectorMarks) hopen hclose depth body).symm.trans h
      rw [scanStep_char hopen hclose]
      exact ih hsame (by omega) (keepChar current c)

def SelectorScan.Accepted (s : SelectorScan) : Prop := s.depth = 0 ∧ s.errors = []

theorem selectorBodies_nil (bodies : List (List Char)) : SelectorBodies [] bodies ↔ bodies = [] := by
  simp [SelectorBodies, reads_nil_iff, holes]

theorem selectorBodies_char {c : Char} {text : List Char} (hplain : ¬ selectorMarks.Opens (c :: text))
    (bodies : List (List Char)) : SelectorBodies (c :: text) bodies ↔ SelectorBodies text bodies := by
  unfold SelectorBodies
  constructor
  · rintro ⟨pieces, hreads, rfl⟩
    obtain ⟨pieces, rfl, hrest⟩ := (reads_char_iff hplain).mp hreads
    exact ⟨pieces, hrest, rfl⟩
  · rintro ⟨pieces, hreads, rfl⟩
    exact ⟨_, .char hplain hreads, rfl⟩

theorem selectorBodies_open {text : List Char} {depth : ℕ} (h : selectorMarks.nesting 0 text = some depth)
    (bodies : List (List Char)) : ¬ SelectorBodies ('$' :: '\x7b' :: text) bodies := by
  rintro ⟨pieces, hreads, -⟩
  obtain ⟨body, rest, -, -, rfl, ⟨hbody, -⟩, -⟩ | ⟨k, -, -, hk, -⟩ :=
    (reads_opening_iff (m := selectorMarks)).mp hreads
  · cases (nesting_closed hbody rest).symm.trans h
  · cases hk

theorem selectorBodies_closed {body : List Char} (h : selectorMarks.Balanced body) (rest : List Char)
    (bodies : List (List Char)) : SelectorBodies ('$' :: '\x7b' :: (body ++ '\x7d' :: rest)) bodies ↔
      ∃ later, SelectorBodies rest later ∧ bodies = body :: later := by
  constructor
  · rintro ⟨pieces, hreads, rfl⟩
    obtain ⟨body', rest', _, later, heq, ⟨hbody', rfl⟩, rfl, hlater⟩ | ⟨k, -, -, hk, -⟩ :=
      (reads_opening_iff (m := selectorMarks)).mp hreads
    · obtain rfl := h.cut hbody' heq
      obtain ⟨-, rfl⟩ := List.cons.inj (List.append_cancel_left heq)
      exact ⟨holes later, ⟨later, hlater, rfl⟩, rfl⟩
    · cases hk
  · rintro ⟨_, ⟨later, hlater, rfl⟩, rfl⟩
    exact ⟨.hole body :: later, .hole rfl ⟨h, rfl⟩ hlater, rfl⟩

theorem closing_errors (body : List Char) (errors : List String) (message : String) :
    (if '.' ∉ fieldText body ∨ ['.'] <:+ fieldText body then errors ++ [message] else errors) = [] ↔
      errors = [] ∧ FieldReference body := by
  unfold FieldReference
  split <;> rename_i h
  · simp only [List.append_eq_nil_iff, List.cons_ne_nil, and_false, false_iff]
    tauto
  · rw [not_or, not_not] at h
    exact (and_iff_left h).symm

/-- The texts with balanced selectors that refer to fields are those without errors. -/
theorem scan_accepted (text : List Char) (hbraces : BracesOpen text) (hfits : text.length < 2 ^ 31)
    (current : List Char) (errors : List String) :
    (text.foldl scanStep ⟨false, 0, current, errors⟩).Accepted ↔
      errors = [] ∧ ∃ bodies, SelectorBodies text bodies ∧ ∀ body ∈ bodies, FieldReference body := by
  induction hlen : text.length using Nat.strong_induction_on generalizing text current errors with
  | _ len ih =>
    cases text with
    | nil => simp [SelectorScan.Accepted, selectorBodies_nil]
    | cons c text =>
      rw [List.length_cons] at hfits hlen
      by_cases hopens : selectorMarks.Opens (c :: text)
      · obtain ⟨inner, heq⟩ := hopens
        obtain ⟨rfl, rfl⟩ := List.cons.inj heq
        rw [List.length_cons] at hfits hlen
        change (inner.foldl scanStep ⟨true, Int32.ofNat (0 + 1), [], errors⟩).Accepted ↔ _
        cases hdepth : selectorMarks.nesting 0 inner with
        | some depth =>
          rw [scan_body hdepth (by omega)]
          have hle := nesting_le hdepth
          refine iff_of_false (fun h => ofNat_ne_zero (Nat.succ_ne_zero depth) (by omega) h.1) ?_
          rintro ⟨-, bodies, hbodies, -⟩
          exact selectorBodies_open hdepth bodies hbodies
        | none =>
          obtain ⟨body, rest, rfl, hbody⟩ := nesting_none hdepth
          have hrest : BracesOpen rest := @BracesOpen.behind ('$' :: '\x7b' :: body) rest hbraces
          rw [List.length_append, List.length_cons] at hfits hlen
          rw [List.foldl_append, scan_body hbody (by omega), foldl_keepChar, List.foldl_cons]
          change (rest.foldl scanStep (scanStep ⟨true, 1, fieldText body, errors⟩ '\x7d')).Accepted ↔ _
          rw [scanStep_close, ih _ (by omega) rest hrest (by omega) _ _ rfl, closing_errors]
          constructor
          · rintro ⟨⟨hnone, hfield⟩, later, hlater, hall⟩
            refine ⟨hnone, body :: later, ?_, List.forall_mem_cons.mpr ⟨hfield, hall⟩⟩
            exact (selectorBodies_closed hbody rest _).mpr ⟨later, hlater, rfl⟩
          · rintro ⟨hnone, bodies, hbodies, hall⟩
            obtain ⟨later, hlater, rfl⟩ := (selectorBodies_closed hbody rest bodies).mp hbodies
            obtain ⟨hfield, hfields⟩ := List.forall_mem_cons.mp hall
            exact ⟨⟨hnone, hfield⟩, later, hlater, hfields⟩
      · have hopen : c ≠ '\x7b' := by
          rintro rfl
          cases hbraces [] text rfl
        rw [List.foldl_cons, scanStep_outside hopen, ih _ (by omega) text (hbraces.tail hopens) (by omega) _ _ rfl]
        simp only [selectorBodies_char hopens]

/-! ### Selectors of the engine -/

theorem fieldText_of_plain {body : List Char} (hsigil : '$' ∉ body) (hopen : '\x7b' ∉ body)
    (hclose : '\x7d' ∉ body) : fieldText body = body := by
  have hne {c d : Char} (hc : c ∈ body) (hd : d ∉ body) : c ≠ d := fun h => hd (h ▸ hc)
  unfold fieldText
  rw [List.rtakeWhile_eq_self_iff.mpr fun c hc => decide_eq_true (hne hc hopen)]
  exact List.filter_eq_self.mpr fun c hc => decide_eq_true ⟨hne hc hsigil, hne hc hclose⟩

theorem dotted_getLast {parts : List (List Char)} (h : ∀ part ∈ parts, IsIdentifier part) :
    (['.'].intercalate parts).getLast? ≠ some '.' := by
  induction parts with
  | nil => exact nofun
  | cons part parts ih =>
    have hpart := h part List.mem_cons_self
    have hparts : ∀ part ∈ parts, IsIdentifier part := fun later hlater => h later (List.mem_cons_of_mem _ hlater)
    cases parts with
    | nil =>
      rw [List.intercalate_singleton]
      exact fun hlast => hpart.no_dot (List.mem_of_getLast? hlast)
    | cons later parts =>
      have hne : ['.'].intercalate (later :: parts) ≠ [] := trim_ne_nil (hparts later List.mem_cons_self)
      rw [List.intercalate_cons_of_ne_nil (List.cons_ne_nil _ _), List.getLast?_append_of_ne_nil _ hne]
      exact ih hparts

theorem trim_concat (body : List Char) {c : Char} (hplain : isWhitespace c = false) :
    (trim (body ++ [c])).getLast? = some c := by
  have hnot : ¬ isWhitespace c = true := Bool.not_eq_true _ ▸ hplain
  have hdrop : ∃ w, (body ++ [c]).dropWhile isWhitespace = w ++ [c] := by
    rw [List.dropWhile_append]
    split
    · exact ⟨[], List.dropWhile_cons_of_neg hnot⟩
    · exact ⟨_, rfl⟩
  obtain ⟨w, hw⟩ := hdrop
  change (((body ++ [c]).dropWhile isWhitespace).rdropWhile isWhitespace).getLast? = _
  rw [hw, List.rdropWhile_concat_neg _ _ _ hnot, List.getLast?_concat]

theorem fieldReference_iff {body : List Char} {selector : Selector} (h : IsSelectorBody body selector) :
    FieldReference body ↔ selector.path ≠ [] := by
  have hplain : fieldText body = body :=
    fieldText_of_plain (h.not_mem (by decide) (by decide) (by decide)) (body_no_marks _ _ h).1 (body_no_marks _ _ h).2
  unfold FieldReference
  rw [hplain]
  obtain ⟨root, path, hroot, hpath, htrim, rfl⟩ := h
  rw [Ne, List.map_eq_nil_iff]
  constructor
  · rintro ⟨hdot, -⟩ rfl
    have hin := mem_trim hdot (by decide)
    rw [htrim, List.intercalate_singleton] at hin
    exact hroot.no_dot hin
  · intro hne
    refine ⟨?_, ?_⟩
    · have hin : '.' ∈ trim body := by
        rw [htrim, List.intercalate_cons_of_ne_nil hne]
        simp
      exact trimMatches_infix.subset hin
    · rintro ⟨w, rfl⟩
      refine dotted_getLast (List.forall_mem_cons.mpr ⟨hroot, hpath⟩) ?_
      rw [← htrim]
      exact trim_concat w (by decide)

theorem SelectorBodies.unique {text : List Char} {bodies bodies' : List (List Char)}
    (h : SelectorBodies text bodies) (h' : SelectorBodies text bodies') : bodies = bodies' := by
  obtain ⟨pieces, hreads, rfl⟩ := h
  obtain ⟨pieces', hreads', rfl⟩ := h'
  rw [hreads.unique_cut ?_ rfl hreads']
  rintro body body' rest rest' b b' ⟨hbody, rfl⟩ ⟨hbody', rfl⟩ heq
  have hsame := hbody.cut hbody' heq
  exact ⟨hsame, hsame⟩

/-- The engine reads the balanced bodies, each on its own. -/
theorem parseAll_fields_iff (input : String) :
    (∃ selectors, SelectorParser.parseAll input = .ok selectors ∧ ∀ selector ∈ selectors, selector.path ≠ []) ↔
      ∃ bodies, SelectorBodies input.toList bodies ∧ ∀ body ∈ bodies,
        FieldReference body ∧ ∃ selector, SelectorParser.parseExpression body = .ok selector := by
  simp only [SelectorParser.parseAll_iff, parseExpression_iff]
  constructor
  · rintro ⟨_, ⟨pieces, hreads, rfl⟩, hpaths⟩
    have hbalanced (body : List Char) (selector : Selector) (h : IsSelectorBody body selector) :
        ∃ b, (selectorMarks.Balanced body ∧ b = body) ∧ IsSelectorBody b selector :=
      ⟨body, ⟨balanced_of_plain (body_no_marks _ _ h).1 (body_no_marks _ _ h).2, rfl⟩, h⟩
    obtain ⟨bodies, hbodies, hall⟩ := hreads.map (R := fun selector body => IsSelectorBody body selector) hbalanced
    refine ⟨holes bodies, ⟨bodies, hbodies, rfl⟩, ?_⟩
    intro body hbody
    obtain ⟨selector, hselector, hparsed⟩ := hall body hbody
    exact ⟨(fieldReference_iff hparsed).mpr (hpaths selector hselector), selector, hparsed⟩
  · rintro ⟨_, ⟨pieces, hreads, rfl⟩, hall⟩
    have hparsed (body b : List Char) (h : (selectorMarks.Balanced body ∧ b = body) ∧
        FieldReference b ∧ ∃ selector, IsSelectorBody b selector) :
        ∃ selector, IsSelectorBody body selector ∧ selector.path ≠ [] := by
      obtain ⟨⟨-, rfl⟩, hfield, selector, hselector⟩ := h
      exact ⟨selector, hselector, (fieldReference_iff hselector).mp hfield⟩
    obtain ⟨selectors, hselectors, hpaths⟩ :=
      (reads_and_iff.mpr ⟨hreads, hall⟩).map (R := fun _ (selector : Selector) => selector.path ≠ []) hparsed
    refine ⟨holes selectors, ⟨selectors, hselectors, rfl⟩, ?_⟩
    intro selector hselector
    obtain ⟨-, -, hpath⟩ := hpaths selector hselector
    exact hpath

theorem length_le_size (text : List Char) : text.length ≤ (String.ofList text).utf8ByteSize := by
  induction text with
  | nil => exact Nat.zero_le _
  | cons c text ih =>
    have hsize := c.utf8Size_pos
    rw [← List.singleton_append, String.ofList_append, String.utf8ByteSize_append, ← String.singleton_eq_ofList,
      String.utf8ByteSize_singleton, List.length_append, List.length_singleton]
    omega

theorem WasmString.length_lt (expression : WasmString) : expression.text.toList.length < 2 ^ 31 := by
  have hsize := length_le_size expression.text.toList
  rw [String.ofList_toList] at hsize
  exact Nat.lt_of_le_of_lt hsize expression.fits

theorem validateSelector_iff (expression : WasmString)
    (h : selectorMarks.NoOpening expression.text.toList ∨ BracesOpen expression.text.toList) :
    (validateSelector expression).valid = true ↔
      ∃ bodies, SelectorBodies expression.text.toList bodies ∧ ∀ body ∈ bodies, FieldReference body := by
  unfold validateSelector
  dsimp only
  rw [List.isEmpty_iff]
  by_cases hopens : ['$', '\x7b'] <:+: expression.text.toList
  · have hbraces := h.resolve_left (not_not.mpr hopens)
    have hscan := scan_accepted expression.text.toList hbraces expression.length_lt [] []
    rw [if_pos hopens]
    simp only [true_and] at hscan
    rw [← hscan]
    unfold SelectorScan.Accepted
    split <;> rename_i hdepth
    · simp [hdepth]
    · rw [not_not] at hdepth
      exact (and_iff_right hdepth).symm
  · rw [if_neg hopens]
    have hreads : Reads selectorMarks (fun body b => selectorMarks.Balanced body ∧ b = body) 0
        (expression.text.toList ++ []) (expression.text.toList.map Piece.char ++ []) :=
      Reads.append_text .nil (by simp) hopens
    rw [List.append_nil, List.append_nil] at hreads
    refine iff_of_true rfl ⟨[], ⟨_, hreads, (holes_text _).symm⟩, ?_⟩
    exact fun _ hbody => absurd hbody List.not_mem_nil

/-- On texts without opening braces of their own, `validate_selector` accepts those whose selectors are closed, each
with a dot behind its last opening and not at its end. `parse_all` reads them with a field reference in every
selector exactly where, moreover, the text of each selector is accepted as an expression. -/
theorem validateSelector_agrees (expression : WasmString)
    (h : selectorMarks.NoOpening expression.text.toList ∨ BracesOpen expression.text.toList) :
    ((validateSelector expression).valid = true ↔
      ∃ bodies, SelectorBodies expression.text.toList bodies ∧ ∀ body ∈ bodies, FieldReference body) ∧
    ((∃ selectors, SelectorParser.parseAll expression.text = .ok selectors ∧
        ∀ selector ∈ selectors, selector.path ≠ []) ↔
      (validateSelector expression).valid = true ∧ ∀ bodies, SelectorBodies expression.text.toList bodies →
        ∀ body ∈ bodies, ∃ selector, SelectorParser.parseExpression body = .ok selector) := by
  have hvalid := validateSelector_iff expression h
  refine ⟨hvalid, ?_⟩
  rw [parseAll_fields_iff, hvalid]
  constructor
  · rintro ⟨bodies, hbodies, hall⟩
    refine ⟨⟨bodies, hbodies, fun body hbody => (hall body hbody).1⟩, ?_⟩
    intro bodies' hbodies' body hbody
    obtain rfl := hbodies.unique hbodies'
    exact (hall body hbody).2
  · rintro ⟨⟨bodies, hbodies, hfields⟩, hparsed⟩
    exact ⟨bodies, hbodies, fun body hbody => ⟨hfields body hbody, hparsed bodies hbodies body hbody⟩⟩

theorem validateSelector_agrees_order :
    ((validateSelector ⟨"$\x7border.amount\x7d EUR", by decide⟩).valid = true ↔
      ∃ bodies, SelectorBodies "$\x7border.amount\x7d EUR".toList bodies ∧ ∀ body ∈ bodies, FieldReference body) ∧
    ((∃ selectors, SelectorParser.parseAll "$\x7border.amount\x7d EUR" = .ok selectors ∧
        ∀ selector ∈ selectors, selector.path ≠ []) ↔
      (validateSelector ⟨"$\x7border.amount\x7d EUR", by decide⟩).valid = true ∧
        ∀ bodies, SelectorBodies "$\x7border.amount\x7d EUR".toList bodies →
          ∀ body ∈ bodies, ∃ selector, SelectorParser.parseExpression body = .ok selector) := by
  refine validateSelector_agrees ⟨"$\x7border.amount\x7d EUR", by decide⟩ (.inr ?_)
  exact @bracesOpen_selector "order.amount\x7d EUR".toList (by decide)

/-- The engine reads a selector without a path, which the editor refuses; the editor accepts one whose root is no
identifier. -/
theorem validateSelector_differs :
    ((validateSelector ⟨"$\x7border\x7d", by decide⟩).valid = false ∧
      ∃ selectors, SelectorParser.parseAll "$\x7border\x7d" = .ok selectors) ∧
    (validateSelector ⟨"$\x7b1a.b\x7d", by decide⟩).valid = true ∧
      ∀ selectors, SelectorParser.parseAll "$\x7b1a.b\x7d" ≠ .ok selectors := by
  have herror : SelectorParser.parseAll "$\x7b1a.b\x7d" = .error ⟨"1a.b", "Invalid identifier: 1a"⟩ := by
    decide
  refine ⟨⟨by decide, [Selector.new "order" []], by decide⟩, by decide, ?_⟩
  intro selectors h
  cases herror.symm.trans h

end Xerv.Editor
