import Xerv.Core.Value
import Xerv.Lib.Template

/-!
# Selector expressions (`xerv-executor/src/linker/parser.rs`)

A template holds selectors such as `fraud_check.score`, each between a dollar sign with an
opening brace and a closing brace. `parse_all` counts braces to find where a selector ends.
The two nested loops of the source share one iterator and are one recursion here: the
second argument of `parseLoop` holds the depth and the expression while the inner one runs.
-/

namespace Xerv
open Xerv.Lib Xerv.Lib.Template

structure Selector where
  raw : String
  root : String
  path : List String
  deriving DecidableEq, Repr

/-- `XervError::SelectorSyntax`. -/
structure SelectorSyntax where
  selector : String
  cause : String
  deriving DecidableEq, Repr

/-- `format!` of an expression with its marks. -/
def selectorText (expr : String) : String := "$\x7b" ++ expr ++ "\x7d"

def Selector.new (root : String) (path : List String) : Selector where
  raw := if path = [] then selectorText root else selectorText (root ++ "." ++ ".".intercalate path)
  root := root
  path := path

namespace SelectorParser

def isValidIdentifier : List Char → Bool
  | [] => false
  | first :: rest =>
    if !first.isAlpha && first ≠ '_' then false else rest.all fun c => c.isAlphanum || c = '_'

def parseExpression (expr : List Char) : Except SelectorSyntax Selector :=
  let expr := trim expr
  if expr = [] then .error ⟨"", "Empty selector expression"⟩
  else
    match expr.splitOn '.' with
    | [] => .error ⟨String.ofList expr, "Invalid selector format"⟩
    | root :: path =>
      match (root :: path).find? fun part => !isValidIdentifier part with
      | some part => .error ⟨String.ofList expr, "Invalid identifier: " ++ String.ofList part⟩
      | none => .ok ⟨selectorText (String.ofList expr), String.ofList root, path.map String.ofList⟩

def unclosed (expr : List Char) : SelectorSyntax :=
  ⟨"$\x7b" ++ String.ofList expr ++ "...", "Unclosed selector expression"⟩

def parseLoop : List Char → Option (Int32 × List Char) → List Selector →
    Except SelectorSyntax (List Selector)
  | [], none, selectors => .ok selectors
  | [], some (depth, expr), selectors =>
    if depth ≠ 0 then .error (unclosed expr)
    else
      match parseExpression expr with
      | .error e => .error e
      | .ok selector => .ok (selectors ++ [selector])
  | '$' :: '\x7b' :: cs, none, selectors => parseLoop cs (some (1, [])) selectors
  | _ :: cs, none, selectors => parseLoop cs none selectors
  | c :: cs, some (depth, expr), selectors =>
    if c = '\x7b' then parseLoop cs (some (depth + 1, expr ++ [c])) selectors
    else if c = '\x7d' then
      if depth - 1 = 0 then
        match parseExpression expr with
        | .error e => .error e
        | .ok selector => parseLoop cs none (selectors ++ [selector])
      else parseLoop cs (some (depth - 1, expr ++ [c])) selectors
    else parseLoop cs (some (depth, expr ++ [c])) selectors

def parseAll (input : String) : Except SelectorSyntax (List Selector) := parseLoop input.toList none []

end SelectorParser

/-! ### The grammar of selectors -/

def AsciiLetter (c : Char) : Prop := ('A' ≤ c ∧ c ≤ 'Z') ∨ ('a' ≤ c ∧ c ≤ 'z')

def AsciiDigit (c : Char) : Prop := '0' ≤ c ∧ c ≤ '9'

/-- A letter or underscore, then letters, digits and underscores. -/
def IsIdentifier (s : List Char) : Prop :=
  ∃ first rest, s = first :: rest ∧ (AsciiLetter first ∨ first = '_') ∧
    ∀ c ∈ rest, AsciiLetter c ∨ AsciiDigit c ∨ c = '_'

/-- An identifier followed by dot-separated identifiers, with whitespace around them. -/
def IsSelectorBody (body : List Char) (selector : Selector) : Prop :=
  ∃ root path, IsIdentifier root ∧ (∀ part ∈ path, IsIdentifier part) ∧
    trim body = ['.'].intercalate (root :: path) ∧
    selector = ⟨selectorText (String.ofList (trim body)), String.ofList root, path.map String.ofList⟩

def selectorMarks : Marks Char where
  sigil := '$'
  opener := '\x7b'
  closer := '\x7d'
  opener_ne_sigil := by decide
  closer_ne_sigil := by decide
  closer_ne_opener := by decide

theorem isAlpha_iff (c : Char) : c.isAlpha = true ↔ AsciiLetter c := by
  have hupper : c.isUpper = true ↔ 'A' ≤ c ∧ c ≤ 'Z' := decide_eq_true_iff
  have hlower : c.isLower = true ↔ 'a' ≤ c ∧ c ≤ 'z' := by
    change (decide _ && decide _) = true ↔ _
    rw [Bool.and_eq_true, decide_eq_true_iff, decide_eq_true_iff]
    rfl
  change (c.isUpper || c.isLower) = true ↔ _
  rw [Bool.or_eq_true, hupper, hlower]
  rfl

theorem isAlphanum_iff (c : Char) : c.isAlphanum = true ↔ AsciiLetter c ∨ AsciiDigit c := by
  simp only [Char.isAlphanum, Bool.or_eq_true, isAlpha_iff, Char.isDigit, Bool.and_eq_true, decide_eq_true_eq,
    AsciiDigit, ge_iff_le]
  rfl

theorem isValidIdentifier_iff (s : List Char) : SelectorParser.isValidIdentifier s = true ↔ IsIdentifier s := by
  cases s with
  | nil => simp [SelectorParser.isValidIdentifier, IsIdentifier]
  | cons first rest =>
    have hfirst : (!first.isAlpha && decide (first ≠ '_')) = true ↔ ¬(AsciiLetter first ∨ first = '_') := by
      rw [← isAlpha_iff]
      simp
    have hrest : (rest.all fun c => c.isAlphanum || decide (c = '_')) = true ↔
        ∀ c ∈ rest, AsciiLetter c ∨ AsciiDigit c ∨ c = '_' := by
      simp only [List.all_eq_true, Bool.or_eq_true, isAlphanum_iff, decide_eq_true_eq, or_assoc]
    rw [SelectorParser.isValidIdentifier]
    by_cases hletter : AsciiLetter first ∨ first = '_'
    · rw [if_neg fun hbad => hfirst.mp hbad hletter, hrest]
      constructor
      · exact fun hall => ⟨first, rest, rfl, hletter, hall⟩
      · rintro ⟨_, _, heq, -, hall⟩
        obtain ⟨rfl, rfl⟩ := List.cons.inj heq
        exact hall
    · rw [if_pos (hfirst.mpr hletter)]
      refine iff_of_false Bool.false_ne_true ?_
      rintro ⟨_, _, heq, hletter', -⟩
      obtain ⟨rfl, rfl⟩ := List.cons.inj heq
      exact hletter hletter'

theorem IsIdentifier.char {s : List Char} (h : IsIdentifier s) {c : Char} (hc : c ∈ s) :
    AsciiLetter c ∨ AsciiDigit c ∨ c = '_' := by
  obtain ⟨first, rest, rfl, hfirst, hrest⟩ := h
  rcases List.mem_cons.mp hc with rfl | hc
  · exact hfirst.imp_right .inr
  · exact hrest c hc

theorem IsIdentifier.not_mem {s : List Char} (h : IsIdentifier s) {c : Char}
    (hc : ¬(AsciiLetter c ∨ AsciiDigit c ∨ c = '_')) : c ∉ s := fun hmem => hc (h.char hmem)

instance (c : Char) : Decidable (AsciiLetter c) :=
  inferInstanceAs (Decidable (('A' ≤ c ∧ c ≤ 'Z') ∨ ('a' ≤ c ∧ c ≤ 'z')))

instance (c : Char) : Decidable (AsciiDigit c) := inferInstanceAs (Decidable ('0' ≤ c ∧ c ≤ '9'))

theorem IsIdentifier.no_dot {s : List Char} (h : IsIdentifier s) : '.' ∉ s := h.not_mem (by decide)

/-! ### Expressions -/

theorem parts_valid_iff (parts : List (List Char)) :
    (parts.find? fun part => !SelectorParser.isValidIdentifier part) = none ↔ ∀ part ∈ parts, IsIdentifier part := by
  rw [List.find?_eq_none]
  simp only [Bool.not_eq_true', Bool.not_eq_false, isValidIdentifier_iff]

theorem trim_ne_nil {root : List Char} {path : List (List Char)} (hroot : IsIdentifier root) :
    ['.'].intercalate (root :: path) ≠ [] := by
  obtain ⟨first, rest, rfl, -, -⟩ := hroot
  cases path with
  | nil => simp
  | cons part path => simp [List.intercalate]

theorem parseExpression_iff (body : List Char) (selector : Selector) :
    SelectorParser.parseExpression body = .ok selector ↔ IsSelectorBody body selector := by
  unfold SelectorParser.parseExpression IsSelectorBody
  constructor
  · intro h
    dsimp only at h
    split at h
    · cases h
    · split at h
      · cases h
      · rename_i root path hparts
        split at h
        · cases h
        · rename_i hvalid
          cases h
          have hall := (parts_valid_iff _).mp hvalid
          refine ⟨root, path, hall root List.mem_cons_self,
            fun part hpart => hall part (List.mem_cons_of_mem _ hpart), ?_, rfl⟩
          rw [← hparts, List.intercalate_splitOn]
  · rintro ⟨root, path, hroot, hpath, htrim, rfl⟩
    have hall : ∀ part ∈ root :: path, IsIdentifier part := List.forall_mem_cons.mpr ⟨hroot, hpath⟩
    have hsplit : (trim body).splitOn '.' = root :: path := by
      rw [htrim]
      exact List.splitOn_intercalate _ (fun part hpart => (hall part hpart).no_dot) (List.cons_ne_nil _ _)
    have hne : trim body ≠ [] := htrim ▸ trim_ne_nil hroot
    dsimp only
    rw [if_neg hne, hsplit]
    dsimp only
    rw [(parts_valid_iff _).mpr hall]

theorem isSelectorBody_one (body : List Char) (selector selector' : Selector) (h : IsSelectorBody body selector)
    (h' : IsSelectorBody body selector') : selector = selector' := by
  have hok := ((parseExpression_iff body selector).mpr h).symm.trans ((parseExpression_iff body selector').mpr h')
  cases hok
  rfl

theorem mem_trim {body : List Char} {c : Char} (hc : c ∈ body) (hplain : isWhitespace c = false) :
    c ∈ trim body := by
  have hdrop (w : List Char) (hw : c ∈ w) : c ∈ w.dropWhile isWhitespace := by
    rw [← List.takeWhile_append_dropWhile (p := isWhitespace) (l := w)] at hw
    rcases List.mem_append.mp hw with hw | hw
    · rw [List.mem_takeWhile_imp hw] at hplain
      cases hplain
    · exact hw
  have hreverse := hdrop _ (List.mem_reverse.mpr (hdrop body hc))
  exact List.mem_reverse.mpr hreverse

theorem mem_intercalate {parts : List (List Char)} {c : Char} (hc : c ∈ ['.'].intercalate parts) :
    c = '.' ∨ ∃ part ∈ parts, c ∈ part := by
  induction parts with
  | nil => exact absurd hc List.not_mem_nil
  | cons part parts ih =>
    by_cases hnil : parts = []
    · rw [hnil, List.intercalate_singleton] at hc
      exact .inr ⟨part, List.mem_cons_self, hc⟩
    · rw [List.intercalate_cons_of_ne_nil hnil, List.append_assoc, List.mem_append, List.mem_append,
        List.mem_singleton] at hc
      rcases hc with hc | hc | hc
      · exact .inr ⟨part, List.mem_cons_self, hc⟩
      · exact .inl hc
      · obtain hdot | ⟨later, hlater, hin⟩ := ih hc
        · exact .inl hdot
        · exact .inr ⟨later, List.mem_cons_of_mem _ hlater, hin⟩

theorem IsSelectorBody.not_mem {body : List Char} {selector : Selector} (h : IsSelectorBody body selector)
    {c : Char} (hplain : isWhitespace c = false) (hdot : c ≠ '.')
    (hc : ¬(AsciiLetter c ∨ AsciiDigit c ∨ c = '_')) : c ∉ body := by
  intro hmem
  obtain ⟨root, path, hroot, hpath, htrim, -⟩ := h
  have htext := mem_trim hmem hplain
  rw [htrim] at htext
  obtain ⟨part, hpart, hin⟩ := (mem_intercalate htext).resolve_left hdot
  rcases List.mem_cons.mp hpart with rfl | hpart
  · exact hroot.not_mem hc hin
  · exact (hpath part hpart).not_mem hc hin

theorem body_no_marks (body : List Char) (selector : Selector) (h : IsSelectorBody body selector) :
    selectorMarks.opener ∉ body ∧ selectorMarks.closer ∉ body :=
  ⟨h.not_mem (by decide) (by decide) (by decide), h.not_mem (by decide) (by decide) (by decide)⟩

/-! ### `parse_all` -/

namespace SelectorParser

theorem parseLoop_char {c : Char} {cs : List Char} (hplain : ¬ selectorMarks.Opens (c :: cs))
    (selectors : List Selector) : parseLoop (c :: cs) none selectors = parseLoop cs none selectors := by
  rw [parseLoop]
  rintro cs' rfl rfl
  exact hplain ⟨cs', rfl⟩

theorem parseLoop_brace (text expr : List Char) (depth : Int32) (selectors out : List Selector)
    (hbrace : '\x7b' ∈ expr) : parseLoop text (some (depth, expr)) selectors ≠ .ok out := by
  have hexpr (selector : Selector) : parseExpression expr ≠ .ok selector := by
    intro h
    exact (body_no_marks _ _ ((parseExpression_iff _ _).mp h)).1 hbrace
  induction text generalizing expr depth with
  | nil =>
    rw [parseLoop]
    split
    · exact nofun
    · split
      · exact nofun
      · rename_i selector hok
        exact absurd hok (hexpr selector)
  | cons c cs ih =>
    rw [parseLoop]
    have hmore : '\x7b' ∈ expr ++ [c] := List.mem_append_left _ hbrace
    have hnext (depth : Int32) : parseLoop cs (some (depth, expr ++ [c])) selectors ≠ .ok out := by
      refine ih _ _ hmore fun selector h => ?_
      exact (body_no_marks _ _ ((parseExpression_iff _ _).mp h)).1 hmore
    split
    · exact hnext _
    · split
      · split
        · split
          · exact nofun
          · rename_i selector hok
            exact absurd hok (hexpr selector)
        · exact hnext _
      · exact hnext _

/-- Inside a selector. -/
theorem parseLoop_inside (text expr : List Char) (selectors out : List Selector) :
    parseLoop text (some (1, expr)) selectors = .ok out ↔
      ∃ body rest selector, text = body ++ '\x7d' :: rest ∧ '\x7b' ∉ body ∧ '\x7d' ∉ body ∧
        IsSelectorBody (expr ++ body) selector ∧ parseLoop rest none (selectors ++ [selector]) = .ok out := by
  induction text generalizing expr with
  | nil =>
    rw [parseLoop]
    simp
  | cons c cs ih =>
    rw [parseLoop]
    by_cases hopener : c = '\x7b'
    · subst hopener
      rw [if_pos rfl]
      refine iff_of_false (parseLoop_brace _ _ _ _ _ (by simp)) ?_
      rintro ⟨body, rest, selector, htext, hopen, -⟩
      cases body with
      | nil => exact absurd (List.cons.inj htext).1 (by decide)
      | cons d body => exact hopen (List.mem_cons.mpr (.inl (List.cons.inj htext).1))
    rw [if_neg hopener]
    by_cases hcloser : c = '\x7d'
    · subst hcloser
      rw [if_pos rfl, if_pos (by decide)]
      constructor
      · intro h
        split at h
        · cases h
        · rename_i selector hok
          refine ⟨[], cs, selector, rfl, List.not_mem_nil, List.not_mem_nil, ?_, h⟩
          rw [List.append_nil]
          exact (parseExpression_iff _ _).mp hok
      · rintro ⟨body, rest, selector, htext, -, hclose, hbody, hrest⟩
        cases body with
        | nil =>
          rw [List.append_nil] at hbody
          obtain ⟨-, rfl⟩ := List.cons.inj htext
          rw [(parseExpression_iff _ _).mpr hbody]
          exact hrest
        | cons d body => exact absurd (List.mem_cons.mpr (.inl (List.cons.inj htext).1)) hclose
    · rw [if_neg hcloser, ih]
      constructor
      · rintro ⟨body, rest, selector, rfl, hopen, hclose, hbody, hrest⟩
        refine ⟨c :: body, rest, selector, rfl, ?_, ?_, ?_, hrest⟩
        · exact fun hmem => (List.mem_cons.mp hmem).elim (fun h => hopener h.symm) hopen
        · exact fun hmem => (List.mem_cons.mp hmem).elim (fun h => hcloser h.symm) hclose
        · rwa [List.append_assoc] at hbody
      · rintro ⟨body, rest, selector, htext, hopen, hclose, hbody, hrest⟩
        cases body with
        | nil => exact absurd (List.cons.inj htext).1 hcloser
        | cons d body =>
          obtain ⟨rfl, rfl⟩ := List.cons.inj htext
          rw [List.mem_cons, not_or] at hopen hclose
          refine ⟨body, rest, selector, rfl, hopen.2, hclose.2, ?_, hrest⟩
          rw [List.append_assoc]
          exact hbody

/-- Outside of selectors the loop reads the text by its grammar. -/
theorem parseLoop_iff (text : List Char) (selectors out : List Selector) :
    parseLoop text none selectors = .ok out ↔
      ∃ pieces, Reads selectorMarks IsSelectorBody 0 text pieces ∧ out = selectors ++ holes pieces := by
  induction hlen : text.length using Nat.strong_induction_on generalizing text selectors with
  | _ len ih =>
    cases text with
    | nil =>
      simp only [reads_nil_iff, true_and, exists_eq_left, holes, List.append_nil]
      constructor
      · intro h
        cases h
        rfl
      · rintro rfl
        rfl
    | cons c cs =>
      by_cases hopens : selectorMarks.Opens (c :: cs)
      · obtain ⟨rest, heq⟩ := hopens
        obtain ⟨rfl, rfl⟩ := List.cons.inj heq
        change parseLoop rest (some (1, [])) selectors = .ok out ↔ _
        rw [parseLoop_inside]
        constructor
        · rintro ⟨body, later, selector, rfl, -, -, hbody, hrest⟩
          obtain ⟨pieces, hreads, rfl⟩ := (ih _ (by simp [← hlen]; omega) later _ rfl).mp hrest
          refine ⟨.hole selector :: pieces, .hole rfl hbody hreads, ?_⟩
          rw [List.append_assoc]
          rfl
        · rintro ⟨_, hreads, rfl⟩
          obtain ⟨body, later, selector, pieces, rfl, hbody, rfl, hlater⟩ | ⟨k, _, _, hk, -⟩ :=
            reads_opening_iff.mp hreads
          · obtain ⟨hopen, hclose⟩ := body_no_marks _ _ hbody
            refine ⟨body, later, selector, rfl, hopen, hclose, hbody, ?_⟩
            refine (ih _ (by simp [← hlen]; omega) later _ rfl).mpr ⟨pieces, hlater, ?_⟩
            rw [List.append_assoc]
            rfl
          · cases hk
      · rw [parseLoop_char hopens, ih _ (by simp [← hlen]) cs selectors rfl]
        constructor
        · rintro ⟨pieces, hreads, rfl⟩
          exact ⟨.char c :: pieces, .char hopens hreads, rfl⟩
        · rintro ⟨_, hreads, rfl⟩
          obtain ⟨pieces, rfl, hrest⟩ := (reads_char_iff hopens).mp hreads
          exact ⟨pieces, hrest, rfl⟩

theorem parseAll_iff (input : String) (selectors : List Selector) :
    parseAll input = .ok selectors ↔
      ∃ pieces, Reads selectorMarks IsSelectorBody 0 input.toList pieces ∧ selectors = holes pieces := by
  unfold parseAll
  rw [parseLoop_iff]
  rfl

end SelectorParser

/-! ### Selectors that are built -/

theorem identifier_range {c : Char} (hc : AsciiLetter c ∨ AsciiDigit c ∨ c = '_') :
    48 ≤ c.toNat ∧ c.toNat ≤ 122 := by
  rcases hc with (⟨hlow, hhigh⟩ | ⟨hlow, hhigh⟩) | ⟨hlow, hhigh⟩ | rfl
  · exact ⟨Nat.le_trans (by decide) hlow, Nat.le_trans hhigh (by decide)⟩
  · exact ⟨Nat.le_trans (by decide) hlow, Nat.le_trans hhigh (by decide)⟩
  · exact ⟨Nat.le_trans (by decide) hlow, Nat.le_trans hhigh (by decide)⟩
  · decide

theorem identifier_not_space {c : Char} (hc : AsciiLetter c ∨ AsciiDigit c ∨ c = '_') : isWhitespace c = false := by
  obtain ⟨hlow, hhigh⟩ := identifier_range hc
  unfold isWhitespace
  simp only [Bool.or_eq_false_iff, Bool.and_eq_false_iff, decide_eq_false_iff_not]
  omega

theorem trim_of_plain {text : List Char} (h : ∀ c ∈ text, isWhitespace c = false) : trim text = text := by
  have hdrop (w : List Char) (hw : ∀ c ∈ w, isWhitespace c = false) : w.dropWhile isWhitespace = w := by
    cases w with
    | nil => rfl
    | cons c w => exact List.dropWhile_cons_of_neg (by simp [hw c List.mem_cons_self])
  change ((text.dropWhile isWhitespace).reverse.dropWhile isWhitespace).reverse = text
  rw [hdrop text h, hdrop _ fun c hc => h c (List.mem_reverse.mp hc), List.reverse_reverse]

theorem trim_dotted {root : List Char} {path : List (List Char)} (hroot : IsIdentifier root)
    (hpath : ∀ part ∈ path, IsIdentifier part) :
    trim (['.'].intercalate (root :: path)) = ['.'].intercalate (root :: path) := by
  refine trim_of_plain fun c hc => ?_
  rcases mem_intercalate hc with rfl | ⟨part, hpart, hin⟩
  · decide
  · rcases List.mem_cons.mp hpart with rfl | hpart
    · exact identifier_not_space (hroot.char hin)
    · exact identifier_not_space ((hpath part hpart).char hin)

theorem new_raw (root : String) (path : List String) : (Selector.new root path).raw =
    selectorText (String.ofList (['.'].intercalate (root.toList :: path.map String.toList))) := by
  have hdotted (parts : List String) :
      String.ofList (['.'].intercalate (parts.map String.toList)) = ".".intercalate parts := by
    rw [← String.ofList_toList (s := ".".intercalate parts), String.toList_intercalate]
    rfl
  rw [← List.map_cons, hdotted]
  unfold Selector.new
  split
  · rename_i hnil
    rw [hnil, String.intercalate_singleton]
  · rename_i hne
    rw [String.intercalate_cons_of_ne_nil hne]

theorem isSelectorBody_new {root : String} {path : List String} (hroot : IsIdentifier root.toList)
    (hpath : ∀ part ∈ path, IsIdentifier part.toList) :
    IsSelectorBody (['.'].intercalate (root.toList :: path.map String.toList)) (Selector.new root path) := by
  have hparts : ∀ part ∈ path.map String.toList, IsIdentifier part := List.forall_mem_map.mpr hpath
  have htrim := trim_dotted hroot hparts
  refine ⟨root.toList, path.map String.toList, hroot, hparts, htrim, ?_⟩
  rw [htrim, ← new_raw]
  simp [Selector.new, Function.comp_def]

theorem reads_built (root : String) (path : List String) (before after : List Char)
    (hroot : IsIdentifier root.toList) (hpath : ∀ part ∈ path, IsIdentifier part.toList)
    (hbefore : selectorMarks.NoOpening before) (hafter : selectorMarks.NoOpening after) :
    Reads selectorMarks IsSelectorBody 0 (before ++ (Selector.new root path).raw.toList ++ after)
      (before.map Piece.char ++ .hole (Selector.new root path) :: after.map Piece.char) := by
  have hend : Reads selectorMarks IsSelectorBody 0 after (after.map Piece.char) := by
    have h := Reads.append_text (.nil : Reads selectorMarks IsSelectorBody 0 [] []) (by simp) hafter
    rwa [List.append_nil, List.append_nil] at h
  rw [List.append_assoc]
  refine Reads.append_text (.hole ?_ (isSelectorBody_new hroot hpath) hend) ?_ hbefore
  · rw [new_raw]
    simp [selectorText, selectorMarks]
  · rw [new_raw]
    simp [selectorText, selectorMarks]

/-- `parse_all` accepts exactly the templates: outside of selectors no opening begins, and every selector
is closed and its body, with whitespace around it, a sequence of identifiers and dots. The selectors it
returns are the bodies in order. A built selector in a text without openings is returned as it was built. -/
theorem parseAll_grammar :
    (∀ input selectors, SelectorParser.parseAll input = .ok selectors ↔
      ∃ pieces, Reads selectorMarks IsSelectorBody 0 input.toList pieces ∧ selectors = holes pieces) ∧
    ∀ (root : String) (path : List String) (before after : String), IsIdentifier root.toList →
      (∀ part ∈ path, IsIdentifier part.toList) → selectorMarks.NoOpening before.toList →
      selectorMarks.NoOpening after.toList →
      SelectorParser.parseAll (before ++ (Selector.new root path).raw ++ after) =
        .ok [Selector.new root path] := by
  refine ⟨SelectorParser.parseAll_iff, ?_⟩
  intro root path before after hroot hpath hbefore hafter
  have hreads := reads_built root path _ _ hroot hpath hbefore hafter
  rw [← String.toList_append, ← String.toList_append] at hreads
  refine (SelectorParser.parseAll_iff _ _).mpr ⟨_, hreads, ?_⟩
  rw [holes_append, holes, holes_text, holes_text]
  rfl

theorem parseAll_built_amount :
    SelectorParser.parseAll ("Total: " ++ (Selector.new "order" ["amount"]).raw ++ " EUR") =
      .ok [Selector.new "order" ["amount"]] :=
  parseAll_grammar.2 "order" ["amount"] "Total: " " EUR" ((isValidIdentifier_iff _).mp (by decide))
    (List.forall_mem_singleton.mpr ((isValidIdentifier_iff _).mp (by decide)))
    (noOpening_of_opener (by decide)) (noOpening_of_opener (by decide))

end Xerv
