import Xerv.Lib.Positions
import Xerv.Nodes.Switch

/-!
# Which conditions are read as they are written

A condition is a field reference, an operator and a literal, with blanks between them. Both nodes look for
the operators in a fixed order, each at its first occurrence in the whole text, and take what stands before
it where that passes for a field reference. So an operator that is tried earlier can cut the literal, and
operators in the reference can hide the one that is meant.
-/

namespace Xerv
open Xerv.Lib

/-- Characters, without the braces of the source in them. -/
inductive FieldRef where
  | braced (name : List Char)
  | rooted (path : List Char)
  | plain (name : List Char)
  deriving DecidableEq, Repr

inductive QuoteMark where
  | double | single
  deriving DecidableEq, Repr

def QuoteMark.char : QuoteMark → Char
  | .double => '"'
  | .single => '\''

inductive Literal where
  | quoted (mark : QuoteMark) (content : List Char)
  | bare (text : List Char)
  deriving DecidableEq, Repr

def isQuote (c : Char) : Bool := c = '"' || c = '\''

def plainChar {F : Type} (ops : ValueOps F) (c : Char) : Bool := ops.isAlphanumeric c || c = '_' || c = '.'

/-- What the Unicode tables say of the characters that the syntax uses. -/
structure PlainLetters {F : Type} (ops : ValueOps F) : Prop where
  blanks : ∀ c, isWhitespace c = true → ops.isAlphanumeric c = false
  signs : ∀ c ∈ ['>', '<', '=', '!', '$'], ops.isAlphanumeric c = false

namespace FieldRef

def text : FieldRef → List Char
  | braced name => '$' :: '\x7b' :: (name ++ ['\x7d'])
  | rooted path => '$' :: '.' :: path
  | plain name => name

def field : FieldRef → String
  | braced name => String.ofList name
  | rooted path => String.ofList path
  | plain name => String.ofList name

def Valid {F : Type} (ops : ValueOps F) : FieldRef → Prop
  | braced name => '\x7d' ∉ name
  | rooted path => ∀ c ∈ path.getLast?, isWhitespace c = false
  | plain name => name ≠ [] ∧ ∀ c ∈ name, plainChar ops c = true

end FieldRef

namespace Literal

def text : Literal → List Char
  | quoted mark content => mark.char :: (content ++ [mark.char])
  | bare text => text

def value : Literal → List Char
  | quoted _ content => content
  | bare text => text

def Valid : Literal → Prop
  | quoted _ _ => True
  | bare text => TrimmedBy isWhitespace text ∧ TrimmedBy isQuote text

def Kept : Literal → Prop
  | quoted .double content => TrimmedBy isQuote content
  | quoted .single content => TrimmedBy (· = '\'') content
  | bare _ => True

end Literal

/-- The literal is compared without its quotes. -/
def Operator.comparesText : Operator → Bool
  | .eq | .ne | .assign => true
  | _ => false

def Operator.triedBefore (op : Operator) : List Operator := SwitchNode.operators.takeWhile fun other => other ≠ op

def conditionText (ref : FieldRef) (op : Operator) (lit : Literal) : List Char :=
  ref.text ++ ' ' :: (op.text ++ ' ' :: lit.text)

def EndsInBrace (cs : List Char) : Prop := (cs.filter fun c => !isWhitespace c).getLast? = some '\x7d'

instance (cs : List Char) : Decidable (EndsInBrace cs) := inferInstanceAs (Decidable (_ = _))

/-- What stands before the first occurrence of another operator passes for a field reference. -/
def CutsAt (ref : FieldRef) (other : Operator) (lit : Literal) : Prop :=
  match ref with
  | .braced _ => ¬ other.text <:+: ref.text ∧
      ∃ before after, splitAtText other.text lit.text = some (before, after) ∧ EndsInBrace before
  | .rooted _ => other.text <:+: ref.text ∨ other.text <:+: lit.text
  | .plain _ => False

/-- The operator does not occur in the reference, no operator that is tried before it cuts the condition, and
the quotes are trimmed off alone. -/
structure Unambiguous (ref : FieldRef) (op : Operator) (lit : Literal) : Prop where
  notInRef : ¬ op.text <:+: ref.text
  notCut : ∀ other ∈ op.triedBefore, ¬ CutsAt ref other lit
  kept : op.comparesText = true → lit.Kept

/-- The condition is read as it is written. -/
structure ReadsAs (parse : List Char → Option (String × Operator × List Char)) (unquote : List Char → String)
    (ref : FieldRef) (op : Operator) (lit : Literal) : Prop where
  parsed : parse (conditionText ref op lit) = some (ref.field, op, lit.text)
  literal : op.comparesText = true → unquote lit.text = String.ofList lit.value

/-! ### Trimming -/

section Trim
variable {p : Char → Bool} {cs : List Char}

theorem rdropWhile_cons_of_neg {c : Char} (hc : p c = false) : (c :: cs).rdropWhile p = c :: cs.rdropWhile p := by
  induction cs using List.reverseRecOn with
  | nil => rw [List.rdropWhile_singleton, hc]; rfl
  | append_singleton cs d ih =>
    rw [← List.cons_append, List.rdropWhile_concat, List.rdropWhile_concat]
    split
    · exact ih
    · rfl

theorem trim_cons {c : Char} (hc : isWhitespace c = false) : trim (c :: cs) = c :: cs.rdropWhile isWhitespace := by
  unfold trim trimMatches
  rw [List.dropWhile_cons_of_neg (by simp [hc]), rdropWhile_cons_of_neg hc]

theorem mem_rdropWhile {c : Char} (hc : p c = false) (hmem : c ∈ cs) : c ∈ cs.rdropWhile p := by
  have hsplit : cs.rdropWhile p ++ cs.rtakeWhile p = cs := List.rdropWhile_append_rtakeWhile
  rw [← hsplit] at hmem
  rcases List.mem_append.mp hmem with hmem | hmem
  · exact hmem
  · cases hc.symm.trans (List.mem_rtakeWhile_imp hmem)

theorem brace_suffix_rdropWhile_iff : ['\x7d'] <:+ cs.rdropWhile isWhitespace ↔ EndsInBrace cs := by
  unfold EndsInBrace
  induction cs using List.reverseRecOn with
  | nil => simp
  | append_singleton cs c ih =>
    rw [List.rdropWhile_concat, List.filter_append]
    by_cases hc : isWhitespace c = true
    · simpa [hc] using ih
    · have hsuffix : ['\x7d'] <:+ cs ++ [c] ↔ c = '\x7d' := by
        constructor
        · rintro ⟨front, heq⟩
          exact (List.cons.inj (List.append_inj' heq rfl).2).1.symm
        · rintro rfl
          exact List.suffix_append cs _
      simpa [hc] using hsuffix

end Trim

/-! ### Field references -/

section References
variable {F : Type} {ops : ValueOps F}

/-- What passes for a field reference. -/
def Accepted (ops : ValueOps F) (s : List Char) : Prop :=
  (['$', '\x7b'] <+: s ∧ ['\x7d'] <:+ s) ∨ ['$', '.'] <+: s ∨ (s ≠ [] ∧ ∀ c ∈ s, plainChar ops c = true)

theorem parseFieldRef_eq_none_iff (s : List Char) :
    SwitchNode.parseFieldRef ops s = none ↔ ¬ Accepted ops (trim s) := by
  unfold SwitchNode.parseFieldRef Accepted
  dsimp only
  by_cases hbraced : ['$', '\x7b'] <+: trim s ∧ ['\x7d'] <:+ trim s
  · have htest : (['$', '\x7b'].isPrefixOf (trim s) && ['\x7d'].isSuffixOf (trim s)) = true := by
      rw [Bool.and_eq_true, List.isPrefixOf_iff_prefix, List.isSuffixOf_iff_suffix]
      exact hbraced
    rw [if_pos htest]
    exact iff_of_false (Option.some_ne_none _) fun hnot => hnot (.inl hbraced)
  · have htest : ¬ (['$', '\x7b'].isPrefixOf (trim s) && ['\x7d'].isSuffixOf (trim s)) = true := by
      rw [Bool.and_eq_true, List.isPrefixOf_iff_prefix, List.isSuffixOf_iff_suffix]
      exact hbraced
    rw [if_neg htest]
    by_cases hrooted : ['$', '.'] <+: trim s
    · rw [stripPrefix, if_pos (List.isPrefixOf_iff_prefix.mpr hrooted)]
      exact iff_of_false (Option.some_ne_none _) fun hnot => hnot (.inr (.inl hrooted))
    · rw [stripPrefix, if_neg fun h => hrooted (List.isPrefixOf_iff_prefix.mp h)]
      have hplain : ((trim s ≠ [] && (trim s).all fun c => ops.isAlphanumeric c || c = '_' || c = '.') = true) ↔
          (trim s ≠ [] ∧ ∀ c ∈ trim s, plainChar ops c = true) := by
        rw [Bool.and_eq_true, decide_eq_true_eq, List.all_eq_true]
        rfl
      dsimp only
      split
      · rename_i h
        exact iff_of_false (Option.some_ne_none _) fun hnot => hnot (.inr (.inr (hplain.mp h)))
      · rename_i h
        refine iff_of_true rfl ?_
        rintro (hpre | hpre | hall)
        · exact hbraced hpre
        · exact hrooted hpre
        · exact h (hplain.mpr hall)

theorem accepted_rooted (rest : List Char) : Accepted ops (trim ('$' :: '.' :: rest)) := by
  rw [trim_cons (by decide), rdropWhile_cons_of_neg (by decide)]
  exact .inr (.inl ⟨_, rfl⟩)

theorem parseFieldRef_rooted (rest : List Char) :
    SwitchNode.parseFieldRef ops ('$' :: '.' :: rest) = some (String.ofList (rest.rdropWhile isWhitespace)) := by
  unfold SwitchNode.parseFieldRef
  rw [trim_cons (by decide), rdropWhile_cons_of_neg (by decide)]
  rfl

variable (hletters : PlainLetters ops)
include hletters

theorem plainChar_sign {c : Char} (hc : c ∈ ['>', '<', '=', '!', '$']) : plainChar ops c = false := by
  have hletter := hletters.signs c hc
  unfold plainChar
  rw [hletter]
  simp only [List.mem_cons, List.not_mem_nil, or_false] at hc
  rcases hc with rfl | rfl | rfl | rfl | rfl
  all_goals rfl

theorem plainChar_blank {c : Char} (hc : isWhitespace c = true) : plainChar ops c = false := by
  have hletter := hletters.blanks c hc
  unfold plainChar
  rw [hletter, Bool.false_or, Bool.or_eq_false_iff, decide_eq_false_iff_not, decide_eq_false_iff_not]
  constructor
  · rintro rfl
    cases hc
  · rintro rfl
    cases hc

theorem visible_of_plainChar {c : Char} (hc : plainChar ops c = true) : isWhitespace c = false := by
  rw [← Bool.not_eq_true]
  intro h
  cases (plainChar_blank hletters h).symm.trans hc

theorem accepted_braced_iff (rest : List Char) :
    Accepted ops (trim ('$' :: '\x7b' :: rest)) ↔ EndsInBrace rest := by
  have hdollar : plainChar ops '$' = false := plainChar_sign hletters (by decide)
  have hbrace : ['\x7d'] <:+ '$' :: '\x7b' :: rest.rdropWhile isWhitespace ↔
      ['\x7d'] <:+ rest.rdropWhile isWhitespace := by
    rw [List.suffix_cons_iff, List.suffix_cons_iff]
    constructor
    · rintro (heq | heq | h)
      · cases heq
      · cases heq
      · exact h
    · exact fun h => .inr (.inr h)
  rw [trim_cons (by decide), rdropWhile_cons_of_neg (by decide), ← brace_suffix_rdropWhile_iff, ← hbrace]
  constructor
  · rintro (hboth | hpre | ⟨-, hall⟩)
    · exact hboth.2
    · cases (List.cons_prefix_cons.mp (List.cons_prefix_cons.mp hpre).2).1
    · cases hdollar.symm.trans (hall '$' List.mem_cons_self)
  · exact fun h => .inl ⟨⟨_, rfl⟩, h⟩

theorem not_accepted_plain {c : Char} (hc : plainChar ops c = true) {rest : List Char} {sign : Char}
    (hsign : sign ∈ ['>', '<', '=', '!']) (hmem : sign ∈ rest) : ¬ Accepted ops (trim (c :: rest)) := by
  have hblank := visible_of_plainChar hletters hc
  have hdollar : '$' ≠ c := by
    rintro rfl
    cases (plainChar_sign hletters (c := '$') (by decide)).symm.trans hc
  have hvisible : isWhitespace sign = false := by
    simp only [List.mem_cons, List.not_mem_nil, or_false] at hsign
    rcases hsign with rfl | rfl | rfl | rfl
    all_goals decide
  rw [trim_cons hblank]
  rintro (⟨hpre, -⟩ | hpre | ⟨-, hall⟩)
  · exact hdollar (List.cons_prefix_cons.mp hpre).1
  · exact hdollar (List.cons_prefix_cons.mp hpre).1
  · have hplain := hall sign (List.mem_cons_of_mem c (mem_rdropWhile hvisible hmem))
    have hnot := plainChar_sign hletters (List.mem_append_left ['$'] hsign)
    cases hnot.symm.trans hplain

end References

/-! ### Where the operators are found -/

namespace Operator

theorem text_ne_nil (op : Operator) : op.text ≠ [] := by
  cases op with
  | _ => exact List.cons_ne_nil _ _

theorem blank_not_mem (op : Operator) : ' ' ∉ op.text := by
  cases op with
  | _ => decide

theorem text_eq_cons (op : Operator) : ∃ sign rest, op.text = sign :: rest ∧ sign ∈ ['>', '<', '=', '!'] := by
  cases op with
  | _ => exact ⟨_, _, rfl, by decide⟩

theorem text_getLast (op : Operator) : (op.text.filter fun c => !isWhitespace c).getLast? ≠ some '\x7d' ∧
    (op.text.filter fun c => !isWhitespace c) ≠ [] := by
  cases op with
  | _ => decide

theorem not_infix_of_triedBefore {op other : Operator} (h : other ∈ op.triedBefore) : ¬ other.text <:+: op.text := by
  revert other
  cases op with
  | _ => decide

end Operator

section Split
variable (ref : FieldRef) (op : Operator) (lit : Literal)

/-- The operator is found where it is meant, unless it occurs in the reference. -/
theorem split_meant (h : ¬ op.text <:+: ref.text) :
    splitAtText op.text (conditionText ref op lit) = some (ref.text ++ [' '], ' ' :: lit.text) := by
  have hfirst : splitAtText op.text op.text = some ([], []) := by
    cases op with
    | _ => rfl
  unfold conditionText
  rw [splitAtText_append_cons op.blank_not_mem op.text_ne_nil, splitAtText_eq_none_iff.mpr h,
    splitAtText_append_cons op.blank_not_mem op.text_ne_nil, hfirst]
  rfl

theorem split_in_ref {other : Operator} {before after : List Char} (h : splitAtText other.text ref.text = some (before, after)) :
    splitAtText other.text (conditionText ref op lit) = some (before, after ++ ' ' :: (op.text ++ ' ' :: lit.text)) := by
  unfold conditionText
  rw [splitAtText_append_cons other.blank_not_mem other.text_ne_nil, h]

/-- Another operator that is neither in the reference nor in the one meant is looked for in the literal. -/
theorem split_in_literal {other : Operator} (href : ¬ other.text <:+: ref.text) (hop : ¬ other.text <:+: op.text) :
    splitAtText other.text (conditionText ref op lit) =
      (splitAtText other.text lit.text).map fun p => (ref.text ++ ' ' :: (op.text ++ ' ' :: p.1), p.2) := by
  unfold conditionText
  rw [splitAtText_append_cons other.blank_not_mem other.text_ne_nil, splitAtText_eq_none_iff.mpr href,
    splitAtText_append_cons other.blank_not_mem other.text_ne_nil, splitAtText_eq_none_iff.mpr hop]
  dsimp only
  rw [Option.map_map]
  rfl

end Split

theorem before_of_dollar {c : Char} {tail before after : List Char} (hc : c ∉ ['>', '<', '=', '!']) (op : Operator)
    (h : splitAtText op.text ('$' :: c :: tail) = some (before, after)) :
    ∃ rest, before = '$' :: c :: rest ∧ tail = rest ++ op.text ++ after := by
  have hwhole : '$' :: c :: tail = before ++ op.text ++ after := splitAtText_some h
  obtain ⟨sign, more, hsign, hmem⟩ := op.text_eq_cons
  rw [hsign] at hwhole
  cases before with
  | nil =>
    obtain ⟨rfl, -⟩ := List.cons.inj hwhole
    exact absurd hmem (by decide)
  | cons d before =>
    obtain ⟨rfl, hrest⟩ := List.cons.inj hwhole
    cases before with
    | nil => exact absurd ((List.cons.inj hrest).1 ▸ hmem) hc
    | cons e rest =>
      obtain ⟨rfl, htail⟩ := List.cons.inj hrest
      exact ⟨rest, rfl, by rw [hsign, htail]; rfl⟩

theorem no_brace_before {name rest after : List Char} (hname : '\x7d' ∉ name) (op : Operator)
    (h : name ++ ['\x7d'] = rest ++ op.text ++ after) : '\x7d' ∉ rest := by
  intro hbrace
  obtain ⟨front, back, rfl, hfront⟩ := List.eq_append_cons_of_mem hbrace
  have heq : name ++ '\x7d' :: [] = front ++ '\x7d' :: (back ++ op.text ++ after) := by
    rw [h]
    simp
  have hback := (append_cons_inj hname hfront heq).2
  simp [op.text_ne_nil] at hback

theorem findSome?_tagged {α : Type} {f : Operator → Option (String × Operator × α)}
    (htag : ∀ other r, f other = some r → r.2.1 = other) (op : Operator) (field : String) (rest : α) :
    SwitchNode.operators.findSome? f = some (field, op, rest) ↔
      f op = some (field, op, rest) ∧ ∀ other ∈ op.triedBefore, f other = none := by
  constructor
  · intro h
    obtain ⟨front, other, back, hsplit, hother, hfront⟩ := List.findSome?_eq_some_iff.mp h
    obtain rfl : op = other := htag other _ hother
    refine ⟨hother, fun other hmem => hfront other ?_⟩
    have hnot : ∀ other ∈ front, decide (other ≠ op) = true := by
      intro other hin
      refine decide_eq_true ?_
      rintro rfl
      cases (hfront other hin).symm.trans hother
    have hbefore : op.triedBefore = front := by
      unfold Operator.triedBefore
      rw [hsplit, List.takeWhile_append_of_pos hnot, List.takeWhile_cons_of_neg (by simp), List.append_nil]
    rw [← hbefore]
    exact hmem
  · rintro ⟨hop, hbefore⟩
    refine List.findSome?_eq_some_iff.mpr ⟨op.triedBefore, op,
      (SwitchNode.operators.dropWhile fun other => other ≠ op).tail, ?_, hop, hbefore⟩
    unfold Operator.triedBefore
    cases op with
    | _ => decide

/-! ### The comparison that is found -/

section Search
variable {F : Type} {ops : ValueOps F} (hletters : PlainLetters ops) {ref : FieldRef} {op : Operator} {lit : Literal}

/-- One round of the search. -/
def tryOperator (ops : ValueOps F) (expr : List Char) (op : Operator) : Option (String × Operator × List Char) :=
  match splitAtText op.text expr with
  | some (lhs, rhs) => (SwitchNode.parseFieldRef ops (trim lhs)).map fun field => (field, op, trim rhs)
  | none => none

theorem tryOperator_tag (expr : List Char) (other : Operator) (r : String × Operator × List Char)
    (h : tryOperator ops expr other = some r) : r.2.1 = other := by
  unfold tryOperator at h
  split at h
  · obtain ⟨field, -, rfl⟩ := Option.map_eq_some_iff.mp h
    rfl
  · cases h

theorem tryOperator_eq_none_iff {expr lhs rhs : List Char} (h : splitAtText op.text expr = some (lhs, rhs)) :
    tryOperator ops expr op = none ↔ ¬ Accepted ops (trim lhs) := by
  unfold tryOperator
  rw [h]
  dsimp only
  rw [Option.map_eq_none_iff, parseFieldRef_eq_none_iff, trim_trim]

theorem endsInBrace_behind_operator (front : List Char) (op : Operator) (rest : List Char) :
    EndsInBrace (front ++ ' ' :: (op.text ++ ' ' :: rest)) ↔ EndsInBrace rest := by
  have hblank : isWhitespace ' ' = true := by decide
  obtain ⟨hlast, hne⟩ := op.text_getLast
  unfold EndsInBrace
  rw [List.filter_append, List.filter_cons_of_neg (by simp [hblank]), List.filter_append,
    List.filter_cons_of_neg (by simp [hblank]), List.getLast?_append, List.getLast?_append]
  cases hrest : (rest.filter fun c => !isWhitespace c).getLast? with
  | some c => rfl
  | none =>
    rw [List.getLast?_eq_some_getLast hne] at hlast ⊢
    exact iff_of_false hlast nofun

theorem no_sign_in_plain (hletters : PlainLetters ops) {name : List Char} (hname : ∀ c ∈ name, plainChar ops c = true)
    (op : Operator) : ¬ op.text <:+: name := by
  intro hoccurs
  obtain ⟨sign, rest, hsign, hmem⟩ := op.text_eq_cons
  rw [hsign] at hoccurs
  have hplain := hname sign (hoccurs.subset List.mem_cons_self)
  cases (plainChar_sign hletters (List.mem_append_left ['$'] hmem)).symm.trans hplain

theorem not_cutsAt_of_absent {other : Operator} (href : ¬ other.text <:+: ref.text)
    (hlit : splitAtText other.text lit.text = none) : ¬ CutsAt ref other lit := by
  intro hcut
  cases ref with
  | braced name =>
    obtain ⟨-, before, after, hfound, -⟩ := hcut
    cases hlit.symm.trans hfound
  | rooted path => exact hcut.elim href (splitAtText_eq_none_iff.mp hlit)
  | plain name => exact hcut

include hletters

theorem accepted_in_ref_iff (hvalid : ref.Valid ops) {other : Operator} (href : other.text <:+: ref.text)
    {before after : List Char} (hsplit : splitAtText other.text ref.text = some (before, after)) :
    Accepted ops (trim before) ↔ CutsAt ref other lit := by
  cases ref with
  | braced name =>
    obtain ⟨rest, rfl, htail⟩ := before_of_dollar (by decide) other hsplit
    rw [accepted_braced_iff hletters]
    refine iff_of_false (fun hend => ?_) fun hcut => hcut.1 href
    have hmem := List.mem_of_getLast? hend
    exact no_brace_before hvalid other htail (List.mem_of_mem_filter hmem)
  | rooted path =>
    obtain ⟨rest, rfl, -⟩ := before_of_dollar (by decide) other hsplit
    exact iff_of_true (accepted_rooted rest) (.inl href)
  | plain name => exact absurd href (no_sign_in_plain hletters hvalid.2 other)

theorem accepted_in_literal_iff (hvalid : ref.Valid ops) {other : Operator} (href : ¬ other.text <:+: ref.text)
    {before after : List Char} (hlit : splitAtText other.text lit.text = some (before, after)) :
    Accepted ops (trim (ref.text ++ ' ' :: (op.text ++ ' ' :: before))) ↔ CutsAt ref other lit := by
  cases ref with
  | braced name =>
    refine (accepted_braced_iff hletters (name ++ ['\x7d'] ++ ' ' :: (op.text ++ ' ' :: before))).trans ?_
    rw [endsInBrace_behind_operator]
    constructor
    · exact fun hend => ⟨href, before, after, hlit, hend⟩
    · rintro ⟨-, before', after', hfound, hend⟩
      cases hlit.symm.trans hfound
      exact hend
  | rooted path =>
    refine iff_of_true (accepted_rooted _) (.inr ?_)
    rw [splitAtText_some hlit]
    exact List.infix_append before other.text after
  | plain name =>
    obtain ⟨hne, hall⟩ := hvalid
    obtain ⟨c, tail, rfl⟩ := List.exists_cons_of_ne_nil hne
    obtain ⟨sign, rest, hsign, hmem⟩ := op.text_eq_cons
    refine iff_of_false (not_accepted_plain hletters (hall c List.mem_cons_self) hmem ?_) not_false
    rw [hsign]
    simp

/-- The search passes over another operator if and only if that does not cut the condition. -/
theorem tryOperator_other_iff (hvalid : ref.Valid ops) {other : Operator} (hop : ¬ other.text <:+: op.text) :
    tryOperator ops (conditionText ref op lit) other = none ↔ ¬ CutsAt ref other lit := by
  by_cases href : other.text <:+: ref.text
  · obtain ⟨⟨before, after⟩, hsplit⟩ := Option.ne_none_iff_exists'.mp
      (fun hnone => splitAtText_eq_none_iff.mp hnone href)
    rw [tryOperator_eq_none_iff (split_in_ref ref op lit hsplit)]
    exact not_congr (accepted_in_ref_iff hletters hvalid href hsplit)
  · have hsplit := split_in_literal ref op lit href hop
    cases hlit : splitAtText other.text lit.text with
    | none =>
      rw [hlit] at hsplit
      have hnone : tryOperator ops (conditionText ref op lit) other = none := by
        unfold tryOperator
        rw [hsplit]
        rfl
      exact iff_of_true hnone (not_cutsAt_of_absent href hlit)
    | some p =>
      rw [hlit, Option.map_some] at hsplit
      rw [tryOperator_eq_none_iff hsplit]
      exact not_congr (accepted_in_literal_iff hletters hvalid href hlit)

theorem text_trimmed (hvalid : ref.Valid ops) : trim (ref.text ++ [' ']) = ref.text := by
  have hlast {c : Char} {tail : List Char} (hc : isWhitespace c = false)
      (htail : tail.rdropWhile isWhitespace = tail) : trim (c :: tail ++ [' ']) = c :: tail := by
    rw [List.cons_append, trim_cons hc, List.rdropWhile_concat_pos _ _ _ (by decide), htail]
  have hplain {c : Char} (hc : plainChar ops c = true) := visible_of_plainChar hletters hc
  cases ref with
  | braced name =>
    refine hlast (by decide) ?_
    rw [← List.cons_append, List.rdropWhile_concat_neg _ _ _ (by decide)]
  | rooted path =>
    refine hlast (by decide) ?_
    rw [rdropWhile_cons_of_neg (by decide), List.rdropWhile_eq_self_iff.mpr fun hne hblank => ?_]
    have hnot := hvalid _ (List.getLast?_eq_some_getLast hne)
    cases hnot.symm.trans hblank
  | plain name =>
    obtain ⟨hne, hall⟩ := hvalid
    obtain ⟨c, tail, rfl⟩ := List.exists_cons_of_ne_nil hne
    refine hlast (hplain (hall c List.mem_cons_self)) (List.rdropWhile_eq_self_iff.mpr fun hne hblank => ?_)
    cases (hplain (hall _ (List.mem_cons_of_mem c (List.getLast_mem hne)))).symm.trans hblank

theorem text_eq_cons (hvalid : ref.Valid ops) : ∃ c tail, ref.text = c :: tail ∧ isWhitespace c = false := by
  cases ref with
  | braced name => exact ⟨'$', _, rfl, by decide⟩
  | rooted path => exact ⟨'$', _, rfl, by decide⟩
  | plain name =>
    obtain ⟨c, tail, rfl⟩ := List.exists_cons_of_ne_nil hvalid.1
    exact ⟨c, tail, rfl, visible_of_plainChar hletters (hvalid.2 c List.mem_cons_self)⟩

theorem parseFieldRef_text (hvalid : ref.Valid ops) : SwitchNode.parseFieldRef ops ref.text = some ref.field := by
  have htrim : trim ref.text = ref.text := by
    rw [← text_trimmed hletters hvalid, trim_trim]
  unfold SwitchNode.parseFieldRef
  dsimp only
  rw [htrim]
  cases ref with
  | braced name =>
    have hsuffix : ['\x7d'].isSuffixOf ('$' :: '\x7b' :: (name ++ ['\x7d'])) = true :=
      List.isSuffixOf_iff_suffix.mpr ⟨'$' :: '\x7b' :: name, rfl⟩
    have hprefix : ['$', '\x7b'].isPrefixOf ('$' :: '\x7b' :: (name ++ ['\x7d'])) = true :=
      List.isPrefixOf_iff_prefix.mpr ⟨name ++ ['\x7d'], rfl⟩
    change (if (_ && _) = true then some (String.ofList (name ++ ['\x7d']).dropLast) else _) = _
    rw [FieldRef.text, hsuffix, hprefix, List.dropLast_concat]
    rfl
  | rooted path => rfl
  | plain name =>
    obtain ⟨hne, hall⟩ := hvalid
    have hdollar : '$' ∉ name := by
      intro hmem
      cases (plainChar_sign hletters (by decide)).symm.trans (hall '$' hmem)
    have hfront (c : Char) : ['$', c].isPrefixOf name = false := by
      rw [← Bool.not_eq_true, List.isPrefixOf_iff_prefix]
      exact fun hpre => hdollar (hpre.subset List.mem_cons_self)
    have hplain : (name ≠ [] && name.all fun c => ops.isAlphanumeric c || c = '_' || c = '.') = true := by
      rw [Bool.and_eq_true, decide_eq_true_eq, List.all_eq_true]
      exact ⟨hne, hall⟩
    rw [FieldRef.text, hfront, stripPrefix, hfront, Bool.false_and, if_neg Bool.false_ne_true]
    exact if_pos hplain

omit hletters in
theorem literal_trimmed (hlit : lit.Valid) : trim (' ' :: lit.text) = lit.text := by
  have hblank : trim (' ' :: lit.text) = trim lit.text := by
    unfold trim trimMatches
    rw [List.dropWhile_cons_of_pos (by decide)]
  rw [hblank]
  refine trimMatches_eq_self ?_
  cases lit with
  | quoted mark content =>
    have hmark : isWhitespace mark.char = false := by
      cases mark with
      | _ => decide
    constructor
    · rintro c ⟨⟩
      exact hmark
    · intro c hc
      rw [Literal.text, ← List.cons_append, List.getLast?_concat] at hc
      obtain rfl := Option.some.inj hc
      exact hmark
  | bare text => exact hlit.1

theorem tryOperator_meant_iff (hvalid : ref.Valid ops) (hlit : lit.Valid) :
    tryOperator ops (conditionText ref op lit) op = some (ref.field, op, lit.text) ↔ ¬ op.text <:+: ref.text := by
  constructor
  · intro h hoccurs
    obtain ⟨⟨before, after⟩, hsplit⟩ := Option.ne_none_iff_exists'.mp
      (fun hnone => splitAtText_eq_none_iff.mp hnone hoccurs)
    cases ref with
    | braced name =>
      obtain ⟨rest, rfl, htail⟩ := before_of_dollar (by decide) op hsplit
      have hrejected : ¬ Accepted ops (trim ('$' :: '\x7b' :: rest)) := by
        rw [accepted_braced_iff hletters]
        exact fun hend =>
          no_brace_before hvalid op htail (List.mem_of_mem_filter (List.mem_of_getLast? hend))
      have hnone := (tryOperator_eq_none_iff (split_in_ref _ op lit hsplit)).mpr hrejected
      cases hnone.symm.trans h
    | rooted path =>
      obtain ⟨rest, rfl, htail⟩ := before_of_dollar (by decide) op hsplit
      unfold tryOperator at h
      rw [split_in_ref _ op lit hsplit] at h
      obtain ⟨field, hfield, heq⟩ := Option.map_eq_some_iff.mp h
      have hshort : field = String.ofList (rest.rdropWhile isWhitespace) := by
        rw [trim_cons (by decide), rdropWhile_cons_of_neg (by decide), parseFieldRef_rooted] at hfield
        rw [← Option.some.inj hfield, List.rdropWhile_idempotent]
      obtain rfl : field = String.ofList path := congrArg Prod.fst heq
      have hlen := congrArg List.length (String.ofList_inj.mp hshort)
      have hle := (List.rdropWhile_prefix isWhitespace rest).length_le
      have hpos := List.length_pos_iff.mpr op.text_ne_nil
      rw [htail, List.length_append, List.length_append] at hlen
      omega
    | plain name => exact no_sign_in_plain hletters hvalid.2 op hoccurs
  · intro h
    unfold tryOperator
    rw [split_meant ref op lit h]
    dsimp only
    rw [text_trimmed hletters hvalid, parseFieldRef_text hletters hvalid, literal_trimmed hlit]
    rfl

end Search

/-! ### Quotes -/

theorem TrimmedBy.or {cs : List Char} (h : TrimmedBy (· = '"') cs) (h' : TrimmedBy (· = '\'') cs) :
    TrimmedBy isQuote cs := by
  unfold isQuote
  constructor
  · intro c hc
    rw [Bool.or_eq_false_iff]
    exact ⟨h.1 c hc, h'.1 c hc⟩
  · intro c hc
    rw [Bool.or_eq_false_iff]
    exact ⟨h.2 c hc, h'.2 c hc⟩

theorem trimmedBy_isQuote_iff {cs : List Char} :
    TrimmedBy isQuote cs ↔ TrimmedBy (· = '"') cs ∧ TrimmedBy (· = '\'') cs := by
  refine ⟨fun h => ⟨⟨fun c hc => ?_, fun c hc => ?_⟩, ⟨fun c hc => ?_, fun c hc => ?_⟩⟩, fun h => h.1.or h.2⟩
  · exact (Bool.or_eq_false_iff.mp (h.1 c hc)).1
  · exact (Bool.or_eq_false_iff.mp (h.2 c hc)).1
  · exact (Bool.or_eq_false_iff.mp (h.1 c hc)).2
  · exact (Bool.or_eq_false_iff.mp (h.2 c hc)).2

theorem trimMatches_marked {p : Char → Bool} {mark : Char} (hmark : p mark = true) (content : List Char) :
    trimMatches p (mark :: (content ++ [mark])) = trimMatches p content := by
  unfold trimMatches
  rw [List.dropWhile_cons_of_pos hmark, List.dropWhile_append]
  cases hrest : content.dropWhile p with
  | nil => simp [hmark]
  | cons c rest => 
    rw [List.isEmpty_cons, if_neg Bool.false_ne_true, List.rdropWhile_concat_pos _ _ _ hmark]

theorem trimMatches_both_iff (content : List Char) :
    trimMatches (· = '\'') (trimMatches (· = '"') content) = content ↔ TrimmedBy isQuote content := by
  rw [trimmedBy_isQuote_iff]
  constructor
  · intro h
    have hinner : trimMatches (· = '"') content = content := by
      refine trimMatches_infix.eq_of_length (Nat.le_antisymm trimMatches_infix.length_le ?_)
      exact (congrArg List.length h).symm.trans_le trimMatches_infix.length_le
    rw [hinner] at h
    exact ⟨trimMatches_eq_self_iff.mp hinner, trimMatches_eq_self_iff.mp h⟩
  · rintro ⟨hdouble, hsingle⟩
    rw [trimMatches_eq_self hdouble, trimMatches_eq_self hsingle]

theorem stripQuotes_iff {lit : Literal} (hlit : lit.Valid) :
    SwitchNode.stripQuotes lit.text = String.ofList lit.value ↔ lit.Kept := by
  unfold SwitchNode.stripQuotes
  rw [String.ofList_inj]
  cases lit with
  | quoted mark content =>
    cases mark with
    | double =>
      change trimMatches _ (trimMatches _ ('"' :: (content ++ ['"']))) = content ↔ _
      rw [trimMatches_marked (by decide)]
      exact trimMatches_both_iff content
    | single =>
      have houter : TrimmedBy (· = '"') ('\'' :: (content ++ ['\''])) := by
        constructor
        · rintro c ⟨⟩
          decide
        · intro c hc
          rw [← List.cons_append, List.getLast?_concat] at hc
          obtain rfl := Option.some.inj hc
          decide
      change trimMatches _ (trimMatches _ ('\'' :: (content ++ ['\'']))) = content ↔ _
      rw [trimMatches_eq_self houter, trimMatches_marked (by decide)]
      exact trimMatches_eq_self_iff
  | bare text => exact iff_of_true ((trimMatches_both_iff text).mpr hlit.2) trivial

/-! ### Reading conditions -/

section Reading
variable {F : Type} {ops : ValueOps F} (hletters : PlainLetters ops) {ref : FieldRef} (op : Operator) {lit : Literal}
include hletters

theorem parseComparison_iff (hvalid : ref.Valid ops) (hlit : lit.Valid) :
    SwitchNode.parseComparison ops (conditionText ref op lit) = some (ref.field, op, lit.text) ↔
      ¬ op.text <:+: ref.text ∧ ∀ other ∈ op.triedBefore, ¬ CutsAt ref other lit := by
  change SwitchNode.operators.findSome? (tryOperator ops (conditionText ref op lit)) = _ ↔ _
  rw [findSome?_tagged (tryOperator_tag _), tryOperator_meant_iff hletters hvalid hlit]
  refine and_congr_right fun _ => forall₂_congr fun other hother => ?_
  exact tryOperator_other_iff hletters hvalid (Operator.not_infix_of_triedBefore hother)

theorem loop_parseComparison_condition (hvalid : ref.Valid ops) (href : ref.text ≠ iterationText) :
    LoopNode.parseComparison ops (conditionText ref op lit) =
      SwitchNode.parseComparison ops (conditionText ref op lit) := by
  refine loop_parseComparison ops fun other lhs rhs hsplit htrim => href ?_
  have hwhole := splitAtText_some hsplit
  obtain ⟨c, tail, htext, hc⟩ := text_eq_cons hletters hvalid
  have hlhs : iterationText <+: lhs := by
    cases lhs with
    | nil => cases htrim
    | cons d lhs =>
      unfold conditionText at hwhole
      rw [htext] at hwhole
      obtain ⟨rfl, -⟩ := List.cons.inj hwhole
      rw [← htrim, trim_cons hc]
      exact List.cons_prefix_cons.mpr ⟨rfl, List.rdropWhile_prefix _ _⟩
  have hcondition : iterationText <+: ref.text ++ ' ' :: (op.text ++ ' ' :: lit.text) := by
    refine hlhs.trans ⟨other.text ++ rhs, ?_⟩
    rw [← List.append_assoc]
    exact hwhole.symm
  have hpre : iterationText <+: ref.text := prefix_of_prefix_append_cons (by decide) hcondition
  have hiteration : iterationText = '$' :: '\x7b' :: ("iteration".toList ++ ['\x7d']) := by decide
  rw [hiteration] at hpre ⊢
  cases ref with
  | braced name =>
    obtain ⟨rest, heq⟩ := (List.cons_prefix_cons.mp (List.cons_prefix_cons.mp hpre).2).2
    rw [List.append_assoc] at heq
    have hname := (append_cons_inj (by decide) hvalid heq).1
    rw [FieldRef.text, hname]
  | rooted path => cases (List.cons_prefix_cons.mp (List.cons_prefix_cons.mp hpre).2).1
  | plain name =>
    have hplain := hvalid.2 '$' (hpre.subset List.mem_cons_self)
    cases (plainChar_sign hletters (by decide)).symm.trans hplain

end Reading

/-- For every reference, operator and literal: both nodes read the condition as it is written if and only if
it is unambiguous. -/
theorem condition_readsAs_iff {F : Type} {ops : ValueOps F} (hletters : PlainLetters ops) (ref : FieldRef)
    (hvalid : ref.Valid ops) (op : Operator) (lit : Literal) (hlit : lit.Valid) :
    (ReadsAs (SwitchNode.parseComparison ops) SwitchNode.stripQuotes ref op lit ↔ Unambiguous ref op lit) ∧
      (ref.text ≠ iterationText →
        (ReadsAs (LoopNode.parseComparison ops) LoopNode.unquote ref op lit ↔ Unambiguous ref op lit)) := by
  have hswitch : ReadsAs (SwitchNode.parseComparison ops) SwitchNode.stripQuotes ref op lit ↔
      Unambiguous ref op lit := by
    have hparse := parseComparison_iff hletters op hvalid hlit
    constructor
    · intro h
      obtain ⟨hnotInRef, hnotCut⟩ := hparse.mp h.parsed
      exact ⟨hnotInRef, hnotCut, fun hop => (stripQuotes_iff hlit).mp (h.literal hop)⟩
    · intro h
      exact ⟨hparse.mpr ⟨h.notInRef, h.notCut⟩, fun hop => (stripQuotes_iff hlit).mpr (h.kept hop)⟩
  refine ⟨hswitch, fun href => ?_⟩
  rw [← hswitch]
  have hsame : LoopNode.parseComparison ops (conditionText ref op lit) =
      SwitchNode.parseComparison ops (conditionText ref op lit) :=
    loop_parseComparison_condition hletters op hvalid href
  exact ⟨fun h => ⟨hsame ▸ h.parsed, h.literal⟩, fun h => ⟨hsame.trans h.parsed, h.literal⟩⟩

theorem alphanum_range {c : Char} (h : c.isAlphanum = true) :
    ((65 ≤ c.toNat ∧ c.toNat ≤ 90) ∨ (97 ≤ c.toNat ∧ c.toNat ≤ 122)) ∨ (48 ≤ c.toNat ∧ c.toNat ≤ 57) := by
  change ((decide (c.val ≥ 'A'.val ∧ c.val ≤ 'Z'.val) || (decide (c.val ≥ 'a'.val) && decide (c.val ≤ 'z'.val))) ||
    (decide (c.val ≥ '0'.val) && decide (c.val ≤ '9'.val))) = true at h
  simp only [Bool.or_eq_true, Bool.and_eq_true, decide_eq_true_eq, ge_iff_le, UInt32.le_iff_toNat_le] at h
  exact h

theorem wholeOps_letters : PlainLetters wholeOps where
  blanks c hc := by
    rw [← Bool.not_eq_true]
    intro hletter
    have hrange := alphanum_range hletter
    simp only [isWhitespace, Bool.or_eq_true, Bool.and_eq_true, decide_eq_true_eq] at hc
    omega
  signs := by
    simp only [List.forall_mem_cons]
    exact ⟨rfl, rfl, rfl, rfl, rfl, List.forall_mem_nil _⟩

theorem braced_condition_reads :
    ReadsAs (SwitchNode.parseComparison wholeOps) SwitchNode.stripQuotes (.braced "a>b".toList) .eq
      (.quoted .double "x>=y".toList) := by
  have hname : '\x7d' ∉ "a>b".toList := by decide
  have hkept : Literal.Kept (.quoted .double "x>=y".toList) := by
    refine ⟨fun c hc => ?_, fun c hc => ?_⟩
    · cases hc
      rfl
    · cases hc
      rfl
  refine (condition_readsAs_iff wholeOps_letters (.braced "a>b".toList) hname .eq (.quoted .double "x>=y".toList)
    trivial).1.mpr ⟨by decide, ?_, fun _ => hkept⟩
  rintro other hother ⟨-, before, after, hsplit, hend⟩
  have hbefore : before = "\"x".toList := by
    have hmem : other = .ge ∨ other = .le := by simpa [Operator.triedBefore, SwitchNode.operators] using hother
    rcases hmem with rfl | rfl
    · cases hsplit
      rfl
    · cases hsplit
  rw [hbefore] at hend
  exact absurd hend (by decide)

/-- An operator in a quoted string, behind a rooted path. -/
theorem quoted_operator_cuts :
    SwitchNode.parseComparison wholeOps
        (conditionText (.rooted "status".toList) .eq (.quoted .double "a>=b".toList)) =
      some ("status == \"a", .ge, "b\"".toList) ∧
    ¬ ReadsAs (SwitchNode.parseComparison wholeOps) SwitchNode.stripQuotes (.rooted "status".toList) .eq
      (.quoted .double "a>=b".toList) := by
  have hparse : SwitchNode.parseComparison wholeOps
      (conditionText (.rooted "status".toList) .eq (.quoted .double "a>=b".toList)) =
      some ("status == \"a", .ge, "b\"".toList) := by decide
  refine ⟨hparse, fun h => ?_⟩
  exact absurd (hparse.symm.trans h.parsed) (by decide)

end Xerv
