import Xerv.Linker.Parser

/-!
# Selector highlighting in the editor (`xerv-wasm/src/lib.rs`)

`format_selector` cuts an expression into tokens of text and tokens of selectors. A selector
ends at the first closing brace here, where the engine counts braces. Writing the tokens as
JSON is a parameter.
-/

namespace Xerv.Editor
open Xerv.Lib.Template SelectorParser

structure SelectorToken where
  kind : String
  value : String
  deriving DecidableEq, Repr

def formatLoop : List Char → List Char → Bool → List SelectorToken → List SelectorToken
  | [], buffer, inSelector, tokens =>
    if buffer ≠ [] then tokens ++ [⟨if inSelector then "selector" else "text", String.ofList buffer⟩] else tokens
  | c :: chars, buffer, inSelector, tokens =>
    if c = '$' ∧ chars.head? = some '\x7b' then
      formatLoop chars [c] true (if buffer ≠ [] then tokens ++ [⟨"text", String.ofList buffer⟩] else tokens)
    else if c = '\x7d' ∧ inSelector then
      formatLoop chars [] false (tokens ++ [⟨"selector", String.ofList (buffer ++ [c])⟩])
    else formatLoop chars (buffer ++ [c]) inSelector tokens

def formatSelector (toJson : List SelectorToken → Option String) (expression : String) : String :=
  (toJson (formatLoop expression.toList [] false [])).getD "[]"

/-- The values of the tokens, one after the other. -/
def values (tokens : List SelectorToken) : List Char := tokens.flatMap fun token => token.value.toList

def selectorTokens (tokens : List SelectorToken) : List SelectorToken :=
  tokens.filter fun token => token.kind = "selector"

theorem values_append (tokens later : List SelectorToken) : values (tokens ++ later) = values tokens ++ values later :=
  List.flatMap_append

theorem selectorTokens_append (tokens later : List SelectorToken) :
    selectorTokens (tokens ++ later) = selectorTokens tokens ++ selectorTokens later := List.filter_append ..

theorem values_flush (buffer : List Char) (kind : String) (tokens : List SelectorToken) :
    values (if buffer ≠ [] then tokens ++ [⟨kind, String.ofList buffer⟩] else tokens) = values tokens ++ buffer := by
  by_cases hempty : buffer = []
  · rw [if_neg (not_not.mpr hempty), hempty, List.append_nil]
  · rw [if_pos hempty, values_append]
    simp [values]

theorem selectorTokens_flush (buffer : List Char) (tokens : List SelectorToken) :
    selectorTokens (if buffer ≠ [] then tokens ++ [⟨"text", String.ofList buffer⟩] else tokens) =
      selectorTokens tokens := by
  by_cases hempty : buffer = []
  · rw [if_neg (not_not.mpr hempty)]
  · rw [if_pos hempty, selectorTokens_append]
    simp [selectorTokens]

theorem formatLoop_cons (c : Char) (chars buffer : List Char) (inSelector : Bool) (tokens : List SelectorToken) :
    formatLoop (c :: chars) buffer inSelector tokens =
      if c = '$' ∧ chars.head? = some '\x7b' then
        formatLoop chars [c] true (if buffer ≠ [] then tokens ++ [⟨"text", String.ofList buffer⟩] else tokens)
      else if c = '\x7d' ∧ inSelector then
        formatLoop chars [] false (tokens ++ [⟨"selector", String.ofList (buffer ++ [c])⟩])
      else formatLoop chars (buffer ++ [c]) inSelector tokens := rfl

/-- What was read so far is in the tokens and the buffer. -/
theorem formatLoop_values (chars buffer : List Char) (inSelector : Bool) (tokens : List SelectorToken) :
    values (formatLoop chars buffer inSelector tokens) = values tokens ++ buffer ++ chars := by
  induction chars generalizing buffer inSelector tokens with
  | nil => exact (values_flush buffer _ tokens).trans (List.append_nil _).symm
  | cons c chars ih =>
    rw [formatLoop_cons]
    split
    · rw [ih, values_flush, List.append_assoc, List.singleton_append]
    · split
      · rw [ih, values_append]
        simp [values]
      · rw [ih, List.append_assoc, List.append_assoc, List.append_assoc, List.singleton_append]

/-! ### Selectors the engine reads -/

theorem formatLoop_body (body rest buffer : List Char) (tokens : List SelectorToken)
    (hopen : '\x7b' ∉ body) (hclose : '\x7d' ∉ body) :
    formatLoop (body ++ '\x7d' :: rest) buffer true tokens =
      formatLoop rest [] false (tokens ++ [⟨"selector", String.ofList (buffer ++ body ++ ['\x7d'])⟩]) := by
  induction body generalizing buffer with
  | nil =>
    rw [List.nil_append, List.append_nil, formatLoop_cons, if_neg fun h => absurd h.1 (by decide), if_pos ⟨rfl, rfl⟩]
  | cons c body ih =>
    rw [List.mem_cons, not_or] at hopen hclose
    have hnext : (body ++ '\x7d' :: rest).head? ≠ some '\x7b' := by
      cases body with
      | nil => exact fun h => absurd (Option.some.inj h) (by decide)
      | cons d body => exact fun h => hopen.2 (List.mem_cons.mpr (.inl (Option.some.inj h).symm))
    rw [List.cons_append, formatLoop_cons, if_neg fun h => hnext h.2, if_neg fun h => hclose.1 h.1.symm,
      ih _ hopen.2 hclose.2, List.append_assoc buffer, List.singleton_append]

theorem formatLoop_selector (body rest buffer : List Char) (tokens : List SelectorToken)
    (hopen : '\x7b' ∉ body) (hclose : '\x7d' ∉ body) :
    formatLoop ('$' :: '\x7b' :: (body ++ '\x7d' :: rest)) buffer false tokens =
      formatLoop rest [] false ((if buffer ≠ [] then tokens ++ [⟨"text", String.ofList buffer⟩] else tokens) ++
        [⟨"selector", selectorText (String.ofList body)⟩]) := by
  have htext : String.ofList (['$', '\x7b'] ++ body ++ ['\x7d']) = selectorText (String.ofList body) := by
    unfold selectorText
    simp only [String.ofList_append]
  rw [formatLoop_cons, if_pos ⟨rfl, rfl⟩, formatLoop_cons, if_neg fun h => absurd h.1 (by decide),
    if_neg fun h => absurd h.1 (by decide), List.singleton_append, formatLoop_body _ _ _ _ hopen hclose, htext]

theorem formatLoop_char {c : Char} {chars : List Char} (hplain : ¬ selectorMarks.Opens (c :: chars))
    (buffer : List Char) (tokens : List SelectorToken) :
    formatLoop (c :: chars) buffer false tokens = formatLoop chars (buffer ++ [c]) false tokens := by
  have hopens : ¬(c = '$' ∧ chars.head? = some '\x7b') := by
    rintro ⟨rfl, hhead⟩
    obtain ⟨rest, rfl⟩ := List.head?_eq_some_iff.mp hhead
    exact hplain ⟨rest, rfl⟩
  rw [formatLoop_cons, if_neg hopens, if_neg fun h => absurd h.2 Bool.false_ne_true]

/-- The two scanners find the same selectors. -/
theorem formatLoop_reads {n : ℕ} {text : List Char} {pieces : List (Piece Char Selector)}
    (h : Reads selectorMarks IsSelectorBody n text pieces) (hn : n = 0) (buffer : List Char)
    (tokens : List SelectorToken) :
    ∃ bodies : List (List Char), bodies.map parseExpression = (holes pieces).map .ok ∧
      selectorTokens (formatLoop text buffer false tokens) = selectorTokens tokens ++
        bodies.map fun body => ⟨"selector", selectorText (String.ofList body)⟩ := by
  induction h generalizing buffer tokens with
  | nil =>
    refine ⟨[], rfl, ?_⟩
    rw [List.map_nil, List.append_nil]
    exact selectorTokens_flush buffer tokens
  | char hplain _ ih =>
    rw [formatLoop_char hplain]
    exact ih hn _ _
  | @hole n text body rest selector pieces htext hbody _ ih =>
    obtain ⟨hopen, hclose⟩ := body_no_marks _ _ hbody
    obtain ⟨bodies, hparsed, htokens⟩ := ih hn []
      ((if buffer ≠ [] then tokens ++ [⟨"text", String.ofList buffer⟩] else tokens) ++
        [⟨"selector", selectorText (String.ofList body)⟩])
    refine ⟨body :: bodies, ?_, ?_⟩
    · rw [List.map_cons, hparsed, (parseExpression_iff _ _).mpr hbody]
      rfl
    · rw [htext]
      refine (congrArg selectorTokens (formatLoop_selector body rest buffer tokens hopen hclose)).trans ?_
      rw [htokens, selectorTokens_append, selectorTokens_flush, List.append_assoc]
      rfl
  | givenUp => cases hn

/-- The values of the tokens that `format_selector` writes are the expression. Where `parse_all` accepts it, the
tokens of selectors are, in order, the bodies of its selectors between their marks. -/
theorem formatSelector_lossless (expression : String) :
    ∃ tokens : List SelectorToken,
      (∀ toJson, formatSelector toJson expression = (toJson tokens).getD "[]") ∧
      values tokens = expression.toList ∧
      ∀ selectors, parseAll expression = .ok selectors → ∃ bodies : List (List Char),
        bodies.map parseExpression = selectors.map .ok ∧
        selectorTokens tokens = bodies.map fun body => ⟨"selector", selectorText (String.ofList body)⟩ := by
  refine ⟨formatLoop expression.toList [] false [], fun toJson => rfl, ?_, ?_⟩
  · exact formatLoop_values _ _ _ _
  · intro selectors hok
    obtain ⟨pieces, hreads, rfl⟩ := (parseAll_iff _ _).mp hok
    exact formatLoop_reads hreads rfl [] []

theorem formatSelector_lossless_order : ∃ tokens : List SelectorToken,
    (∀ toJson, formatSelector toJson "Total: $\x7b order.amount \x7d EUR" = (toJson tokens).getD "[]") ∧
    values tokens = "Total: $\x7b order.amount \x7d EUR".toList ∧
    ∃ bodies : List (List Char),
      bodies.map parseExpression = [.ok (Selector.new "order" ["amount"])] ∧
      selectorTokens tokens = bodies.map fun body => ⟨"selector", selectorText (String.ofList body)⟩ := by
  obtain ⟨tokens, hjson, hvalues, hselectors⟩ := formatSelector_lossless "Total: $\x7b order.amount \x7d EUR"
  exact ⟨tokens, hjson, hvalues, hselectors [Selector.new "order" ["amount"]] (by decide)⟩

end Xerv.Editor
