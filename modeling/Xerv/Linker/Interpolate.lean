import Xerv.Linker.Parser

/-!
# Interpolation (`xerv-executor/src/linker/parser.rs`)

`interpolate` scans a template again, on its own: it forgets what it has read of a selector
when another one opens and ends a selector at the first closing brace. The resolver is a
function into a monad, so that what it does beside answering is seen too.
-/

namespace Xerv
open Xerv.Lib Xerv.Lib.Template

namespace SelectorParser
section
variable {m : Type → Type} [Monad m] [MonadExceptOf SelectorSyntax m]

/-- `?` on a syntax error. -/
def propagate {α : Type} : Except SelectorSyntax α → m α
  | .ok a => pure a
  | .error e => throwThe SelectorSyntax e

def interpolateLoop (resolver : Selector → m String) : List Char → List Char → Bool → List Char → m String
  | [], result, inSelector, content =>
    if inSelector then throwThe SelectorSyntax (unclosed content) else pure (String.ofList result)
  | '$' :: '\x7b' :: cs, result, _, _ => interpolateLoop resolver cs result true []
  | c :: cs, result, true, content =>
    if c = '\x7d' then do
      let selector ← propagate (parseExpression content)
      let value ← resolver selector
      interpolateLoop resolver cs (result ++ value.toList) false content
    else interpolateLoop resolver cs result true (content ++ [c])
  | c :: cs, result, false, content => interpolateLoop resolver cs (result ++ [c]) false content

def interpolate (input : String) (resolver : Selector → m String) : m String :=
  interpolateLoop resolver input.toList [] false []

/-! ### Steps of the scan -/

variable (resolver : Selector → m String)

theorem interpolateLoop_plain {c : Char} {cs : List Char} (hplain : ¬ selectorMarks.Opens (c :: cs))
    (result : List Char) (inSelector : Bool) (content : List Char) :
    interpolateLoop resolver (c :: cs) result inSelector content =
      if inSelector then
        if c = '\x7d' then do
          let selector ← propagate (parseExpression content)
          let value ← resolver selector
          interpolateLoop resolver cs (result ++ value.toList) false content
        else interpolateLoop resolver cs result true (content ++ [c])
      else interpolateLoop resolver cs (result ++ [c]) false content := by
  cases inSelector with
  | false =>
    rw [interpolateLoop]
    · rfl
    · rintro cs' rfl rfl
      exact hplain ⟨cs', rfl⟩
  | true =>
    rw [interpolateLoop]
    · rfl
    · rintro cs' rfl rfl
      exact hplain ⟨cs', rfl⟩

theorem interpolateLoop_char {c : Char} {cs : List Char} (hplain : ¬ selectorMarks.Opens (c :: cs))
    (result content : List Char) : interpolateLoop resolver (c :: cs) result false content =
      interpolateLoop resolver cs (result ++ [c]) false content :=
  interpolateLoop_plain resolver hplain result false content

theorem interpolateLoop_body {c : Char} {cs : List Char} (hplain : ¬ selectorMarks.Opens (c :: cs))
    (hcloser : c ≠ '\x7d') (result content : List Char) : interpolateLoop resolver (c :: cs) result true content =
      interpolateLoop resolver cs result true (content ++ [c]) := by
  rw [interpolateLoop_plain resolver hplain, if_pos rfl, if_neg hcloser]

theorem interpolateLoop_close (cs result content : List Char) :
    interpolateLoop resolver ('\x7d' :: cs) result true content = (do
      let selector ← propagate (parseExpression content)
      let value ← resolver selector
      interpolateLoop resolver cs (result ++ value.toList) false content) :=
  interpolateLoop_plain resolver (by rintro ⟨rest, heq⟩; cases heq) result true content

theorem interpolateLoop_collect (text rest result content : List Char) (h : selectorMarks.NoOpening text)
    (hcloser : '\x7d' ∉ text) (hhead : rest.head? ≠ some '\x7b') :
    interpolateLoop resolver (text ++ rest) result true content =
      interpolateLoop resolver rest result true (content ++ text) := by
  induction text generalizing content with
  | nil => rw [List.nil_append, List.append_nil]
  | cons c text ih =>
    rw [List.mem_cons, not_or] at hcloser
    rw [List.cons_append, interpolateLoop_body resolver (not_opens_append h hhead) (Ne.symm hcloser.1),
      ih _ ((noOpening_cons c text).mp h).2 hcloser.2, List.append_assoc]
    rfl

/-- A text that is read is interpolated: the resolver is asked for the selectors in order, and then their
values stand in their places. -/
theorem interpolateLoop_reads [LawfulMonad m] {n : ℕ} {text : List Char} {pieces : List (Piece Char Selector)}
    (h : Reads selectorMarks IsSelectorBody n text pieces) (result content : List Char) :
    interpolateLoop resolver text result false content = (do
      let values ← (holes pieces).mapM resolver
      pure (String.ofList (result ++ splice pieces (values.map String.toList)))) := by
  induction h generalizing result content with
  | nil => simp [interpolateLoop, holes, splice]
  | char hplain _ ih =>
    rw [interpolateLoop_char resolver hplain, ih]
    simp [holes, splice]
  | @hole _ _ body rest selector _ htext hbody _ ih =>
    subst htext
    have hmarks := body_no_marks body selector hbody
    have hcollect := interpolateLoop_collect resolver body ('\x7d' :: rest) result []
      (noOpening_of_opener hmarks.1) hmarks.2 (by simp)
    change interpolateLoop resolver (body ++ '\x7d' :: rest) result true [] = _
    rw [hcollect, interpolateLoop_close, List.nil_append, (parseExpression_iff body selector).mpr hbody]
    simp [propagate, ih, holes, splice]
  | @givenUp _ _ skipped rest _ hskipped hopen htext _ ih =>
    subst htext
    have hcollect := interpolateLoop_collect resolver skipped ('$' :: '\x7b' :: rest) result [] hskipped hopen
      (by simp)
    change interpolateLoop resolver (skipped ++ '$' :: '\x7b' :: rest) result true [] = _
    rw [hcollect]
    exact ih result content

end

/-! ### What passes -/

/-- The resolver that answers and does nothing else. -/
abbrev answering (value : Selector → String) : Selector → Except SelectorSyntax String :=
  fun selector => .ok (value selector)

theorem reads_of_interpolateLoop (value : Selector → String) (text result content : List Char) (output : String) :
    (interpolateLoop (answering value) text result false content = .ok output →
      ∃ n pieces, Reads selectorMarks IsSelectorBody n text pieces) ∧
    (interpolateLoop (answering value) text result true [] = .ok output →
      ∃ n pieces, Reads selectorMarks IsSelectorBody n ('$' :: '\x7b' :: text) pieces) := by
  induction hlen : text.length using Nat.strong_induction_on generalizing text result content with
  | _ len ih =>
    constructor
    · intro h
      cases text with
      | nil => exact ⟨0, [], .nil⟩
      | cons c cs =>
        by_cases hopens : selectorMarks.Opens (c :: cs)
        · obtain ⟨rest, heq⟩ := hopens
          obtain ⟨rfl, rfl⟩ := List.cons.inj heq
          exact (ih _ (by simp [← hlen]) rest result content rfl).2 h
        · rw [interpolateLoop_char _ hopens] at h
          obtain ⟨n, pieces, hreads⟩ := (ih _ (by simp [← hlen]) cs _ content rfl).1 h
          exact ⟨n, .char c :: pieces, .char hopens hreads⟩
    · intro h
      obtain ⟨body, rest, hbody, hclose, rfl⟩ | ⟨skipped, rest, hskipped, hclose, rfl⟩ | ⟨hnone, hclose⟩ :=
        next_mark (m := selectorMarks) text
      · change interpolateLoop _ (body ++ '\x7d' :: rest) result true [] = _ at h
        rw [interpolateLoop_collect _ _ _ _ _ hbody hclose (by simp), interpolateLoop_close,
          List.nil_append] at h
        cases hparse : parseExpression body with
        | error e =>
          rw [hparse] at h
          cases h
        | ok selector =>
          rw [hparse] at h
          obtain ⟨n, pieces, hreads⟩ := (ih _ (by simp [← hlen]; omega) rest _ body rfl).1 h
          exact ⟨n, _, .hole rfl ((parseExpression_iff _ _).mp hparse) hreads⟩
      · change interpolateLoop _ (skipped ++ '$' :: '\x7b' :: rest) result true [] = _ at h
        rw [interpolateLoop_collect _ _ _ _ _ hskipped hclose (by simp)] at h
        obtain ⟨n, pieces, hreads⟩ := (ih _ (by simp [← hlen]; omega) rest result content rfl).2 h
        exact ⟨n + 1, pieces, .givenUp hskipped hclose rfl hreads⟩
      · have hcollect := interpolateLoop_collect (answering value) text [] result [] hnone hclose (by simp)
        rw [List.append_nil] at hcollect
        rw [hcollect, interpolateLoop] at h
        cases h

theorem interpolate_ok_iff (input : String) (value : Selector → String) :
    (∃ output, interpolate input (answering value) = .ok output) ↔
      ∃ n pieces, Reads selectorMarks IsSelectorBody n input.toList pieces := by
  constructor
  · rintro ⟨output, h⟩
    exact (reads_of_interpolateLoop value _ _ _ _).1 h
  · rintro ⟨n, pieces, hreads⟩
    have hloop := interpolateLoop_reads (answering value) hreads [] []
    have hvalues (selectors : List Selector) :
        selectors.mapM (answering value) = .ok (selectors.map value) := by
      induction selectors with
      | nil => rfl
      | cons selector selectors ih =>
        rw [List.mapM_cons, ih]
        rfl
    rw [hvalues] at hloop
    exact ⟨_, hloop⟩

end SelectorParser

/-! ### Agreement -/

/-- `interpolate` agrees with `parse_all`. A resolver that always answers gets an output if and only if
`parse_all` accepts; and then every resolver, whatever else it does, is asked for the selectors of
`parse_all` in their order, and the output is the input with their values in place of the selectors. -/
structure InterpolationAgrees (input : String) : Prop where
  passes : ∀ value : Selector → String,
    (∃ output, SelectorParser.interpolate input (SelectorParser.answering value) = .ok output) ↔
      ∃ selectors, SelectorParser.parseAll input = .ok selectors
  resolves : ∀ selectors, SelectorParser.parseAll input = .ok selectors →
    ∃ pieces, Reads selectorMarks IsSelectorBody 0 input.toList pieces ∧ selectors = holes pieces ∧
      ∀ (m : Type → Type) [Monad m] [LawfulMonad m] [MonadExceptOf SelectorSyntax m]
        (resolver : Selector → m String),
        SelectorParser.interpolate input resolver = (do
          let values ← selectors.mapM resolver
          pure (String.ofList (splice pieces (values.map String.toList))))

/-- Well formed but for openings that others follow before the closing brace. -/
def GivesUpOpening (input : String) : Prop :=
  ∃ n pieces, 0 < n ∧ Reads selectorMarks IsSelectorBody n input.toList pieces

/-- `interpolate` agrees with `parse_all` on an input if and only if the input is not well formed only
by giving up an opening. -/
theorem interpolation_agrees_iff (input : String) : InterpolationAgrees input ↔ ¬GivesUpOpening input := by
  have hunique {n n' : ℕ} {pieces pieces' : List (Piece Char Selector)}
      (h : Reads selectorMarks IsSelectorBody n input.toList pieces)
      (h' : Reads selectorMarks IsSelectorBody n' input.toList pieces') : n = n' :=
    (Reads.unique body_no_marks isSelectorBody_one h h').1
  constructor
  · rintro ⟨hpasses, -⟩ ⟨n, pieces, hpos, hreads⟩
    have hinterpolate := (SelectorParser.interpolate_ok_iff input Selector.raw).mpr ⟨n, pieces, hreads⟩
    obtain ⟨selectors, hparse⟩ := (hpasses Selector.raw).mp hinterpolate
    obtain ⟨pieces', hstrict, -⟩ := (SelectorParser.parseAll_iff _ _).mp hparse
    have hzero := hunique hreads hstrict
    omega
  · intro hnone
    refine ⟨fun value => ?_, ?_⟩
    · rw [SelectorParser.interpolate_ok_iff]
      constructor
      · rintro ⟨n, pieces, hreads⟩
        obtain rfl : n = 0 := Nat.eq_zero_of_not_pos fun hpos => hnone ⟨n, pieces, hpos, hreads⟩
        exact ⟨_, (SelectorParser.parseAll_iff _ _).mpr ⟨pieces, hreads, rfl⟩⟩
      · rintro ⟨selectors, hparse⟩
        obtain ⟨pieces, hreads, -⟩ := (SelectorParser.parseAll_iff _ _).mp hparse
        exact ⟨0, pieces, hreads⟩
    · intro selectors hparse
      obtain ⟨pieces, hreads, rfl⟩ := (SelectorParser.parseAll_iff _ _).mp hparse
      exact ⟨pieces, hreads, rfl, fun m _ _ _ resolver =>
        SelectorParser.interpolateLoop_reads resolver hreads [] []⟩

/-- An opening that another one follows: `interpolate` drops what stands between them. -/
theorem given_up_opening : ¬InterpolationAgrees "pay $\x7bamount $\x7bcurrency\x7d" := by
  rintro ⟨hpasses, -⟩
  obtain ⟨selectors, hparse⟩ := (hpasses Selector.root).mp ⟨"pay currency", by decide⟩
  have hfails : SelectorParser.parseAll "pay $\x7bamount $\x7bcurrency\x7d" =
      .error ⟨"$\x7bamount $\x7bcurrency\x7d...", "Unclosed selector expression"⟩ := by decide
  rw [hfails] at hparse
  cases hparse

end Xerv
