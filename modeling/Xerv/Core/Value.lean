import Mathlib.Data.List.DropRight
import Xerv.Core.Json
import Xerv.Lib.Directory
import Xerv.Lib.LittleEndian
import Xerv.Lib.Numeral

/-!
# Dynamic values (`xerv-core/src/value.rs`)

The reads and comparisons that the flow control nodes make on a JSON value. What
they take from `serde_json`, from `f64` and from the Unicode tables is a parameter
(`ValueOps`); nothing is assumed of it.
-/

namespace Xerv
open Xerv.Lib

/-! ### String functions of the standard library -/

/-- `char::is_whitespace`: the characters with the property `White_Space`. -/
def isWhitespace (c : Char) : Bool :=
  let n := c.toNat
  (9 ≤ n && n ≤ 13) || n = 0x20 || n = 0x85 || n = 0xA0 || n = 0x1680 || (0x2000 ≤ n && n ≤ 0x200A) ||
    n = 0x2028 || n = 0x2029 || n = 0x202F || n = 0x205F || n = 0x3000

/-- `trim_matches` with a predicate. -/
def trimMatches (p : Char → Bool) (cs : List Char) : List Char := (cs.dropWhile p).rdropWhile p

def trim (cs : List Char) : List Char := trimMatches isWhitespace cs

def TrimmedBy (p : Char → Bool) (cs : List Char) : Prop :=
  (∀ c ∈ cs.head?, p c = false) ∧ ∀ c ∈ cs.getLast?, p c = false

section Trim
variable {p : Char → Bool} {cs : List Char}

theorem trimMatches_infix : trimMatches p cs <:+: cs :=
  (List.rdropWhile_prefix p _).isInfix.trans (List.dropWhile_suffix p).isInfix

theorem trimMatches_eq_self (h : TrimmedBy p cs) : trimMatches p cs = cs := by
  have hfront : cs.dropWhile p = cs := by
    cases cs with
    | nil => rfl
    | cons c cs => exact List.dropWhile_cons_of_neg (by simp [h.1 c rfl])
  unfold trimMatches
  rw [hfront, List.rdropWhile_eq_self_iff]
  intro hne hlast
  have hnot := h.2 _ (List.getLast?_eq_some_getLast hne)
  rw [hnot] at hlast
  cases hlast

theorem trimmedBy_trimMatches : TrimmedBy p (trimMatches p cs) := by
  constructor
  · intro c hc
    have hpre : trimMatches p cs <+: cs.dropWhile p := List.rdropWhile_prefix p _
    have hhead : (cs.dropWhile p).head? = some c := by
      obtain ⟨rest, hrest⟩ := hpre
      rw [← hrest, List.head?_append, hc]
      rfl
    have hnot := List.head?_dropWhile_not p cs
    rw [hhead] at hnot
    exact hnot
  · intro c hc
    have hne : trimMatches p cs ≠ [] := by
      intro hnil
      rw [hnil] at hc
      cases hc
    rw [List.getLast?_eq_some_getLast hne] at hc
    obtain rfl := Option.some.inj hc
    exact Bool.eq_false_iff.mpr (List.rdropWhile_last_not p _ hne)

theorem trimMatches_eq_self_iff : trimMatches p cs = cs ↔ TrimmedBy p cs :=
  ⟨fun h => h ▸ trimmedBy_trimMatches, trimMatches_eq_self⟩

theorem trim_trim : trim (trim cs) = trim cs := trimMatches_eq_self trimmedBy_trimMatches

end Trim

/-- What stands before and behind the first occurrence of a text (`find`). -/
def splitAtText (text : List Char) : List Char → Option (List Char × List Char)
  | [] => if text = [] then some ([], []) else none
  | c :: cs =>
    match stripPrefix text (c :: cs) with
    | some rest => some ([], rest)
    | none => (splitAtText text cs).map fun p => (c :: p.1, p.2)

theorem splitAtText_some {text cs before after : List Char} (h : splitAtText text cs = some (before, after)) :
    cs = before ++ text ++ after := by
  induction cs generalizing before with
  | nil =>
    unfold splitAtText at h
    obtain ⟨rfl, heq⟩ := Option.ite_none_right_eq_some.mp h
    cases heq
    rfl
  | cons c cs ih =>
    unfold splitAtText at h
    cases hstrip : stripPrefix text (c :: cs) with
    | some rest =>
      rw [hstrip] at h
      cases h
      obtain ⟨hpre, hrest⟩ := Option.ite_none_right_eq_some.mp hstrip
      cases hrest
      exact List.prefix_iff_eq_append.mp (List.isPrefixOf_iff_prefix.mp hpre) |>.symm
    | none =>
      rw [hstrip] at h
      obtain ⟨p, hp, heq⟩ := Option.map_eq_some_iff.mp h
      cases heq
      exact congrArg (c :: ·) (ih hp)

theorem splitAtText_eq_none_iff {text cs : List Char} : splitAtText text cs = none ↔ ¬ text <:+: cs := by
  induction cs with
  | nil => simp [splitAtText, List.infix_nil]
  | cons c cs ih =>
    unfold splitAtText
    by_cases hpre : text <+: c :: cs
    · obtain ⟨rest, hrest⟩ := hpre
      rw [← hrest, stripPrefix_append]
      exact iff_of_false nofun fun hnot => hnot (List.infix_append' [] text rest)
    · have hstrip : stripPrefix text (c :: cs) = none :=
        if_neg fun h => hpre (List.isPrefixOf_iff_prefix.mp h)
      rw [hstrip, List.infix_cons_iff]
      simp [ih, hpre]

theorem splitAtText_char {c : Char} {before after : List Char} (h : c ∉ before) :
    splitAtText [c] (before ++ c :: after) = some (before, after) := by
  induction before with
  | nil =>
    rw [List.nil_append, splitAtText]
    rw [show stripPrefix [c] (c :: after) = some after from stripPrefix_append [c] after]
  | cons d before ih =>
    rw [List.mem_cons, not_or] at h
    have hstrip : stripPrefix [c] (d :: (before ++ c :: after)) = none := by simp [stripPrefix, h.1]
    rw [List.cons_append, splitAtText, hstrip]
    dsimp only
    rw [ih h.2, Option.map_some]

theorem prefix_of_prefix_append_cons {text front rest : List Char} {c : Char} (hc : c ∉ text)
    (h : text <+: front ++ c :: rest) : text <+: front := by
  rcases List.prefix_or_prefix_of_prefix h (List.prefix_append front _) with hpre | ⟨more, rfl⟩
  · exact hpre
  · rw [List.prefix_append_right_inj] at h
    cases more with
    | nil => rw [List.append_nil]
    | cons d more =>
      obtain ⟨rfl, -⟩ := List.cons_prefix_cons.mp h
      exact absurd (List.mem_append_right front List.mem_cons_self) hc

theorem splitAtText_append_cons {text : List Char} {c : Char} (hc : c ∉ text) (hne : text ≠ [])
    (front rest : List Char) :
    splitAtText text (front ++ c :: rest) =
      match splitAtText text front with
      | some (before, after) => some (before, after ++ c :: rest)
      | none => (splitAtText text rest).map fun p => (front ++ c :: p.1, p.2) := by
  induction front with
  | nil =>
    have hstrip : stripPrefix text (c :: rest) = none := by
      refine if_neg fun h => hne ?_
      have hpre : text <+: [] ++ c :: rest := List.isPrefixOf_iff_prefix.mp h
      exact List.prefix_nil.mp (prefix_of_prefix_append_cons hc hpre)
    have hnil : splitAtText text [] = none := if_neg hne
    rw [hnil, List.nil_append, splitAtText, hstrip]
    rfl
  | cons d front ih =>
    by_cases hpre : text <+: d :: front
    · obtain ⟨after, hafter⟩ := hpre
      have hwhole : d :: front ++ c :: rest = text ++ (after ++ c :: rest) := by
        rw [← hafter, List.append_assoc]
      have hstrip : stripPrefix text (d :: front) = some after := by rw [← hafter, stripPrefix_append]
      have hstrip' : stripPrefix text (d :: (front ++ c :: rest)) = some (after ++ c :: rest) := by
        rw [← List.cons_append, hwhole, stripPrefix_append]
      rw [List.cons_append, splitAtText, hstrip', splitAtText, hstrip]
    · have hstrip : stripPrefix text (d :: front) = none :=
        if_neg fun h => hpre (List.isPrefixOf_iff_prefix.mp h)
      have hstrip' : stripPrefix text (d :: (front ++ c :: rest)) = none :=
        if_neg fun h => hpre (prefix_of_prefix_append_cons hc (List.isPrefixOf_iff_prefix.mp h))
      rw [List.cons_append, splitAtText, hstrip', splitAtText, hstrip]
      dsimp only
      rw [ih]
      cases splitAtText text front with
      | some p => rfl
      | none =>
        cases splitAtText text rest with
        | some p => rfl
        | none => rfl

/-- `parse` to an unsigned integer below `bound`. -/
def parseBelow (bound : ℕ) (cs : List Char) : Option ℕ :=
  (parseUnsigned 10 cs).filter fun n => n < bound

/-! ### Values -/

structure ValueOps (F : Type) where
  fromSlice : Bytes → Option Json
  render : Json → String
  asF64 : String → Option F
  parseF64 : List Char → Option F
  lt : F → F → Bool
  le : F → F → Bool
  isZero : F → Bool
  isAlphanumeric : Char → Bool

namespace Json
variable {F : Type} (ops : ValueOps F)

/-- `Value::from_bytes`. -/
def fromBytes (bytes : Bytes) : Option Json :=
  if bytes = [] then some .null else ops.fromSlice bytes

/-- `Value::get` with an array index. -/
def item (v : Json) (i : ℕ) : Option Json :=
  match v with
  | array items => items[i]?
  | _ => none

/-- One part of a path: a field, or a field and the index of one of its items. -/
def getPart (v : Json) (part : List Char) : Option Json :=
  match splitAtText ['['] part with
  | some (field, index) => do
    let list ← v.get (String.ofList field)
    let digits ← stripSuffix [']'] index
    list.item (← parseBelow (2 ^ 64) digits)
  | none => v.get (String.ofList part)

def getField (v : Json) (path : String) : Option Json :=
  let path := (stripPrefix ['$', '.'] path.toList).getD path.toList
  (path.splitOn '.').foldlM getPart v

def asString : Json → Option String
  | string s => some s
  | number literal => some literal
  | bool b => some (if b then "true" else "false")
  | null => none
  | v => some (ops.render v)

def asF64 : Json → Option F
  | number literal => ops.asF64 literal
  | string s => ops.parseF64 s.toList
  | _ => none

/-- `as_bool`. No letter outside ASCII has the lower case of a letter of these words. -/
def asBool : Json → Option Bool
  | bool b => some b
  | string s =>
    let lower := String.ofList (s.toList.map Char.toLower)
    if lower = "true" || lower = "1" || lower = "yes" then some true
    else if lower = "false" || lower = "0" || lower = "no" then some false
    else none
  | number literal => some ((ops.asF64 literal).any fun x => !ops.isZero x)
  | null => some false
  | _ => none

def getF64 (v : Json) (path : String) : Option F := (v.getField path).bind (asF64 ops)

def getBool (v : Json) (path : String) : Option Bool := (v.getField path).bind (asBool ops)

def fieldEquals (v : Json) (path value : String) : Bool :=
  (v.getField path).any fun field => (field.asString ops).any fun s => s = value

def fieldIsTrue (v : Json) (path : String) : Bool := (v.getBool ops path).getD false

def fieldIsFalse (v : Json) (path : String) : Bool := (v.getBool ops path).any fun b => !b

end Json

end Xerv
