import Xerv.Lib.LittleEndian

/-!
# Newline-delimited files

`splitLines` is `BufRead::lines`: a line ends with a line feed, which is dropped
together with a carriage return before it; a last line without a line feed counts
if it is not empty.
-/

namespace Xerv.Lib

def stripReturn (line : Bytes) : Bytes := if line.getLast? = some 13 then line.dropLast else line

def splitLinesFrom : Bytes → Bytes → List Bytes
  | line, [] => if line = [] then [] else [line]
  | line, b :: bs => if b = 10 then stripReturn line :: splitLinesFrom [] bs
    else splitLinesFrom (line ++ [b]) bs

def splitLines (data : Bytes) : List Bytes := splitLinesFrom [] data

/-- Texts that survive being written on a line of their own. -/
structure IsLine (text : Bytes) : Prop where
  nonempty : text ≠ []
  noNewline : 10 ∉ text
  noReturn : text.getLast? ≠ some 13

theorem splitLinesFrom_append (line text rest : Bytes) (h : 10 ∉ text) :
    splitLinesFrom line (text ++ 10 :: rest) = stripReturn (line ++ text) :: splitLinesFrom [] rest := by
  induction text generalizing line with
  | nil => simp [splitLinesFrom]
  | cons b text ih =>
    have hb : b ≠ 10 := fun he => h (by rw [he]; exact List.mem_cons_self)
    have htext : 10 ∉ text := fun hm => h (List.mem_cons_of_mem _ hm)
    rw [List.cons_append, splitLinesFrom, if_neg hb, ih _ htext, List.append_assoc]
    rfl

theorem splitLines_flatMap_append {α : Type} (text : α → Bytes) (xs : List α) (rest : Bytes)
    (h : ∀ x, IsLine (text x)) :
    splitLines ((xs.flatMap fun x => text x ++ [10]) ++ rest) = xs.map text ++ splitLines rest := by
  unfold splitLines
  induction xs with
  | nil => rfl
  | cons x xs ih =>
    rw [List.flatMap_cons, List.append_assoc, List.append_assoc, List.singleton_append,
      splitLinesFrom_append [] _ _ (h x).noNewline, ih, List.nil_append, stripReturn,
      if_neg (h x).noReturn]
    rfl

theorem splitLines_flatMap {α : Type} (text : α → Bytes) (xs : List α) (h : ∀ x, IsLine (text x)) :
    splitLines (xs.flatMap fun x => text x ++ [10]) = xs.map text := by
  have hall := splitLines_flatMap_append text xs [] h
  rwa [List.append_nil, show splitLines [] = [] from rfl, List.append_nil] at hall

theorem splitLines_unfinished (text : Bytes) (hne : text ≠ []) (h : 10 ∉ text) :
    splitLines text = [text] := by
  have hfrom : ∀ line, splitLinesFrom line text = if line ++ text = [] then [] else [line ++ text] := by
    clear hne
    induction text with
    | nil =>
      intro line
      rw [splitLinesFrom, List.append_nil]
    | cons b text ih =>
      intro line
      have hb : b ≠ 10 := fun he => h (by rw [he]; exact List.mem_cons_self)
      rw [splitLinesFrom, if_neg hb, ih fun hm => h (List.mem_cons_of_mem _ hm), List.append_assoc]
      rfl
  rw [splitLines, hfrom, List.nil_append, if_neg hne]

end Xerv.Lib
