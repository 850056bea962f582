import Xerv.Nodes.Loop

/-!
# The switch node (`xerv-nodes/src/flow/switch.rs`)

`SwitchNode` routes its input by a condition. It has an expression evaluator of its own; on expressions
without the iteration variable the loop node's computes the same.
-/

namespace Xerv
open Xerv.Lib

namespace Json
variable {F : Type} (ops : ValueOps F)

def getString (v : Json) (path : String) : Option String := (v.getField path).bind (asString ops)

def fieldGreaterThan (v : Json) (path : String) (threshold : F) : Bool :=
  (v.getF64 ops path).any fun x => ops.lt threshold x

def fieldLessThan (v : Json) (path : String) (threshold : F) : Bool :=
  (v.getF64 ops path).any fun x => ops.lt x threshold

/-- `isMatch` is the regular expression library; a pattern that does not compile matches nothing. -/
def fieldMatches (isMatch : String → String → Bool) (v : Json) (path pattern : String) : Bool :=
  (v.getString ops path).any (isMatch pattern)

end Json

inductive SwitchCondition (F : Type) where
  | always
  | fieldEquals (field value : String)
  | fieldMatches (field pattern : String)
  | fieldGreaterThan (field : String) (threshold : F)
  | fieldLessThan (field : String) (threshold : F)
  | expression (expr : String)

structure SwitchNode (F : Type) where
  condition : SwitchCondition F

namespace SwitchNode
variable {F : Type} (ops : ValueOps F)

def parseFieldRef (s : List Char) : Option String :=
  let s := trim s
  if ['$', '\x7b'].isPrefixOf s && ['\x7d'].isSuffixOf s then some (String.ofList (s.drop 2).dropLast)
  else
    match stripPrefix ['$', '.'] s with
    | some stripped => some (String.ofList stripped)
    | none =>
      if s ≠ [] && s.all fun c => ops.isAlphanumeric c || c = '_' || c = '.' then some (String.ofList s)
      else none

/-- Operators in order of specificity. -/
def operators : List Operator := [.ge, .le, .eq, .ne, .gt, .lt, .assign]

def parseComparison (expr : List Char) : Option (String × Operator × List Char) :=
  operators.findSome? fun op =>
    match splitAtText op.text expr with
    | some (lhs, rhs) => (parseFieldRef ops (trim lhs)).map fun field => (field, op, trim rhs)
    | none => none

def stripQuotes (rhs : List Char) : String :=
  String.ofList (trimMatches (· = '\'') (trimMatches (· = '"') rhs))

def evaluateExpression (expr : String) (value : Json) : Bool :=
  let expr := trim expr.toList
  match parseComparison ops expr with
  | some (field, .eq, rhs) | some (field, .assign, rhs) => value.fieldEquals ops field (stripQuotes rhs)
  | some (field, .ne, rhs) => !value.fieldEquals ops field (stripQuotes rhs)
  | some (field, .gt, rhs) =>
    match ops.parseF64 rhs with
    | some threshold => value.fieldGreaterThan ops field threshold
    | none => false
  | some (field, .lt, rhs) =>
    match ops.parseF64 rhs with
    | some threshold => value.fieldLessThan ops field threshold
    | none => false
  | some (field, .ge, rhs) =>
    match ops.parseF64 rhs with
    | some threshold => (value.getF64 ops field).any fun v => ops.le threshold v
    | none => false
  | some (field, .le, rhs) =>
    match ops.parseF64 rhs with
    | some threshold => (value.getF64 ops field).any fun v => ops.le v threshold
    | none => false
  | none =>
    match parseFieldRef ops expr with
    | some field => value.fieldIsTrue ops field
    | none => false

def evaluate (isMatch : String → String → Bool) (node : SwitchNode F) (value : Json) : Bool :=
  match node.condition with
  | .always => true
  | .fieldEquals field expected => value.fieldEquals ops field expected
  | .fieldMatches field pattern => value.fieldMatches ops isMatch field pattern
  | .fieldGreaterThan field threshold => value.fieldGreaterThan ops field threshold
  | .fieldLessThan field threshold => value.fieldLessThan ops field threshold
  | .expression expr => evaluateExpression ops expr value

def execute (isMatch : String → String → Bool) (node : SwitchNode F) (arena : Table RelPtr Bytes)
    (inputs : Table String RelPtr) : NodeOutput :=
  let input := LoopNode.inputPtr inputs
  if node.evaluate ops isMatch (LoopNode.readInput ops arena input) then .complete "true" input 0
  else .complete "false" input 0

end SwitchNode

/-! ### The two evaluators -/

section Agree
variable {F : Type} (ops : ValueOps F)

theorem loop_parseFieldRef (cs : List Char) :
    LoopNode.parseFieldRef ops cs =
      if trim cs = iterationText then none else SwitchNode.parseFieldRef ops cs := rfl

theorem loop_parseComparison {expr : List Char}
    (h : ∀ op lhs rhs, splitAtText (Operator.text op) expr = some (lhs, rhs) → trim lhs ≠ iterationText) :
    LoopNode.parseComparison ops expr = SwitchNode.parseComparison ops expr := by
  refine congrArg (List.findSome? · SwitchNode.operators) (funext fun op => ?_)
  cases hsplit : splitAtText op.text expr with
  | none => rfl
  | some p =>
    obtain ⟨lhs, rhs⟩ := p
    have hne := h op lhs rhs hsplit
    rw [Option.bind_some, loop_parseFieldRef, trim_trim, if_neg hne]

theorem switch_evaluateComparison {expr : String} {field : String} {op : Operator} {rhs : List Char}
    (h : SwitchNode.parseComparison ops (trim expr.toList) = some (field, op, rhs)) (value : Json) :
    SwitchNode.evaluateExpression ops expr value = LoopNode.evaluateComparison ops value field rhs op := by
  unfold SwitchNode.evaluateExpression
  dsimp only
  rw [h]
  cases op with
  | eq | assign | ne => rfl
  | gt | lt | ge | le =>
    unfold LoopNode.evaluateComparison LoopNode.compareField
    dsimp only
    cases ops.parseF64 rhs with
    | none => rfl
    | some threshold => rfl

/-- For every expression without the iteration variable, both nodes evaluate to the same. -/
theorem evaluators_agree (expr : String) (hiteration : ¬ iterationText <:+: expr.toList) (value : Json) (iteration : ℕ) :
    SwitchNode.evaluateExpression ops expr value = LoopNode.evaluateExpression ops expr value iteration := by
  have hnot : ¬ iterationText <:+: trim expr.toList := fun hoccurs => hiteration (hoccurs.trans trimMatches_infix)
  have hsearch : splitAtText iterationText (trim expr.toList) = none := splitAtText_eq_none_iff.mpr hnot
  have hparse : LoopNode.parseComparison ops (trim expr.toList) = SwitchNode.parseComparison ops (trim expr.toList) := by
    refine loop_parseComparison ops fun op lhs rhs hsplit heq => hnot ?_
    rw [splitAtText_some hsplit, ← heq, List.append_assoc]
    exact trimMatches_infix.trans (List.prefix_append lhs _).isInfix
  have href : LoopNode.parseFieldRef ops (trim expr.toList) = SwitchNode.parseFieldRef ops (trim expr.toList) := by
    rw [loop_parseFieldRef, trim_trim, if_neg]
    exact fun heq => hnot (heq ▸ List.infix_refl _)
  unfold LoopNode.evaluateExpression
  dsimp only
  rw [hsearch, hparse, href, if_neg (by simp)]
  cases hcomparison : SwitchNode.parseComparison ops (trim expr.toList) with
  | some comparison =>
    obtain ⟨field, op, rhs⟩ := comparison
    exact switch_evaluateComparison ops hcomparison value
  | none =>
    cases hfield : SwitchNode.parseFieldRef ops (trim expr.toList) with
    | none => simp only [SwitchNode.evaluateExpression, hcomparison, hfield]
    | some field => simp only [SwitchNode.evaluateExpression, hcomparison, hfield]

end Agree

def wholeOps : ValueOps ℕ where
  fromSlice _ := none
  render _ := ""
  asF64 literal := parseUnsigned 10 literal.toList
  parseF64 := parseUnsigned 10
  lt a b := a < b
  le a b := a ≤ b
  isZero n := n = 0
  isAlphanumeric := Char.isAlphanum

theorem threshold_agrees :
    LoopNode.evaluateExpression wholeOps " $.score >= 3" (.object [("score", .number "4")]) 7 = true := by
  rw [← evaluators_agree wholeOps " $.score >= 3" (by decide) (.object [("score", .number "4")]) 7]
  decide

end Xerv
