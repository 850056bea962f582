import Xerv.Core.Types
import Xerv.Core.Value
import Xerv.Lib.Table

/-!
# The loop node (`xerv-nodes/src/flow/loop_node.rs`)

`LoopNode` decides on every execution whether to exit: by its limit, or by its
condition on the input and on the iteration counter of the `Context`
(`xerv-core/src/traits/context.rs`). The counter is increased only below the
limit, a `u32`, and does not overflow.
-/

namespace Xerv
open Xerv.Lib

inductive LoopCondition where
  | maxIterations (max : ℕ)
  | untilFieldEquals (field value : String)
  | untilTrue (field : String)
  | untilFalse (field : String)
  | untilExpression (expr : String)
  deriving DecidableEq, Repr

structure LoopNode where
  condition : LoopCondition
  maxIterations : ℕ
  deriving DecidableEq, Repr

inductive Operator where
  | ge | le | eq | ne | gt | lt | assign
  deriving DecidableEq, Repr

def Operator.text : Operator → List Char
  | .ge => ['>', '=']
  | .le => ['<', '=']
  | .eq => ['=', '=']
  | .ne => ['!', '=']
  | .gt => ['>']
  | .lt => ['<']
  | .assign => ['=']

def iterationText : List Char := "$\x7biteration\x7d".toList

namespace LoopNode
variable {F : Type} (ops : ValueOps F)

def parseFieldRef (cs : List Char) : Option String :=
  let cs := trim cs
  if cs = iterationText then none
  else if ['$', '\x7b'].isPrefixOf cs && ['\x7d'].isSuffixOf cs then
    some (String.ofList (cs.drop 2).dropLast)
  else
    match stripPrefix ['$', '.'] cs with
    | some stripped => some (String.ofList stripped)
    | none =>
      if cs ≠ [] && cs.all fun c => ops.isAlphanumeric c || c = '_' || c = '.' then
        some (String.ofList cs)
      else none

/-- The first operator, in this order, that the text contains behind a field reference. -/
def parseComparison (expr : List Char) : Option (String × Operator × List Char) :=
  [Operator.ge, .le, .eq, .ne, .gt, .lt, .assign].findSome? fun op =>
    (splitAtText op.text expr).bind fun p =>
      (parseFieldRef ops (trim p.1)).map fun field => (field, op, trim p.2)

def compareIteration (iteration threshold : ℕ) : Operator → Bool
  | .ge => threshold ≤ iteration
  | .le => iteration ≤ threshold
  | .eq => iteration = threshold
  | .ne => iteration ≠ threshold
  | .gt => threshold < iteration
  | .lt => iteration < threshold
  | .assign => false

def evaluateIterationExpr (expr : List Char) (iteration : ℕ) : Bool :=
  ([Operator.ge, .le, .eq, .ne, .gt, .lt].findSome? fun op =>
    (splitAtText op.text expr).bind fun p =>
      if trim p.1 = iterationText then
        (parseBelow (2 ^ 32) (trim p.2)).map fun threshold => compareIteration iteration threshold op
      else none).getD false

/-- The literal of an equality, without its quotes. -/
def unquote (rhs : List Char) : String :=
  String.ofList (trimMatches (· = '\'') (trimMatches (· = '"') rhs))

def compareField (value : Json) (field : String) (rhs : List Char) (test : F → F → Bool) : Bool :=
  (ops.parseF64 rhs).any fun threshold => (value.getF64 ops field).any fun v => test v threshold

def evaluateComparison (value : Json) (field : String) (rhs : List Char) : Operator → Bool
  | .eq | .assign => value.fieldEquals ops field (unquote rhs)
  | .ne => !value.fieldEquals ops field (unquote rhs)
  | .gt => compareField ops value field rhs fun v threshold => ops.lt threshold v
  | .lt => compareField ops value field rhs ops.lt
  | .ge => compareField ops value field rhs fun v threshold => ops.le threshold v
  | .le => compareField ops value field rhs ops.le

def evaluateExpression (expr : String) (value : Json) (iteration : ℕ) : Bool :=
  let expr := trim expr.toList
  if (splitAtText iterationText expr).isSome then evaluateIterationExpr expr iteration
  else
    match parseComparison ops expr with
    | some (field, op, rhs) => evaluateComparison ops value field rhs op
    | none =>
      match parseFieldRef ops expr with
      | some field => value.fieldIsTrue ops field
      | none => false

def shouldExit (node : LoopNode) (value : Json) (iteration : ℕ) : Bool :=
  if node.maxIterations ≤ iteration then true
  else
    match node.condition with
    | .maxIterations max => max ≤ iteration
    | .untilFieldEquals field expected => value.fieldEquals ops field expected
    | .untilTrue field => value.fieldIsTrue ops field
    | .untilFalse field => value.fieldIsFalse ops field
    | .untilExpression expr => evaluateExpression ops expr value iteration

/-- The value at the input pointer; what cannot be read or parsed is null. -/
def readInput (arena : Table RelPtr Bytes) (input : RelPtr) : Json :=
  if input.offset = 0 then .null
  else
    match arena input with
    | none => .null
    | some bytes => (Json.fromBytes ops bytes).getD .null

def inputPtr (inputs : Table String RelPtr) : RelPtr := (inputs "in").getD RelPtr.null

/-- `Context::get_loop_iteration`. -/
def getLoopIteration (iterations : Table NodeId ℕ) (n : NodeId) : ℕ := (iterations n).getD 0

/-- `execute`: the output and the iteration counters of the context afterwards. -/
def execute (node : LoopNode) (n : NodeId) (arena : Table RelPtr Bytes) (iterations : Table NodeId ℕ)
    (inputs : Table String RelPtr) : NodeOutput × Table NodeId ℕ :=
  let input := inputPtr inputs
  let iteration := getLoopIteration iterations n
  if node.shouldExit ops (readInput ops arena input) iteration then
    (.complete "exit" input 0, iterations.remove n)
  else (.complete "continue" input 0, iterations.insert n (iteration + 1))

end LoopNode

end Xerv
