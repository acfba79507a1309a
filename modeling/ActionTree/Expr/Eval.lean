/-
# Evaluation of expressions

* `BinaryOp.apply`: the value of an operator on two values.
* `Expr.evalAt`: the value of an expression that lies so many nodes below the
  root; below `maxHeight` nodes there is none.
* `Expr.eval`: the value of an expression.
* `Expr.evaluate`, `Expr.holds`: the value of a text, and the value as a condition.
-/
import ActionTree.Context
import ActionTree.Expr.Parser
import ActionTree.Expr.Value

namespace ActionTree

namespace Value

/-- How two numbers compare; not at all if one of them is NaN. -/
def compareNumbers? (x y : Float) : Option Ordering :=
  if x < y then some .lt
  else if x == y then some .eq
  else if y < x then some .gt
  else none

/-- How two values compare: texts by their characters, all else as numbers. -/
def compare? : Value → Value → Option Ordering
  | str a, str b => some (compare a b)
  | a, b => compareNumbers? a.toNumber b.toNumber

/-- Equality of kind and content. -/
def strictEquals (a b : Value) : Bool :=
  a == b

/-- Equality across kinds: numbers, texts and truth values of different kinds are
compared as numbers, null equals only null, all else is compared strictly. -/
def looseEquals : Value → Value → Bool
  | null, null => true
  | null, _ => false
  | _, null => false
  | num a, str b => (num a).toNumber == (str b).toNumber
  | num a, bool b => (num a).toNumber == (bool b).toNumber
  | str a, num b => (str a).toNumber == (num b).toNumber
  | str a, bool b => (str a).toNumber == (bool b).toNumber
  | bool a, num b => (bool a).toNumber == (num b).toNumber
  | bool a, str b => (bool a).toNumber == (str b).toNumber
  | a, b => strictEquals a b

/-- The sum of two values, or their texts one behind the other if one of them is a
text. -/
def plus : Value → Value → Value
  | str a, b => str (a ++ b.display)
  | a, str b => str (a.display ++ b)
  | a, b => num (a.toNumber + b.toNumber)

end Value

/-- The value of an operator on a value. -/
def UnaryOp.apply : UnaryOp → Value → Value
  | not, value => .bool (!value.truthy)
  | neg, value => .num (-value.toNumber)

/-- The value of an operator on two values. For the logical operators it is one of
the two values. -/
def BinaryOp.apply : BinaryOp → Value → Value → Value
  | and, a, b => if a.truthy then b else a
  | or, a, b => if a.truthy then a else b
  | strictEq, a, b => .bool (a.strictEquals b)
  | strictNe, a, b => .bool (!a.strictEquals b)
  | eq, a, b => .bool (a.looseEquals b)
  | ne, a, b => .bool (!a.looseEquals b)
  | lt, a, b => .bool (a.compare? b == some .lt)
  | le, a, b => .bool ((a.compare? b).any Ordering.isLE)
  | gt, a, b => .bool (a.compare? b == some .gt)
  | ge, a, b => .bool ((a.compare? b).any Ordering.isGE)
  | add, a, b => a.plus b
  | sub, a, b => .num (a.toNumber - b.toNumber)
  | mul, a, b => .num (a.toNumber * b.toNumber)
  | div, a, b => .num (a.toNumber / b.toNumber)
  | rem, a, b => .num (Binary64.remainder a.toNumber b.toNumber)

/-- Whether the value of the left operand alone decides the value of an operation,
so that the right operand is left out. -/
def BinaryOp.decides : BinaryOp → Value → Bool
  | and, left => !left.truthy
  | or, left => left.truthy
  | _, _ => false

namespace Expr

/-- The value of a variable. -/
def variableValue (context : Context) (name : String) : Except ExprError Value :=
  match context.get? name with
  | some json => .ok (.ofJson json)
  | none => .error (.unresolved name)

/-- The value of an expression that lies `depth` nodes below the root. Operands
are evaluated from left to right; one that is not needed is left out. -/
def evalAt (context : Context) (expr : Expr) (depth : Nat) : Except ExprError Value :=
  if maxHeight ≤ depth then .error (.tooDeep maxHeight)
  else match expr with
    | null => .ok .null
    | bool value => .ok (.bool value)
    | num value => .ok (.num value)
    | str value => .ok (.str value)
    | ident name => variableValue context name
    | member object property => do
      let object ← evalAt context object (depth + 1)
      object.property? property
    | index object position => do
      let object ← evalAt context object (depth + 1)
      let position ← evalAt context position (depth + 1)
      object.index? position
    | unary op operand => do
      let operand ← evalAt context operand (depth + 1)
      return op.apply operand
    | binary op left right => do
      let left ← evalAt context left (depth + 1)
      if op.decides left then return left
      else
        let right ← evalAt context right (depth + 1)
        return op.apply left right
    | ternary condition consequent alternate => do
      let condition ← evalAt context condition (depth + 1)
      if condition.truthy then evalAt context consequent (depth + 1)
      else evalAt context alternate (depth + 1)

/-- The value of an expression. -/
def eval (context : Context) (expr : Expr) : Except ExprError Value :=
  expr.evalAt context 0

/-- The value of the expression that a text describes. -/
def evaluate (context : Context) (source : String) : Except ExprError Value := do
  (← parse source).eval context

/-- Whether the condition that a text describes holds. -/
def holds (context : Context) (source : String) : Except ExprError Bool := do
  return (← evaluate context source).truthy

end Expr
end ActionTree
