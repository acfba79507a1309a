/-
# Expressions

The syntax of condition expressions: literals, variables, access to members and
elements, arithmetic, comparison, logic and the conditional.

* `Expr`: the syntax tree.
* `Expr.height`: the number of nodes on a longest path from the root.
* `ExprError`: why a text is no expression, or why an expression has no value.
* `maxSourceBytes`, `maxNesting`, `maxHeight`: the bounds that keep parsing and
  evaluation shallow.
-/

namespace ActionTree

/-- Operators in front of an operand. -/
inductive UnaryOp where
  | not
  | neg
  deriving DecidableEq

/-- Operators between two operands. -/
inductive BinaryOp where
  | and
  | or
  | strictEq
  | strictNe
  | eq
  | ne
  | lt
  | le
  | gt
  | ge
  | add
  | sub
  | mul
  | div
  | rem
  deriving DecidableEq

namespace UnaryOp

/-- The sign of the operator. -/
def symbol : UnaryOp → String
  | not => "!"
  | neg => "-"

/-- Every operator. -/
def all : List UnaryOp := [not, neg]

/-- The operator with that sign. -/
def ofSymbol? (symbol : String) : Option UnaryOp :=
  all.find? (·.symbol = symbol)

end UnaryOp

namespace BinaryOp

/-- The sign of the operator. -/
def symbol : BinaryOp → String
  | and => "&&"
  | or => "||"
  | strictEq => "==="
  | strictNe => "!=="
  | eq => "=="
  | ne => "!="
  | lt => "<"
  | le => "<="
  | gt => ">"
  | ge => ">="
  | add => "+"
  | sub => "-"
  | mul => "*"
  | div => "/"
  | rem => "%"

/-- Every operator. -/
def all : List BinaryOp :=
  [and, or, strictEq, strictNe, eq, ne, lt, le, gt, ge, add, sub, mul, div, rem]

/-- The operator with that sign. -/
def ofSymbol? (symbol : String) : Option BinaryOp :=
  all.find? (·.symbol = symbol)

end BinaryOp

/-- A condition expression. -/
inductive Expr where
  | null
  | bool (value : Bool)
  | num (value : Float)
  | str (value : String)
  | ident (name : String)
  | member (object : Expr) (property : String)
  | index (object : Expr) (position : Expr)
  | unary (op : UnaryOp) (operand : Expr)
  | binary (op : BinaryOp) (left : Expr) (right : Expr)
  | ternary (condition : Expr) (consequent : Expr) (alternate : Expr)
  deriving Inhabited

/-- The number of nodes on a longest path from the root down; 1 for a literal or a
variable. -/
def Expr.height : Expr → Nat
  | null | bool _ | num _ | str _ | ident _ => 1
  | member object _ => object.height + 1
  | index object position => max object.height position.height + 1
  | unary _ operand => operand.height + 1
  | binary _ left right => max left.height right.height + 1
  | ternary condition consequent alternate =>
    max condition.height (max consequent.height alternate.height) + 1

/-- Why a text is no expression, or why an expression has no value. -/
inductive ExprError where
  | invalid (source : String)
  | unresolved (name : String)
  | nullAccess (property : String)
  | tooLong (limit : Nat)
  | tooDeep (limit : Nat)
  deriving DecidableEq

/-- The wording of an error. What is wrong with a text that is no expression is told by
`explain`. -/
def ExprError.message (explain : String → String) : ExprError → String
  | invalid source => "invalid expression: " ++ explain source
  | unresolved name => name ++ " is not defined"
  | nullAccess property => "cannot read property '" ++ property ++ "' of null"
  | tooLong limit => "expression longer than " ++ toString limit ++ " bytes"
  | tooDeep limit => "expression nested too deeply (limit " ++ toString limit ++ ")"

/-- The longest text of an expression, in bytes of UTF-8. -/
def maxSourceBytes : Nat := 4096

/-- How many brackets and question marks may be open at once in the text. -/
def maxNesting : Nat := 16

/-- The greatest height of an expression. -/
def maxHeight : Nat := 64

end ActionTree
