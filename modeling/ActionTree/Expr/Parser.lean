/-
# Parsing expressions

A parser takes an expression off the front of a row of tokens. From the loosest
to the tightest, an expression is a conditional, a chain of operands joined by
operators of one level, an operand with operators in front, a chain of
accesses, or a literal, a variable or an expression in parentheses.

The height of an expression is counted while it is put together, and an expression that
grows beyond the bound is refused, but only after the whole text was found to be one.

* `Expr.Built`: an expression with the height that was counted for it.
* `Expr.levels`: the binary operators by how tightly they bind.
* `Expr.takeTernary`: the parser, for expressions nested at most so deep.
* `Expr.ofTokens?`: the expression that a whole row of tokens forms.
* `Expr.parse`: the expression of a text, within all bounds.
-/
import ActionTree.Expr.Nesting

namespace ActionTree.Expr

/-! ### Putting expressions together -/

/-- The height of a node whose highest child has a height, if it keeps the bound. -/
def grow (children : Nat) : Except ExprError Nat :=
  if maxHeight < children + 1 then .error (.tooDeep maxHeight) else .ok (children + 1)

/-- An expression that was put together, and the height that was counted meanwhile. The
first node above the bound ends the count. -/
structure Built where
  expr : Expr
  height : Except ExprError Nat

namespace Built

/-- An expression without parts. -/
def leaf (expr : Expr) : Built :=
  ⟨expr, .ok 1⟩

/-- A member of an object. -/
def member (object : Built) (name : String) : Built :=
  ⟨.member object.expr name, do grow (← object.height)⟩

/-- What an object has at a position. -/
def index (object position : Built) : Built :=
  ⟨.index object.expr position.expr, do
    let above ← object.height
    let inside ← position.height
    grow (max above inside)⟩

/-- An operator in front of an operand. -/
def unary (op : UnaryOp) (operand : Built) : Built :=
  ⟨.unary op operand.expr, do grow (← operand.height)⟩

/-- An operator between two operands. -/
def binary (op : BinaryOp) (left right : Built) : Built :=
  ⟨.binary op left.expr right.expr, do
    let before ← left.height
    let behind ← right.height
    grow (max before behind)⟩

/-- A conditional. -/
def ternary (condition consequent alternate : Built) : Built :=
  ⟨.ternary condition.expr consequent.expr alternate.expr, do
    let first ← condition.height
    let second ← consequent.height
    let third ← alternate.height
    grow (max (max first second) third)⟩

/-- The expression, if its height was counted to the end. -/
def finish (built : Built) : Except ExprError Expr :=
  built.height.map fun _ => built.expr

end Built

/-- What takes an expression off the front of a row of tokens. -/
abbrev Parser := List Token → Option (Built × List Token)

/-- The binary operators from the loosest level to the tightest. Operators of one
level are applied from left to right. -/
def levels : List (List BinaryOp) :=
  [[.or], [.and], [.strictEq, .strictNe, .eq, .ne], [.le, .ge, .lt, .gt], [.add, .sub],
    [.mul, .div, .rem]]

/-! ### Operands -/

/-- A literal, a variable or an expression in parentheses. -/
def takePrimary (inner : Parser) : Parser
  | .null :: rest => some (.leaf null, rest)
  | .bool value :: rest => some (.leaf (bool value), rest)
  | .num value :: rest => some (.leaf (num value), rest)
  | .str value :: rest => some (.leaf (str value), rest)
  | .ident name :: rest => some (.leaf (ident name), rest)
  | .openParen :: rest => match inner rest with
    | some (built, .closeParen :: rest) => some (built, rest)
    | _ => none
  | _ => none

/-- Applies the accesses that follow to an object: a name behind a point, or an
expression in brackets. -/
def takeAccesses (inner : Parser) : Nat → Built → Parser
  | fuel + 1, object, .dot :: .ident name :: rest =>
    takeAccesses inner fuel (object.member name) rest
  | fuel + 1, object, .openBracket :: rest => match inner rest with
    | some (position, .closeBracket :: rest) => takeAccesses inner fuel (object.index position) rest
    | _ => none
  | _, object, rest => some (object, rest)

/-- A primary expression with accesses. Each access takes a token, so their number
is bounded by that of the tokens. -/
def takeAccessed (inner : Parser) : Parser := fun tokens =>
  match takePrimary inner tokens with
  | some (object, rest) => takeAccesses inner rest.length object rest
  | none => none

/-- An operand with operators in front; the innermost is applied first. -/
def takePrefixed (inner : Parser) : Parser
  | .not :: rest =>
    (takePrefixed inner rest).map fun (operand, rest) => (.unary .not operand, rest)
  | .op .sub :: rest =>
    (takePrefixed inner rest).map fun (operand, rest) => (.unary .neg operand, rest)
  | tokens => takeAccessed inner tokens

/-! ### Chains -/

/-- Applies the operators of a level that follow, with their right operands, to a
left operand. -/
def takeChain (level : List BinaryOp) (operand : Parser) : Nat → Built → Parser
  | fuel + 1, left, .op op :: rest =>
    if op ∈ level then match operand rest with
      | some (right, rest) => takeChain level operand fuel (.binary op left right) rest
      | none => none
    else some (left, .op op :: rest)
  | _, left, rest => some (left, rest)

/-- An operand, or operands joined by operators of the given levels. -/
def takeJoined (operand : Parser) : List (List BinaryOp) → Parser
  | [] => operand
  | level :: tighter => fun tokens => match takeJoined operand tighter tokens with
    | some (left, rest) => takeChain level (takeJoined operand tighter) rest.length left rest
    | none => none

/-! ### Conditionals -/

/-- A conditional, or a chain alone. Inside the expression at most `depth - 1`
others may be open at once: in parentheses, in brackets or behind a question
mark. -/
def takeTernary : Nat → Parser
  | 0 => fun _ => none
  | depth + 1 => fun tokens =>
    match takeJoined (takePrefixed (takeTernary depth)) levels tokens with
    | some (condition, .question :: rest) => match takeTernary depth rest with
      | some (consequent, .colon :: rest) => match takeTernary depth rest with
        | some (alternate, rest) => some (.ternary condition consequent alternate, rest)
        | none => none
      | _ => none
    | result => result

/-- The expression that a row of tokens forms, if at most `depth` are open at
once. -/
def ofTokensWithin? (depth : Nat) (tokens : List Token) : Option Built :=
  match takeTernary depth tokens with
  | some (built, []) => some built
  | _ => none

/-- The expression that a row of tokens forms. One more is opened only behind a
token, so the number of tokens bounds the depth. -/
def ofTokens? (tokens : List Token) : Option Built :=
  ofTokensWithin? (tokens.length + 1) tokens

/-! ### Texts -/

/-- The bounds that a text must keep before it is parsed. -/
def checkLimits (source : String) : Except ExprError Unit :=
  if maxSourceBytes < source.utf8ByteSize then .error (.tooLong maxSourceBytes)
  else if Nesting.admits maxNesting source.toList then .ok ()
  else .error (.tooDeep maxNesting)

/-- The expression of a text. -/
def parse (source : String) : Except ExprError Expr := do
  checkLimits source
  match ofTokens? (Token.ofChars source.toList) with
  | none => .error (.invalid source)
  | some built => built.finish

end ActionTree.Expr
