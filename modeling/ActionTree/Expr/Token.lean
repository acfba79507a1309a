/-
# Tokens of expressions

A text of an expression is a row of tokens with blanks between them. A token
takes as many characters as it can.

* `Token`: the tokens, literals already decoded.
* `Token.scan?`: takes one token off the front of a text.
* `Token.ofChars`: the tokens of a text. At a character that begins no token
  the row ends with the token `invalid`, which no expression holds.
-/
import ActionTree.Decimal.Numeral
import ActionTree.Expr.Basic

namespace ActionTree

/-- A token of an expression. -/
inductive Token where
  | null
  | bool (value : Bool)
  | num (value : Float)
  | str (value : String)
  | ident (name : String)
  | op (op : BinaryOp)
  | not
  | question
  | colon
  | dot
  | openParen
  | closeParen
  | openBracket
  | closeBracket
  | invalid

namespace Token

/-- The blanks between tokens. -/
def isBlank (c : Char) : Bool :=
  c = ' ' || c = '\t' || c = '\r' || c = '\n'

/-! ### Names and keywords -/

/-- The characters that begin a name. -/
def isNameStart (c : Char) : Bool :=
  c.isAlpha || c = '_' || c = '$'

/-- The characters of a name. -/
def isNameChar (c : Char) : Bool :=
  c.isAlphanum || c = '_' || c = '$'

/-- The token of a word. Three words are literals and no names. -/
def ofWord (word : List Char) : Token :=
  match String.ofList word with
  | "true" => bool true
  | "false" => bool false
  | "null" => null
  | name => ident name

/-! ### Numbers -/

/-- Takes the digits behind a point off the front of a text. A point that no
digit follows is left where it is. -/
def scanFraction : List Char → List Char × List Char
  | '.' :: c :: rest => if c.isDigit then Decimal.scanDigits (c :: rest) else ([], '.' :: c :: rest)
  | text => ([], text)

/-- Takes a numeral off the front of a text that begins with a digit. A letter `e`
that begins no exponent is left where it is. -/
def scanNumeral (text : List Char) : Decimal.Numeral × List Char :=
  let (whole, rest) := Decimal.scanDigits text
  let (fraction, rest) := scanFraction rest
  match Decimal.scanExponent? rest with
  | some (exponent, rest) => (⟨whole, fraction, exponent⟩, rest)
  | none => (⟨whole, fraction, 0⟩, rest)

/-! ### Strings -/

/-- The quotes around a string. -/
def isQuote (c : Char) : Bool :=
  c = '"' || c = '\''

/-- What a character behind a backslash stands for. -/
def unescape : Char → Char
  | 'n' => '\n'
  | 't' => '\t'
  | 'r' => '\r'
  | '0' => '\x00'
  | c => c

/-- Reads a string behind its opening quote, up to the next such quote that has no
backslash in front. -/
def scanString? (quote : Char) : List Char → Option (List Char × List Char)
  | [] => none
  | '\\' :: [] => none
  | '\\' :: c :: rest => (scanString? quote rest).map fun (body, rest) => (unescape c :: body, rest)
  | c :: rest =>
    if c = quote then some ([], rest)
    else (scanString? quote rest).map fun (body, rest) => (c :: body, rest)

/-! ### Signs -/

/-- Takes a sign off the front of a text, the longest that fits. -/
def scanSign? : List Char → Option (Token × List Char)
  | '|' :: '|' :: rest => some (op .or, rest)
  | '&' :: '&' :: rest => some (op .and, rest)
  | '=' :: '=' :: '=' :: rest => some (op .strictEq, rest)
  | '=' :: '=' :: rest => some (op .eq, rest)
  | '!' :: '=' :: '=' :: rest => some (op .strictNe, rest)
  | '!' :: '=' :: rest => some (op .ne, rest)
  | '!' :: rest => some (not, rest)
  | '<' :: '=' :: rest => some (op .le, rest)
  | '<' :: rest => some (op .lt, rest)
  | '>' :: '=' :: rest => some (op .ge, rest)
  | '>' :: rest => some (op .gt, rest)
  | '+' :: rest => some (op .add, rest)
  | '-' :: rest => some (op .sub, rest)
  | '*' :: rest => some (op .mul, rest)
  | '/' :: rest => some (op .div, rest)
  | '%' :: rest => some (op .rem, rest)
  | '?' :: rest => some (question, rest)
  | ':' :: rest => some (colon, rest)
  | '.' :: rest => some (dot, rest)
  | '(' :: rest => some (openParen, rest)
  | ')' :: rest => some (closeParen, rest)
  | '[' :: rest => some (openBracket, rest)
  | ']' :: rest => some (closeBracket, rest)
  | _ => none

/-! ### Rows of tokens -/

/-- Takes one token off the front of a text. -/
def scan? : List Char → Option (Token × List Char)
  | [] => none
  | c :: rest =>
    if c.isDigit then
      let (numeral, rest) := scanNumeral (c :: rest)
      some (num numeral.toFloat, rest)
    else if isNameStart c then
      some (ofWord ((c :: rest).takeWhile isNameChar), (c :: rest).dropWhile isNameChar)
    else if isQuote c then
      (scanString? c rest).map fun (body, rest) => (str (String.ofList body), rest)
    else scanSign? (c :: rest)

/-- The tokens of a text, at most so many. -/
def take : Nat → List Char → List Token
  | 0, _ => []
  | count + 1, text => match text.dropWhile isBlank with
    | [] => []
    | c :: rest => match scan? (c :: rest) with
      | none => [invalid]
      | some (token, rest) => token :: take count rest

/-- The tokens of a text. A token has at least one character, so there are no more
of them than characters. -/
def ofChars (text : List Char) : List Token :=
  take text.length text

end Token
end ActionTree
