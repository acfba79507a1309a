/-
# Writing JSON text

* `Json.compact`: the value on one line without blanks.
* `Json.pretty`: one field or item a line, indented by two blanks a level; an
  empty object or array stays on its line.

Fields are written in the order in which they stand. Only the quote, the
backslash and control characters are escaped.
-/
import ActionTree.Decimal.Layout
import ActionTree.Json.Basic

namespace ActionTree

/-- A number keeps a point; it is positional if the exponent of its leading digit
lies between -5 and 15, and has a signed exponent otherwise. A half goes to the
even digit. -/
def Number.layout : Decimal.Layout :=
  ⟨.even, some (-5, 15), true⟩

/-- The text of a number. -/
def Number.text : Number → String
  | .int n _ => (if n < 0 then "-" else "") ++ Decimal.digitsText n.natAbs
  | .float x _ => layout.render x

namespace Json

/-- A hexadecimal digit in lower case. -/
def hexDigit (n : Nat) : Char :=
  Nat.digitChar (n % 16)

/-- A character inside quotes. -/
def escape : Char → List Char
  | '"' => ['\\', '"']
  | '\\' => ['\\', '\\']
  | '\x08' => ['\\', 'b']
  | '\x0c' => ['\\', 'f']
  | '\n' => ['\\', 'n']
  | '\r' => ['\\', 'r']
  | '\t' => ['\\', 't']
  | c =>
    if c.toNat < 0x20 then ['\\', 'u', '0', '0', hexDigit (c.toNat / 16), hexDigit c.toNat]
    else [c]

/-- A text in quotes. -/
def quote (text : String) : String :=
  String.ofList ('"' :: text.toList.flatMap escape ++ ['"'])

mutual

/-- The text of a value on one line. -/
def compact : Json → String
  | null => "null"
  | bool true => "true"
  | bool false => "false"
  | num n => n.text
  | str s => quote s
  | arr items => "[" ++ compactItems items ++ "]"
  | obj fields => "\x7b" ++ compactFields fields ++ "\x7d"

/-- Items with commas between them. -/
def compactItems : List Json → String
  | [] => ""
  | [item] => compact item
  | item :: next :: rest => compact item ++ "," ++ compactItems (next :: rest)

/-- Fields with commas between them. -/
def compactFields : List (String × Json) → String
  | [] => ""
  | [(name, value)] => quote name ++ ":" ++ compact value
  | (name, value) :: next :: rest =>
    quote name ++ ":" ++ compact value ++ "," ++ compactFields (next :: rest)

end

/-- A new line with the indentation of a level. -/
def newLine (level : Nat) : String :=
  String.ofList ('\n' :: List.replicate (2 * level) ' ')

mutual

/-- The text of a value over several lines, inside so many levels. -/
def prettyAt (level : Nat) : Json → String
  | arr [] => "[]"
  | arr (item :: rest) =>
    "[" ++ newLine (level + 1) ++ prettyItems (level + 1) (item :: rest) ++ newLine level ++ "]"
  | obj [] => "\x7b\x7d"
  | obj (field :: rest) =>
    "\x7b" ++ newLine (level + 1) ++ prettyFields (level + 1) (field :: rest) ++ newLine level
      ++ "\x7d"
  | null => compact null
  | bool b => compact (bool b)
  | num n => compact (num n)
  | str s => compact (str s)

/-- Items on lines of their own. -/
def prettyItems (level : Nat) : List Json → String
  | [] => ""
  | [item] => prettyAt level item
  | item :: next :: rest =>
    prettyAt level item ++ "," ++ newLine level ++ prettyItems level (next :: rest)

/-- Fields on lines of their own. -/
def prettyFields (level : Nat) : List (String × Json) → String
  | [] => ""
  | [(name, value)] => quote name ++ ": " ++ prettyAt level value
  | (name, value) :: next :: rest =>
    quote name ++ ": " ++ prettyAt level value ++ "," ++ newLine level
      ++ prettyFields level (next :: rest)

end

/-- The text of a value over several lines. -/
def pretty (json : Json) : String :=
  prettyAt 0 json

end Json
end ActionTree
