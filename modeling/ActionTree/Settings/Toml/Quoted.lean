/-
# Quoted text and names in TOML

* `readBasic?`, `readLiteral?`: text in quotes on one line, with escapes and
  without.
* `readBasicLines?`, `readLiteralLines?`: the same over several lines, in three
  quotes.
* `readText?`: text in any quotes.
* `readPath?`: a path of names with points between them.
-/
import ActionTree.Text.Hex

namespace ActionTree.Toml

open Text (scalar?)

/-- The blanks inside a line. -/
def isBlank (c : Char) : Bool :=
  c = ' ' || c = '\t'

/-- The text without the blanks in front. -/
def skipBlank (text : List Char) : List Char :=
  text.dropWhile isBlank

/-- Characters that stand for themselves in quotes and in comments: all but the
control characters, of which only the tab is allowed. -/
def isPlain (c : Char) : Bool :=
  c = '\t' || (0x20 ≤ c.toNat && c.toNat != 0x7F)

/-! ### Escapes -/

/-- The character that a letter behind a backslash stands for. -/
def escaped? : Char → Option Char
  | 'b' => some '\x08'
  | 't' => some '\t'
  | 'n' => some '\n'
  | 'f' => some '\x0c'
  | 'r' => some '\r'
  | '"' => some '"'
  | '\\' => some '\\'
  | _ => none

/-! ### One line -/

/-- Reads text behind its opening double quote, up to the closing one. -/
def readBasic? (done : List Char) : List Char → Option (String × List Char)
  | [] => none
  | '"' :: rest => some (String.ofList done.reverse, rest)
  | '\\' :: 'u' :: a :: b :: c :: d :: rest => match scalar? [a, b, c, d] with
    | none => none
    | some c => readBasic? (c :: done) rest
  | '\\' :: 'U' :: a :: b :: c :: d :: e :: f :: g :: h :: rest =>
    match scalar? [a, b, c, d, e, f, g, h] with
    | none => none
    | some c => readBasic? (c :: done) rest
  | '\\' :: c :: rest => match escaped? c with
    | none => none
    | some c => readBasic? (c :: done) rest
  | c :: rest => if c != '\\' && isPlain c then readBasic? (c :: done) rest else none

/-- Reads text behind its opening single quote, up to the closing one. -/
def readLiteral? (done : List Char) : List Char → Option (String × List Char)
  | [] => none
  | '\'' :: rest => some (String.ofList done.reverse, rest)
  | c :: rest => if isPlain c then readLiteral? (c :: done) rest else none

/-! ### Several lines -/

/-- What a backslash at the end of a line leaves out: nothing, the blanks up to the
end of the line, or all blanks and line ends that follow. -/
inductive Fold where
  | none
  | line
  | lines
  deriving DecidableEq

/-- Reads text behind three double quotes. Up to two more quotes may stand in front
of the three that close it. -/
def readBasicLines? : Fold → List Char → List Char → Option (String × List Char)
  | _, _, [] => none
  | fold, done, '\r' :: '\n' :: rest => match fold with
    | .none => readBasicLines? .none ('\n' :: done) rest
    | .line | .lines => readBasicLines? .lines done rest
  | fold, done, '\n' :: rest => match fold with
    | .none => readBasicLines? .none ('\n' :: done) rest
    | .line | .lines => readBasicLines? .lines done rest
  | .line, done, c :: rest => if isBlank c then readBasicLines? .line done rest else none
  | _, done, '"' :: '"' :: '"' :: '"' :: '"' :: rest =>
    some (String.ofList ('"' :: '"' :: done).reverse, rest)
  | _, done, '"' :: '"' :: '"' :: '"' :: rest => some (String.ofList ('"' :: done).reverse, rest)
  | _, done, '"' :: '"' :: '"' :: rest => some (String.ofList done.reverse, rest)
  | _, done, '\\' :: 'u' :: a :: b :: c :: d :: rest => match scalar? [a, b, c, d] with
    | none => none
    | some c => readBasicLines? .none (c :: done) rest
  | _, done, '\\' :: 'U' :: a :: b :: c :: d :: e :: f :: g :: h :: rest =>
    match scalar? [a, b, c, d, e, f, g, h] with
    | none => none
    | some c => readBasicLines? .none (c :: done) rest
  | _, done, '\\' :: '\n' :: rest => readBasicLines? .lines done rest
  | _, done, '\\' :: '\r' :: '\n' :: rest => readBasicLines? .lines done rest
  | _, done, '\\' :: c :: rest =>
    if isBlank c then readBasicLines? .line done rest
    else match escaped? c with
      | none => none
      | some c => readBasicLines? .none (c :: done) rest
  | fold, done, c :: rest =>
    if fold = .lines && isBlank c then readBasicLines? .lines done rest
    else if c != '\\' && isPlain c then readBasicLines? .none (c :: done) rest
    else none

/-- Reads text behind three single quotes. -/
def readLiteralLines? (done : List Char) : List Char → Option (String × List Char)
  | [] => none
  | '\r' :: '\n' :: rest => readLiteralLines? ('\n' :: done) rest
  | '\n' :: rest => readLiteralLines? ('\n' :: done) rest
  | '\'' :: '\'' :: '\'' :: '\'' :: '\'' :: rest =>
    some (String.ofList ('\'' :: '\'' :: done).reverse, rest)
  | '\'' :: '\'' :: '\'' :: '\'' :: rest => some (String.ofList ('\'' :: done).reverse, rest)
  | '\'' :: '\'' :: '\'' :: rest => some (String.ofList done.reverse, rest)
  | c :: rest => if isPlain c then readLiteralLines? (c :: done) rest else none

/-- The text without a line end in front. -/
def skipLineEnd : List Char → List Char
  | '\n' :: rest => rest
  | '\r' :: '\n' :: rest => rest
  | text => text

/-- Reads text in quotes. A line end right behind three opening quotes does not
count. -/
def readText? : List Char → Option (String × List Char)
  | '"' :: '"' :: '"' :: rest => readBasicLines? .none [] (skipLineEnd rest)
  | '\'' :: '\'' :: '\'' :: rest => readLiteralLines? [] (skipLineEnd rest)
  | '"' :: rest => readBasic? [] rest
  | '\'' :: rest => readLiteral? [] rest
  | _ => none

/-! ### Names -/

/-- The characters of a name without quotes. -/
def isNameChar (c : Char) : Bool :=
  c.isAlphanum || c = '_' || c = '-'

/-- Reads a name, in quotes or without. -/
def readName? : List Char → Option (String × List Char)
  | '"' :: rest => readBasic? [] rest
  | '\'' :: rest => readLiteral? [] rest
  | text =>
    let name := text.takeWhile isNameChar
    if name.isEmpty then none else some (String.ofList name, text.dropWhile isNameChar)

/-- Reads at most so many names with points between them, and the blanks around
each. -/
def readNames? : Nat → List Char → Option (List String × List Char)
  | 0, _ => none
  | fuel + 1, text => do
    let (name, rest) ← readName? (skipBlank text)
    match skipBlank rest with
    | '.' :: rest =>
      let (names, rest) ← readNames? fuel rest
      some (name :: names, rest)
    | rest => some ([name], rest)

/-- How many names a path may have, and how deep arrays and tables may nest inside
a value. -/
def nestingLimit : Nat := 79

/-- Reads a path of names. -/
def readPath? (text : List Char) : Option (List String × List Char) :=
  readNames? nestingLimit text

end ActionTree.Toml
