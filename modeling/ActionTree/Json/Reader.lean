/-
# Reading JSON text

* `Json.read?`: the value that a text describes, if arrays and objects nest at
  most so deep. Blanks may surround the value; of two fields with one name the
  later counts.
* `Json.ofText?`: the same for a document, where at most 127 levels may nest.
-/
import ActionTree.Decimal.Significand
import ActionTree.Json.Basic
import ActionTree.Text.Hex

namespace ActionTree.Json

open Decimal (Numeral scanDigits scanExponent?)
open Text (hexValue?)

/-- The blanks between tokens. -/
def isBlank (c : Char) : Bool :=
  c = ' ' || c = '\t' || c = '\n' || c = '\r'

/-- The text without the blanks in front. -/
def skipBlank (text : List Char) : List Char :=
  text.dropWhile isBlank

/-! ### Strings -/

/-- The UTF-16 unit of four hexadecimal digits. -/
def unit? (a b c d : Char) : Option Nat := do
  return (((← hexValue? a) * 16 + (← hexValue? b)) * 16 + (← hexValue? c)) * 16 + (← hexValue? d)

/-- The character that stands for itself after a backslash, or the control
character that a letter names. -/
def escaped? : Char → Option Char
  | '"' => some '"'
  | '\\' => some '\\'
  | '/' => some '/'
  | 'b' => some '\x08'
  | 'f' => some '\x0c'
  | 'n' => some '\n'
  | 'r' => some '\r'
  | 't' => some '\t'
  | _ => none

/-- Reads a string behind its opening quote, up to the closing one. A control
character must be escaped; a surrogate must have its partner behind it. -/
def readString? (done : List Char) : List Char → Option (String × List Char)
  | [] => none
  | '"' :: rest => some (String.ofList done.reverse, rest)
  | '\\' :: 'u' :: a :: b :: c :: d :: rest => match unit? a b c d with
    | none => none
    | some high =>
      if 0xD800 ≤ high && high < 0xDC00 then match rest with
        | '\\' :: 'u' :: e :: f :: g :: h :: rest => match unit? e f g h with
          | none => none
          | some low =>
            if 0xDC00 ≤ low && low < 0xE000 then
              let code := 0x10000 + (high - 0xD800) * 0x400 + (low - 0xDC00)
              readString? (Char.ofNat code :: done) rest
            else none
        | _ => none
      else if 0xDC00 ≤ high && high < 0xE000 then none
      else readString? (Char.ofNat high :: done) rest
  | '\\' :: c :: rest => match escaped? c with
    | none => none
    | some c => readString? (c :: done) rest
  | c :: rest => if c = '\\' || c.toNat < 0x20 then none else readString? (c :: done) rest

/-! ### Numbers -/

/-- Reads the digits in front of the point: a zero alone, or digits that do not
begin with one. -/
def readWhole? : List Char → Option (List Char × List Char)
  | '0' :: c :: rest => if c.isDigit then none else some (['0'], c :: rest)
  | text =>
    let (digits, rest) := scanDigits text
    if digits.isEmpty then none else some (digits, rest)

/-- Reads the digits behind the point, if a point follows. -/
def readFraction? : List Char → Option (Option (List Char) × List Char)
  | '.' :: text =>
    let (digits, rest) := scanDigits text
    if digits.isEmpty then none else some (some digits, rest)
  | text => some (none, text)

/-- Reads an exponent, if its letter follows. -/
def readExponent? : List Char → Option (Option Int × List Char)
  | c :: rest =>
    if c = 'e' || c = 'E' then
      (scanExponent? (c :: rest)).map fun (exponent, rest) => (some exponent, rest)
    else some (none, c :: rest)
  | [] => some (none, [])

/-- A number from its parts. Without a point and exponent it is an integer if it
fits; a minus in front of zero makes a binary64 number. -/
def number? (negative : Bool) (whole : List Char) (fraction : Option (List Char))
    (exponent : Option Int) : Option Number :=
  let numeral : Numeral := ⟨whole, fraction.getD [], exponent.getD 0⟩
  let float : Option Number := do
    let x ← numeral.approximate?
    Number.ofFloat? (if negative then -x else x)
  match fraction, exponent with
  | none, none =>
    let n := Decimal.ofDigits whole
    if negative then
      if 0 < n && n ≤ 0x8000000000000000 then Number.ofInt? (-n) else float
    else if n < 0x10000000000000000 then Number.ofInt? n else float
  | _, _ => float

/-- Reads a number. -/
def readNumber? (text : List Char) : Option (Number × List Char) := do
  let (negative, text) := match text with
    | '-' :: rest => (true, rest)
    | text => (false, text)
  let (whole, text) ← readWhole? text
  let (fraction, text) ← readFraction? text
  let (exponent, text) ← readExponent? text
  return (← number? negative whole fraction exponent, text)

/-! ### Values -/

mutual

/-- Reads a value whose first character stands in front. At most `depth` arrays
and objects may be open inside it. -/
def readValue? : Nat → Nat → List Char → Option (Json × List Char)
  | 0, _, _ => none
  | fuel + 1, depth, text => match text with
    | 'n' :: 'u' :: 'l' :: 'l' :: rest => some (.null, rest)
    | 't' :: 'r' :: 'u' :: 'e' :: rest => some (.bool true, rest)
    | 'f' :: 'a' :: 'l' :: 's' :: 'e' :: rest => some (.bool false, rest)
    | '"' :: rest => (readString? [] rest).map fun (value, rest) => (.str value, rest)
    | '[' :: rest => match depth with
      | 0 => none
      | depth + 1 => match skipBlank rest with
        | ']' :: rest => some (.arr [], rest)
        | rest => readItems? fuel depth [] rest
    | '{' :: rest => match depth with
      | 0 => none
      | depth + 1 => match skipBlank rest with
        | '}' :: rest => some (.obj [], rest)
        | rest => readFields? fuel depth [] rest
    | text => (readNumber? text).map fun (number, rest) => (.num number, rest)

/-- Reads the items of an array from the next one on, and the closing bracket. -/
def readItems? : Nat → Nat → List Json → List Char → Option (Json × List Char)
  | 0, _, _, _ => none
  | fuel + 1, depth, done, text => match readValue? fuel depth text with
    | none => none
    | some (item, rest) => match skipBlank rest with
      | ',' :: rest => readItems? fuel depth (item :: done) (skipBlank rest)
      | ']' :: rest => some (.arr (item :: done).reverse, rest)
      | _ => none

/-- Reads the fields of an object from the next one on, and the closing brace. -/
def readFields? : Nat → Nat → List (String × Json) → List Char → Option (Json × List Char)
  | 0, _, _, _ => none
  | fuel + 1, depth, done, text => match text with
    | '"' :: rest => match readString? [] rest with
      | none => none
      | some (name, rest) => match skipBlank rest with
        | ':' :: rest => match readValue? fuel depth (skipBlank rest) with
          | none => none
          | some (value, rest) => match skipBlank rest with
            | ',' :: rest => readFields? fuel depth ((name, value) :: done) (skipBlank rest)
            | '}' :: rest => some (.object ((name, value) :: done).reverse, rest)
            | _ => none
        | _ => none
    | _ => none

end

/-- The value that a text describes, if at most `depth` arrays and objects are
open at once. Each step of the reader uses up a character or comes before one
that does, so twice the length of the text is fuel enough. -/
def read? (depth : Nat) (text : String) : Option Json :=
  let chars := text.toList
  match readValue? (2 * chars.length + 2) depth (skipBlank chars) with
  | some (value, rest) => if (skipBlank rest).isEmpty then some value else none
  | none => none

/-- How many arrays and objects may be open at once in a document. -/
def documentDepth : Nat := 127

/-- The value that the text of a document describes. -/
def ofText? (text : String) : Option Json :=
  read? documentDepth text

end ActionTree.Json
