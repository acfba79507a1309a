/-
# Numbers, truth values and moments in TOML

* `number?`: an integer or a number with a point or exponent. Underscores may stand
  between digits.
* `readScalar?`: a number, truth value or moment off the front of a text.
-/
import ActionTree.Settings.Toml.Quoted
import ActionTree.Settings.Toml.Value

namespace ActionTree.Toml

open Decimal (Numeral scanSign signedExponent)

/-! ### Numbers -/

/-- The digits of a row in which single underscores may stand between digits. -/
def ungroup? (isDigit : Char → Bool) : List Char → Option (List Char)
  | [] => none
  | [c] => if isDigit c then some [c] else none
  | c :: '_' :: rest => if isDigit c then (ungroup? isDigit rest).map (c :: ·) else none
  | c :: rest => if isDigit c then (ungroup? isDigit rest).map (c :: ·) else none

/-- An integer that fits into 64 bits with a sign. -/
def integer? (n : Int) : Option Value :=
  if -0x8000000000000000 ≤ n && n < 0x8000000000000000 then some (.int n) else none

/-- An integer of digits to a base of 2, 8 or 16. -/
def based? (base : Nat) (digits : List Char) : Option Value := do
  let digits ← ungroup? (fun c => (Text.hexValue? c).any (· < base)) digits
  integer? (digits.foldl (fun n c => base * n + (Text.hexValue? c).getD 0) 0)

/-- The digits in front of the point: a zero alone, or digits that do not begin
with one. -/
def whole? (text : List Char) : Option (List Char) := do
  let digits ← ungroup? Char.isDigit text
  match digits with
  | '0' :: _ :: _ => none
  | digits => some digits

/-- A number too large for the format is refused. -/
def finite? (x : Float) : Option Value :=
  if x == 1.0 / 0.0 then none else some (.float x)

/-- Whether a character can stand in a row of digits. -/
def isGrouped (c : Char) : Bool :=
  c.isDigit || c = '_'

/-- The number with a sign, digits before and after the point and what follows
them: nothing, or an exponent. -/
def float? (negative : Bool) (whole fraction rest : List Char) : Option Value := do
  let exponent ← match rest with
    | [] => some 0
    | c :: rest =>
      if c = 'e' || c = 'E' then
        let (negative, digits) := scanSign rest
        (ungroup? Char.isDigit digits).map (signedExponent negative)
      else none
  let x := (Numeral.mk whole fraction exponent).toFloat
  finite? (if negative then -x else x)

/-- The number that a decimal word denotes. -/
def decimal? (negative : Bool) (word : List Char) : Option Value := do
  let whole ← whole? (word.takeWhile isGrouped)
  match word.dropWhile isGrouped with
  | [] => integer? (signedExponent negative whole)
  | '.' :: rest =>
    let fraction ← ungroup? Char.isDigit (rest.takeWhile isGrouped)
    float? negative whole fraction (rest.dropWhile isGrouped)
  | rest => float? negative whole [] rest

/-- The number that a word denotes. -/
def number? (word : List Char) : Option Value :=
  match word with
  | '0' :: 'x' :: digits => based? 16 digits
  | '0' :: 'o' :: digits => based? 8 digits
  | '0' :: 'b' :: digits => based? 2 digits
  | word =>
    let (negative, word) := scanSign word
    if word = ['i', 'n', 'f'] then some (.float (if negative then -1.0 / 0.0 else 1.0 / 0.0))
    else if word = ['n', 'a', 'n'] then some (.float (0.0 / 0.0))
    else decimal? negative word

/-! ### Words -/

/-- The characters that words are made of. -/
def isWordChar (c : Char) : Bool :=
  c.isAlphanum || c = '_' || c = '+' || c = '-' || c = '.' || c = ':'

/-- The value that a word denotes. -/
def word? (word : List Char) : Option Value :=
  if word = ['t', 'r', 'u', 'e'] then some (.bool true)
  else if word = ['f', 'a', 'l', 's', 'e'] then some (.bool false)
  else match moment? word with
    | some text => some (.moment (String.ofList text))
    | none => number? word

/-- Whether a word is a date. -/
def isDate (word : List Char) : Bool :=
  (readDate? word).any (·.2.isEmpty)

/-- Whether a blank behind a date leads to the time of that date. -/
def timeFollows : List Char → Bool
  | ' ' :: a :: b :: ':' :: _ => a.isDigit && b.isDigit
  | _ => false

/-- Reads the word in front of a text. A time may follow a date behind a blank. -/
def readScalar? (text : List Char) : Option (Value × List Char) :=
  let word := text.takeWhile isWordChar
  let rest := text.dropWhile isWordChar
  if isDate word && timeFollows rest then
    let time := (rest.drop 1).takeWhile isWordChar
    (moment? (word ++ 'T' :: time)).map fun text =>
      (.moment (String.ofList text), (rest.drop 1).dropWhile isWordChar)
  else (word? word).map fun value => (value, rest)

end ActionTree.Toml
