/-
# Decimal numerals

A numeral such as `12.50e-3` taken apart into its digits and exponent, and the
binary64 number nearest to it.

* `Numeral`: the digits before and after the point, and the exponent.
* `Numeral.toFloat`: the nearest number, ties to even; infinity beyond the range.
* `scanExponent`: reads an exponent off the front of a text.
* `ofText?`: the numbers that a whole text can denote, words for infinity and
  NaN included.
-/

namespace ActionTree.Decimal

/-- The value of a digit. -/
def digitValue (c : Char) : Nat :=
  c.toNat - '0'.toNat

/-- The whole number that a row of digits denotes. -/
def ofDigits (digits : List Char) : Nat :=
  digits.foldl (fun n c => 10 * n + digitValue c) 0

/-- An unsigned numeral: digits in front of the point, digits behind it, and a
power of ten. -/
structure Numeral where
  whole : List Char
  fraction : List Char
  exponent : Int
  deriving DecidableEq

/-- The number nearest to a numeral. -/
def Numeral.toFloat (numeral : Numeral) : Float :=
  let digits := ofDigits (numeral.whole ++ numeral.fraction)
  let exponent := numeral.exponent - numeral.fraction.length
  if 0 ≤ exponent then Float.ofScientific digits false exponent.toNat
  else Float.ofScientific digits true (-exponent).toNat

/-- Takes the digits off the front of a text. -/
def scanDigits (text : List Char) : List Char × List Char :=
  (text.takeWhile Char.isDigit, text.dropWhile Char.isDigit)

/-- Takes the sign off the front of a text; true for a minus. -/
def scanSign : List Char → Bool × List Char
  | '-' :: rest => (true, rest)
  | '+' :: rest => (false, rest)
  | text => (false, text)

/-- The digits of an exponent with the sign in front of them. -/
def signedExponent (negative : Bool) (digits : List Char) : Int :=
  if negative then -(ofDigits digits : Int) else ofDigits digits

/-- Takes an exponent off the front of a text: the letter `e` in either case, an
optional sign and at least one digit. -/
def scanExponent? : List Char → Option (Int × List Char)
  | c :: rest =>
    if c = 'e' || c = 'E' then
      let (negative, rest) := scanSign rest
      let (digits, rest) := scanDigits rest
      if digits.isEmpty then none else some (signedExponent negative digits, rest)
    else none
  | [] => none

/-- Reads an unsigned numeral that fills a whole text: digits with an optional
point among them and an optional exponent. At least one digit is needed, on
either side of the point. -/
def Numeral.ofText? (text : List Char) : Option Numeral :=
  let (whole, rest) := scanDigits text
  let (fraction, rest) := match rest with
    | '.' :: rest => scanDigits rest
    | rest => ([], rest)
  if whole.isEmpty && fraction.isEmpty then none
  else match rest with
    | [] => some ⟨whole, fraction, 0⟩
    | rest => match scanExponent? rest with
      | some (exponent, []) => some ⟨whole, fraction, exponent⟩
      | _ => none

/-- The number that an unsigned text denotes: a numeral, or one of the words for
infinity and NaN in either case. -/
def magnitude? (text : List Char) : Option Float :=
  let word := text.map Char.toLower
  if word = ['i', 'n', 'f'] || word = ['i', 'n', 'f', 'i', 'n', 'i', 't', 'y'] then
    some (1.0 / 0.0)
  else if word = ['n', 'a', 'n'] then some (0.0 / 0.0)
  else (Numeral.ofText? text).map Numeral.toFloat

/-- The number that a text denotes, with an optional sign in front. Nothing may
stand around it, no blank either. -/
def ofText? (text : List Char) : Option Float :=
  let (negative, rest) := scanSign text
  (magnitude? rest).map fun x => if negative then -x else x

end ActionTree.Decimal
