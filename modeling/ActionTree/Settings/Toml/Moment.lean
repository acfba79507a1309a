/-
# Dates and times in TOML

A date, a time, or both with an optional offset from universal time. Such a moment
is kept as its text in normal form.

* `Bounds`: how far hours and offsets may go.
* `readDate?`, `readTime?`, `readOffset?`: the parts.
* `moment?`: what a word of a document denotes.
* `quotedMoment?`: what a text denotes, for which the bounds are wider.
-/
import ActionTree.Decimal.Numeral

namespace ActionTree.Toml

/-- The last hour, and which hours and minutes an offset may have. -/
structure Bounds where
  lastHour : Nat
  isOffset : Nat → Nat → Bool

/-- The bounds in a document. -/
def Bounds.word : Bounds :=
  ⟨23, fun hours minutes => hours ≤ 23 && minutes ≤ 59⟩

/-- The bounds in a text. -/
def Bounds.quoted : Bounds :=
  ⟨24, fun hours minutes => 60 * hours + minutes ≤ 24 * 60⟩

/-! ### Parts -/

/-- The number of two digits. -/
def pair? (a b : Char) : Option Nat :=
  if a.isDigit && b.isDigit then some (Decimal.ofDigits [a, b]) else none

/-- How many days a month has. -/
def daysOfMonth (year month : Nat) : Nat :=
  if month = 2 then
    if (year % 4 = 0 && year % 100 != 0) || year % 400 = 0 then 29 else 28
  else if month = 4 || month = 6 || month = 9 || month = 11 then 30
  else 31

/-- Takes a date of year, month and day off the front of a text. -/
def readDate? : List Char → Option (List Char × List Char)
  | a :: b :: c :: d :: '-' :: e :: f :: '-' :: g :: h :: rest => do
    let year := 100 * (← pair? a b) + (← pair? c d)
    let month ← pair? e f
    let day ← pair? g h
    if 1 ≤ month && month ≤ 12 && 1 ≤ day && day ≤ daysOfMonth year month then
      some ([a, b, c, d, '-', e, f, '-', g, h], rest)
    else none
  | _ => none

/-- The fraction of a second in at most nine digits, without zeros at the end. -/
def secondFraction (digits : List Char) : List Char :=
  match ((digits.take 9).reverse.dropWhile (· = '0')).reverse with
  | [] => []
  | digits => '.' :: digits

/-- Takes a time of hours, minutes and seconds off the front of a text. -/
def readTime? (bounds : Bounds) : List Char → Option (List Char × List Char)
  | a :: b :: ':' :: c :: d :: ':' :: e :: f :: rest => do
    let hour ← pair? a b
    let minute ← pair? c d
    let second ← pair? e f
    if bounds.lastHour < hour || 59 < minute || 60 < second then none
    else
      let time := [a, b, ':', c, d, ':', e, f]
      match rest with
      | '.' :: rest =>
        let digits := rest.takeWhile Char.isDigit
        if digits.isEmpty then none
        else some (time ++ secondFraction digits, rest.dropWhile Char.isDigit)
      | rest => some (time, rest)
  | _ => none

/-- A number below a hundred in two digits. -/
def twoDigits (n : Nat) : List Char :=
  [Nat.digitChar (n / 10 % 10), Nat.digitChar (n % 10)]

/-- The text of an offset. An offset of nothing has a plus. -/
def offsetText (negative : Bool) (minutes : Nat) : List Char :=
  (if negative && minutes != 0 then '-' else '+') ::
    (twoDigits (minutes / 60) ++ ':' :: twoDigits (minutes % 60))

/-- An offset that fills a whole text, if there is one. -/
def readOffset? (bounds : Bounds) : List Char → Option (List Char)
  | [] => some []
  | ['Z'] | ['z'] => some ['Z']
  | [sign, a, b, ':', c, d] => do
    let hours ← pair? a b
    let minutes ← pair? c d
    if (sign = '+' || sign = '-') && bounds.isOffset hours minutes then
      some (offsetText (sign = '-') (60 * hours + minutes))
    else none
  | _ => none

/-! ### Moments -/

/-- A time that fills a whole text. -/
def time? (bounds : Bounds) (text : List Char) : Option (List Char) :=
  match readTime? bounds text with
  | some (time, []) => some time
  | _ => none

/-- A date, and a time with an offset behind a letter or blank that stands between
them. -/
def dated? (bounds : Bounds) (isBetween : Char → Bool) (text : List Char) :
    Option (List Char) := do
  match ← readDate? text with
  | (date, []) => return date
  | (date, c :: rest) =>
    if isBetween c then
      let (time, rest) ← readTime? bounds rest
      return date ++ 'T' :: time ++ (← readOffset? bounds rest)
    else none

/-- Whether a letter stands between a date and a time. -/
def isLetterBetween (c : Char) : Bool :=
  c = 'T' || c = 't'

/-- The moment that a word of a document denotes. -/
def moment? (word : List Char) : Option (List Char) :=
  (dated? .word isLetterBetween word).or (time? .word word)

/-- The moment that a text denotes. A blank may stand between a date and a time. -/
def quotedMoment? (text : List Char) : Option (List Char) :=
  (dated? .quoted (fun c => isLetterBetween c || c = ' ') text).or (time? .quoted text)

end ActionTree.Toml
