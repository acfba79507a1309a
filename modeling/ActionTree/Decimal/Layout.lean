/-
# The text of a number

A number is written in the digits of its shortest decimal, positionally or with
an exponent as a layout says.

* `Layout`: the decisions of one output format.
* `Layout.render`: the text of a number.
-/
import ActionTree.Decimal.Shortest

namespace ActionTree.Decimal

open Float.Model (UnpackedFloat)

/-- How a number is written: where ties go, from which exponent of the leading
digit to which the positional notation is used (always, if there is none), and
whether a whole number keeps a point and a zero. -/
structure Layout where
  tie : Tie
  positional : Option (Int × Int)
  keepPoint : Bool

/-- The digits of a whole number. -/
def digitsText (n : Nat) : String :=
  String.ofList (Nat.toDigits 10 n)

/-- Writes digits with a point at its place. -/
def Layout.positionally (layout : Layout) (d : Digits) : String :=
  let digits := Nat.toDigits 10 d.digits
  if 0 ≤ d.exponent then
    String.ofList (digits ++ List.replicate d.exponent.toNat '0') ++
      if layout.keepPoint then ".0" else ""
  else
    let places := (-d.exponent).toNat
    if places < digits.length then
      String.ofList (digits.take (digits.length - places) ++ '.' :: digits.drop (digits.length - places))
    else
      String.ofList ('0' :: '.' :: List.replicate (places - digits.length) '0' ++ digits)

/-- Writes digits with one of them in front of the point, and a signed exponent. -/
def Layout.scientifically (d : Digits) : String :=
  let digits := Nat.toDigits 10 d.digits
  let exponent := d.exponent + digits.length - 1
  let mantissa := match digits with
    | first :: second :: rest => first :: '.' :: second :: rest
    | digits => digits
  String.ofList mantissa ++ (if exponent < 0 then "e-" else "e+") ++ digitsText exponent.natAbs

/-- Writes a positive number that is given by its shortest decimal. -/
def Layout.renderDigits (layout : Layout) (d : Digits) : String :=
  match layout.positional with
  | none => layout.positionally d
  | some (first, last) =>
    let leading := d.exponent + (Nat.toDigits 10 d.digits).length - 1
    if first ≤ leading && leading ≤ last then layout.positionally d else Layout.scientifically d

/-- The sign in front of a number. -/
def signText : UnpackedFloat.Sign → String
  | .positive => ""
  | .negative => "-"

/-- Writes a number in its shortest digits. A negative zero keeps its sign. -/
def Layout.render (layout : Layout) (x : Float) : String :=
  match x.toModel.unpack with
  | .notANumber => "NaN"
  | .infinity sign => signText sign ++ "inf"
  | .zero sign => signText sign ++ layout.renderDigits ⟨0, 0⟩
  | .finite sign mantissa exponent _ =>
    signText sign ++ layout.renderDigits (shortest layout.tie mantissa exponent)

end ActionTree.Decimal
