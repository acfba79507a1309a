/-
# Exact values of binary64 numbers

A finite `Float` is a whole number times a power of two. Whether a number is
integral, which integer it is and what is left after a division are read off
that value, without rounding.

* `integer?`: the integer that a number equals, if it equals one.
* `remainder`: the exact remainder of a truncating division, with the sign of
  the dividend.
-/

namespace ActionTree.Binary64

open Float.Model (UnpackedFloat)
open Float.Model.UnpackedFloat (Sign)

/-- The number nearest to `±mantissa · 2 ^ exponent`. -/
def compose (sign : Sign) (mantissa : Nat) (exponent : Int) : Float :=
  .ofModel (.pack (UnpackedFloat.round .binary64 sign mantissa exponent))

/-- A signed whole number. -/
def signed : Sign → Nat → Int
  | .positive, n => n
  | .negative, n => -n

/-- The integer that a number equals: none for a fraction, an infinity and NaN.
Both zeros are the integer 0. -/
def integer? (x : Float) : Option Int :=
  match x.toModel.unpack with
  | .notANumber => none
  | .infinity _ => none
  | .zero _ => some 0
  | .finite sign mantissa exponent _ =>
    if 0 ≤ exponent then some (signed sign (mantissa * Nat.pow 2 exponent.toNat))
    else if mantissa % Nat.pow 2 (-exponent).toNat = 0 then
      some (signed sign (mantissa / Nat.pow 2 (-exponent).toNat))
    else none

/-- NaN. -/
def notANumber : Float :=
  .ofModel (.pack .notANumber)

/-- A zero with the given sign. -/
def zero (sign : Sign) : Float :=
  .ofModel (.pack (.zero sign))

/-- What is left of `x` after taking away `y` as often as it fits into it. The
result is exact and has the sign of `x`; there is none, so NaN, if `x` is
infinite or `y` is zero. -/
def remainder (x y : Float) : Float :=
  match x.toModel.unpack, y.toModel.unpack with
  | .notANumber, _ | _, .notANumber | .infinity _, _ | _, .zero _ => notANumber
  | _, .infinity _ => x
  | .zero _, _ => x
  | .finite sign m e _, .finite _ n f _ =>
    let unit := min e f
    let rest := (m * Nat.pow 2 (e - unit).toNat) % (n * Nat.pow 2 (f - unit).toNat)
    if rest = 0 then zero sign else compose sign rest unit

example : integer? 3.0 = some 3 ∧ integer? (-0.0) = some 0 ∧ integer? 2.5 = none := by decide
example : remainder 5.5 2.0 = 1.5 ∧ remainder (-5.5) 2.0 = -1.5 := by decide

end ActionTree.Binary64
