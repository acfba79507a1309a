/-
# Decimals in 64 bits

A quick reading of a decimal: as many leading digits as fit a 64-bit
significand, scaled by one or two powers of ten in binary64 arithmetic. The
result can be off by a few units in the last place; where it would be infinite
there is none.

* `accumulate`: the leading digits that fit, and the digits left over.
* `Numeral.approximate?`: the reading.
-/
import ActionTree.Decimal.Numeral

namespace ActionTree.Decimal

/-- Appends digits to a significand as long as it stays below `2 ^ 64`, and
returns the digits left over. -/
def accumulate : Nat → List Char → Nat × List Char
  | significand, [] => (significand, [])
  | significand, c :: rest =>
    let next := 10 * significand + digitValue c
    if next < 0x10000000000000000 then accumulate next rest else (significand, c :: rest)

/-- The power of ten with the given exponent. -/
def powerOfTen (exponent : Nat) : Float :=
  Float.ofScientific 1 false exponent

/-- A significand times a power of ten, with one rounding for the significand and
one for each multiplication or division. Powers above `10 ^ 308` are out of
range, below `10 ^ -308` two divisions are needed. -/
def scale? (significand : Nat) (exponent : Int) : Option Float :=
  let x := Float.ofNat significand
  if significand = 0 then some 0.0
  else if 308 < exponent then none
  else if 0 ≤ exponent then
    let product := x * powerOfTen exponent.toNat
    if product.isFinite then some product else none
  else if -308 ≤ exponent then some (x / powerOfTen (-exponent).toNat)
  else if -616 ≤ exponent then some (x / powerOfTen 308 / powerOfTen (-exponent - 308).toNat)
  else some 0.0

/-- The quick reading of a numeral. Digits in front of the point that do not fit
still count as places, digits behind it that do not fit are dropped. -/
def Numeral.approximate? (numeral : Numeral) : Option Float :=
  let (significand, left) := accumulate 0 numeral.whole
  let (significand, dropped) := accumulate significand numeral.fraction
  let places := numeral.fraction.length - dropped.length
  scale? significand (left.length - places + numeral.exponent)

end ActionTree.Decimal
