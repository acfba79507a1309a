/-
# Shortest decimals

Every finite binary64 number is the nearest one to a whole interval of reals.
Its shortest decimal is the decimal in that interval with the fewest digits, of
several the one nearest to the number.

* `Interval`: a positive number with the reals that round to it.
* `Interval.onGrid?`: the decimal of the interval on one grid of decimals.
* `shortest`: the digits and the exponent of the shortest decimal.
-/

namespace ActionTree.Decimal

/-- Where a decimal goes that lies halfway between its two neighbours. -/
inductive Tie where
  | even
  | up
  deriving DecidableEq

/-- A positive real `value / denominator` with the reals around it that round to
the same binary64 number, all over one denominator. -/
structure Interval where
  low : Nat
  value : Nat
  high : Nat
  denominator : Nat
  /-- Whether the two ends belong to the interval. -/
  closed : Bool

/-- The reals that round to `mantissa · 2 ^ exponent`. They reach halfway to the
neighbours; below a power of two the neighbour is only half as far. The ends
round to the even mantissa. -/
def Interval.around (mantissa : Nat) (exponent : Int) : Interval :=
  let scale := Nat.pow 2 exponent.toNat
  let denominator := 4 * Nat.pow 2 (-exponent).toNat
  let below := if mantissa = 0x10000000000000 && exponent != -1074 then 1 else 2
  ⟨(4 * mantissa - below) * scale, 4 * mantissa * scale, (4 * mantissa + 2) * scale, denominator,
    mantissa % 2 = 0⟩

/-- Whether `count` units of `numerator / denominator` lie in the interval. -/
def Interval.contains (interval : Interval) (count numerator denominator : Nat) : Bool :=
  let point := count * numerator * interval.denominator
  let low := interval.low * denominator
  let high := interval.high * denominator
  if interval.closed then low ≤ point && point ≤ high else low < point && point < high

/-- A decimal `digits · 10 ^ exponent`. -/
structure Digits where
  digits : Nat
  exponent : Int
  deriving DecidableEq

/-- The decimal of the interval on the grid of step `10 ^ exponent`: one of the
value's two neighbours on the grid, if one of them lies in the interval, and the
nearer of them if both do. -/
def Interval.onGrid? (tie : Tie) (interval : Interval) (exponent : Int) : Option Nat :=
  let numerator := Nat.pow 10 exponent.toNat
  let denominator := Nat.pow 10 (-exponent).toNat
  let value := interval.value * denominator
  let unit := numerator * interval.denominator
  let below := value / unit
  let rest := value % unit
  match interval.contains below numerator denominator,
      interval.contains (below + 1) numerator denominator with
  | false, false => none
  | true, false => some below
  | false, true => some (below + 1)
  | true, true =>
    if 2 * rest < unit then some below
    else if unit < 2 * rest then some (below + 1)
    else match tie with
      | .even => some (below + below % 2)
      | .up => some (below + 1)

/-- Tries the grids with one digit more each time. -/
def Interval.search (tie : Tie) (interval : Interval) : Nat → Int → Digits
  | 0, exponent => ⟨(interval.onGrid? tie exponent).getD 0, exponent⟩
  | more + 1, exponent => match interval.onGrid? tie exponent with
    | some digits => ⟨digits, exponent⟩
    | none => search tie interval more (exponent - 1)

/-- The exponent of the leading decimal digit of `value / denominator`, from a
first guess that is at most one too small. -/
def Interval.leading (interval : Interval) (guess : Int) : Int :=
  let next := guess + 1
  if Nat.pow 10 next.toNat * interval.denominator ≤ interval.value * Nat.pow 10 (-next).toNat then next
  else guess

/-- Moves zeros at the end of the digits into the exponent. -/
def Digits.normalize : Nat → Digits → Digits
  | 0, d => d
  | fuel + 1, d =>
    if d.digits != 0 && d.digits % 10 = 0 then normalize fuel ⟨d.digits / 10, d.exponent + 1⟩ else d

/-- The shortest decimal of `mantissa · 2 ^ exponent`. Seventeen digits always
suffice. -/
def shortest (tie : Tie) (mantissa : Nat) (exponent : Int) : Digits :=
  let interval := Interval.around mantissa exponent
  -- 1233 / 4096 is just below log10 2
  let binary := exponent + mantissa.log2
  let guess := if 0 ≤ binary then binary * 1233 / 4096 else binary * 1234 / 4096
  (interval.search tie 16 (interval.leading guess)).normalize 18

example : shortest .even 6755399441055744 (-52) = ⟨15, -1⟩ := by decide

end ActionTree.Decimal
