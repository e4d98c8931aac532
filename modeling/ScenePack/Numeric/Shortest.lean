/-
**Shortest decimals.**

The decimal written for a floating-point number has the fewest digits among those that round back
to it, and is the nearest such decimal.  All comparisons are made on natural numbers over one
common denominator.

Main definitions:

* `Decimal` — a number `digits * 10 ^ exponent`;
* `Interval` — the numbers that round to a given magnitude;
* `Decimal.shortest` — the shortest decimal of a positive finite magnitude.
-/

import ScenePack.Numeric.BinaryFloat

set_option relaxedAutoImplicit false
set_option autoImplicit false

namespace ScenePack

/-- The number `digits * 10 ^ exponent`. -/
structure Decimal where
  digits : Nat
  exponent : Int
  deriving DecidableEq

/-- The numbers `x / den` with `low ≤ x ≤ high` that round to the number `value / den`; the ends
belong to it if `closed` holds. -/
structure Interval where
  low : Nat
  value : Nat
  high : Nat
  den : Nat
  closed : Bool

namespace Interval

/-- The interval of a positive finite magnitude: half a unit of its last place to each side, or a
quarter below a power of two, and with its ends exactly for an even significand. -/
def ofMagnitude (format : FloatFormat) (magnitude : Nat) : Interval :=
  let (m, e) := format.significand magnitude
  let below := if m = format.hidden ∧ 0 < e then 1 else 2
  { low := (4 * m - below) * Nat.pow 2 e
    value := 4 * m * Nat.pow 2 e
    high := (4 * m + 2) * Nat.pow 2 e
    den := 4 * format.unit
    closed := m % 2 = 0 }

/-- Whether `num / den` lies in the interval. -/
def contains (interval : Interval) (num den : Nat) : Bool :=
  if interval.closed then
    decide (interval.low * den ≤ num * interval.den ∧ num * interval.den ≤ interval.high * den)
  else
    decide (interval.low * den < num * interval.den ∧ num * interval.den < interval.high * den)

/-- The count of decimal digits of a positive number, by repeated division. -/
def digitCount : (bound number : Nat) → Nat
  | 0, _ => 0
  | bound + 1, number => if number = 0 then 0 else digitCount bound (number / 10) + 1

/-- The count of zeros that follow the decimal point of `num / den < 1`. -/
def zeroCount : (bound num den : Nat) → Nat
  | 0, _, _ => 0
  | bound + 1, num, den => if den ≤ num * 10 then 0 else zeroCount bound (num * 10) den + 1

/-- The position of the decimal point after the first digit's left edge: the value lies in
`[10 ^ (point - 1), 10 ^ point)`. -/
def point (interval : Interval) : Int :=
  let whole := interval.value / interval.den
  if whole = 0 then
    -(zeroCount FloatFormat.decimalHorizon interval.value interval.den : Int)
  else digitCount (Nat.log2 whole + 1) whole

/-- The decimal on the grid `10 ^ exponent` that lies in the interval and is nearest to the value,
if there is one. -/
def onGrid? (interval : Interval) (exponent : Int) : Option Decimal :=
  let up := Nat.pow 10 (-exponent).toNat
  let down := Nat.pow 10 exponent.toNat
  let grid := interval.den * down
  let floor := interval.value * up / grid
  let nearest := roundHalfEven (interval.value * up) grid
  let other := if nearest = floor then floor + 1 else floor
  if interval.contains (nearest * down) up then some ⟨nearest, exponent⟩
  else if interval.contains (other * down) up then some ⟨other, exponent⟩
  else none

end Interval

namespace Decimal

/-- The same number without the zeros at the end of its digits. -/
def trim : (bound : Nat) → Decimal → Decimal
  | 0, decimal => decimal
  | bound + 1, decimal =>
      if decimal.digits % 10 = 0 ∧ decimal.digits ≠ 0 then
        trim bound ⟨decimal.digits / 10, decimal.exponent + 1⟩
      else decimal

/-- The most digits that a number of either format needs. -/
def mostDigits : Nat := 17

/-- The shortest decimal that rounds to a positive finite magnitude, the nearest one if several
are as short. -/
def shortest (format : FloatFormat) (magnitude : Nat) : Decimal :=
  let interval := Interval.ofMagnitude format magnitude
  let point := interval.point
  let found := (List.range mostDigits).findSome? fun count =>
    interval.onGrid? (point - (count + 1 : Nat))
  match found with
  | some decimal => trim mostDigits decimal
  | none => ⟨0, 0⟩

end Decimal

end ScenePack
