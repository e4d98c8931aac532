/-
**Binary floating-point formats.**

A format is given by its two field widths.  A bit pattern is a sign and a magnitude; a finite
magnitude stands for `m * 2 ^ e` units, the unit being the smallest positive value of the format.
Rounding takes an exact ratio of natural numbers to the nearest magnitude, a half to the even
neighbour, so it never goes through another floating-point operation.

Main definitions:

* `FloatFormat`, `FloatFormat.binary32`, `FloatFormat.binary64` — the formats;
* `FloatFormat.significand` — the two numbers behind a magnitude;
* `roundHalfEven` — the nearest whole number of a ratio;
* `FloatFormat.nearest` — the nearest magnitude of a ratio;
* `FloatFormat.nearestDecimal` — the nearest magnitude of `digits * 10 ^ exponent`;
* `FloatFormat.convert` — a bit pattern of one format in another.

Main results:

* `roundHalfEven_bounds` — the rounded ratio is within half a unit of the ratio.
-/

set_option relaxedAutoImplicit false
set_option autoImplicit false

namespace ScenePack

/-- The widths of the fraction and exponent fields of a binary floating-point format. -/
structure FloatFormat where
  fractionBits : Nat
  exponentBits : Nat
  deriving DecidableEq

/-- The whole number nearest to `num / den`; a half goes to the even neighbour. -/
def roundHalfEven (num den : Nat) : Nat :=
  let whole := num / den
  let rest := num % den
  if 2 * rest < den then whole
  else if den < 2 * rest then whole + 1
  else whole + whole % 2

theorem roundHalfEven_bounds {num den : Nat} (h : 0 < den) :
    2 * num ≤ 2 * (roundHalfEven num den * den) + den ∧
      2 * (roundHalfEven num den * den) ≤ 2 * num + den := by
  have hdiv := Nat.div_add_mod' num den
  have hmod := Nat.mod_lt num h
  have heven := Nat.mod_two_eq_zero_or_one (num / den)
  have hnext := Nat.add_one_mul (num / den) den
  unfold roundHalfEven
  dsimp only
  split
  · omega
  · split
    · omega
    · rcases heven with h0 | h1
      · rw [h0, Nat.add_zero]
        omega
      · rw [h1]
        omega

namespace FloatFormat

/-- Single precision. -/
def binary32 : FloatFormat := ⟨23, 8⟩

/-- Double precision. -/
def binary64 : FloatFormat := ⟨52, 11⟩

/-- The weight of the leading digit of a normal significand. -/
def hidden (format : FloatFormat) : Nat := Nat.pow 2 format.fractionBits

/-- The magnitude of an infinity; the finite magnitudes are the smaller ones. -/
def infinity (format : FloatFormat) : Nat :=
  (Nat.pow 2 format.exponentBits - 1) * format.hidden

/-- The weight of the sign. -/
def signWeight (format : FloatFormat) : Nat :=
  Nat.pow 2 (format.fractionBits + format.exponentBits)

/-- The smallest positive value of the format is `1 / format.unit`. -/
def unit (format : FloatFormat) : Nat :=
  Nat.pow 2 (Nat.pow 2 (format.exponentBits - 1) - 2 + format.fractionBits)

/-- The magnitude of a bit pattern. -/
def magnitude (format : FloatFormat) (bits : Nat) : Nat := bits % format.signWeight

/-- Whether a bit pattern carries a minus sign. -/
def isNegative (format : FloatFormat) (bits : Nat) : Bool :=
  decide (bits / format.signWeight % 2 = 1)

/-- Whether a bit pattern is a number other than an infinity. -/
def isFinite (format : FloatFormat) (bits : Nat) : Bool :=
  decide (format.magnitude bits < format.infinity)

/-- Whether a bit pattern is not a number. -/
def isNaN (format : FloatFormat) (bits : Nat) : Bool :=
  decide (format.infinity < format.magnitude bits)

/-- The bit pattern of a sign and a magnitude. -/
def pack (format : FloatFormat) (negative : Bool) (magnitude : Nat) : Nat :=
  if negative then format.signWeight + magnitude else magnitude

/-- The pair `(m, e)` behind a finite magnitude, whose value is `m * 2 ^ e` units. -/
def significand (format : FloatFormat) (magnitude : Nat) : Nat × Nat :=
  if magnitude < format.hidden then (magnitude, 0)
  else (format.hidden + magnitude % format.hidden, magnitude / format.hidden - 1)

/-! ### Rounding -/

/-- The magnitude nearest to `num / den`.  Past the largest finite value it is an infinity. -/
def nearest (format : FloatFormat) (num den : Nat) : Nat :=
  let scaled := num * format.unit
  let exponent := Nat.log2 (scaled / den) - format.fractionBits
  min format.infinity
    (exponent * format.hidden + roundHalfEven scaled (den * Nat.pow 2 exponent))

/-- A decimal exponent of this size takes every nonzero literal out of the range of both formats. -/
def decimalHorizon : Nat := 400

/-- The magnitude nearest to `digits * 10 ^ exponent`.  Beyond the horizon the answer is known
without computing the power. -/
def nearestDecimal (format : FloatFormat) (digits : Nat) (exponent : Int) : Nat :=
  if digits = 0 then 0
  else if (decimalHorizon : Int) < exponent then format.infinity
  else if exponent + Nat.log2 digits + 1 < -(decimalHorizon : Int) then 0
  else if 0 ≤ exponent then format.nearest (digits * Nat.pow 10 exponent.toNat) 1
  else format.nearest digits (Nat.pow 10 (-exponent).toNat)

/-- The pattern of `target` nearest to a finite pattern of `source`, with the same sign. -/
def convert (source target : FloatFormat) (bits : Nat) : Nat :=
  let (m, e) := source.significand (source.magnitude bits)
  target.pack (source.isNegative bits) (target.nearest (m * Nat.pow 2 e) source.unit)

/-- The largest magnitude is that of an infinity. -/
theorem nearest_le_infinity (format : FloatFormat) (num den : Nat) :
    format.nearest num den ≤ format.infinity := Nat.min_le_left _ _

end FloatFormat

end ScenePack
