/-
**The text of a decimal.**

A decimal is written positionally while its point stays near its digits, and with an exponent
otherwise.  Where the two meet, and how the exponent is written, is up to the format that uses it.

Main definitions:

* `DecimalStyle` — the choices of an output format;
* `DecimalStyle.render` — the text of a decimal in a style.
-/

import ScenePack.Numeric.Shortest

set_option relaxedAutoImplicit false
set_option autoImplicit false

namespace ScenePack

/-- How an output format writes decimals.  A number in `[10 ^ (p - 1), 10 ^ p)` is positional if
`leastPoint ≤ p ≤ greatestPoint`; `positiveMark` stands before an exponent that is not negative. -/
structure DecimalStyle where
  leastPoint : Int
  greatestPoint : Int
  positiveMark : String

namespace DecimalStyle

/-- Zeros to be written around the digits. -/
def zeros (count : Nat) : String := String.ofList (List.replicate count '0')

/-- The digits with a point after the first `point` of them, and at least one digit on each side
of the point. -/
def positional (digits : String) (point : Int) : String :=
  let length : Int := digits.length
  if point ≤ 0 then "0." ++ zeros (-point).toNat ++ digits
  else if length ≤ point then digits ++ zeros (point - length).toNat ++ ".0"
  else
    String.ofList (digits.toList.take point.toNat) ++ "." ++
      String.ofList (digits.toList.drop point.toNat)

/-- One digit, the others after a point if there are any, and the exponent. -/
def scientific (style : DecimalStyle) (digits : String) (point : Int) : String :=
  let exponent := point - 1
  let rest := String.ofList (digits.toList.drop 1)
  let fraction := if rest.isEmpty then "" else "." ++ rest
  let mark := if exponent < 0 then "-" else style.positiveMark
  String.ofList (digits.toList.take 1) ++ fraction ++ "e" ++ mark ++ toString exponent.natAbs

/-- The text of a positive decimal whose digits do not end in zero. -/
def render (style : DecimalStyle) (decimal : Decimal) : String :=
  let digits := toString decimal.digits
  let point := decimal.exponent + digits.length
  if style.leastPoint ≤ point ∧ point ≤ style.greatestPoint then positional digits point
  else style.scientific digits point

end DecimalStyle

end ScenePack
