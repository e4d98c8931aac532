/-
**JSON values.**

Numbers keep the distinction that their text makes: an integer literal within 64 bits stays an
integer, any other literal is a double-precision number.  The members of an object are unique and
stand in ascending order of their keys.

Main definitions:

* `JsonNumber`, `Json` — numbers and values;
* `Json.insertMember` — the members of an object with one of them set;
* `JsonNumber.ofLiteral?` — the number of a literal, if it is within range;
* `JsonNumber.text`, `Json.kindName` — how messages show numbers and kinds of values.
-/

import ScenePack.Numeric.DecimalText
import ScenePack.Word

set_option relaxedAutoImplicit false
set_option autoImplicit false

namespace ScenePack

/-- A number: a natural number below `2 ^ 64`, a negative integer given by its magnitude in
`1 … 2 ^ 63`, or the bit pattern of a finite double-precision number. -/
inductive JsonNumber where
  | natural (value : Nat)
  | negative (magnitude : Nat)
  | real (bits : Nat)
  deriving DecidableEq

/-- A JSON value. -/
inductive Json where
  | null
  | bool (value : Bool)
  | number (value : JsonNumber)
  | string (value : String)
  | array (items : List Json)
  | object (members : List (String × Json))

/-- The parts of a number literal: `digits * 10 ^ exponent` under a sign, where `whole` tells that
it has neither a fraction nor an exponent. -/
structure NumberLiteral where
  negative : Bool
  digits : Nat
  exponent : Int
  whole : Bool

namespace JsonNumber

/-- The number of a literal.  A negative zero is a real number; so is every literal with a
fraction or an exponent, and every integer that needs more than 64 bits.  A literal that rounds
past the largest finite real number has no value.

A real number here is the double-precision number nearest to the literal.  The parser it stands
for is not built to round exactly: it scales the digits by a power of ten in double precision,
and reads a few literals, such as `7e-30`, one unit in the last place away.  No result depends on
which of the two neighbours a literal becomes. -/
def ofLiteral? (literal : NumberLiteral) : Option JsonNumber :=
  if literal.whole ∧ literal.negative = false ∧ literal.digits < Word.limit 8 then
    some (natural literal.digits)
  else if literal.whole ∧ literal.negative = true ∧ 0 < literal.digits ∧
      2 * literal.digits ≤ Word.limit 8 then
    some (negative literal.digits)
  else
    let magnitude := FloatFormat.binary64.nearestDecimal literal.digits literal.exponent
    if magnitude < FloatFormat.binary64.infinity then
      some (real (FloatFormat.binary64.pack literal.negative magnitude))
    else none

/-- Real numbers are positional from `1e-5` up to below `1e16`. -/
def style : DecimalStyle := ⟨-4, 16, "+"⟩

/-- The text of a number: integers plainly, real numbers by their shortest digits. -/
def text : JsonNumber → String
  | natural value => toString value
  | negative magnitude => "-" ++ toString magnitude
  | real bits =>
      let format := FloatFormat.binary64
      let magnitude := format.magnitude bits
      let digits :=
        if magnitude = 0 then "0.0" else style.render (Decimal.shortest format magnitude)
      if format.isNegative bits then "-" ++ digits else digits

/-- The bit pattern of the double-precision number nearest to a number. -/
def toBinary64 : JsonNumber → Nat
  | natural value => FloatFormat.binary64.nearest value 1
  | negative magnitude =>
      FloatFormat.binary64.pack true (FloatFormat.binary64.nearest magnitude 1)
  | real bits => bits

/-- The integer that a number is, if it is one. -/
def toInt? : JsonNumber → Option Int
  | natural value => some value
  | negative magnitude => some (-magnitude)
  | real _ => none

end JsonNumber

namespace Json

/-- The members with `key` set to `value`, in ascending order of keys. -/
def insertMember (key : String) (value : Json) :
    List (String × Json) → List (String × Json)
  | [] => [(key, value)]
  | member :: rest =>
      if key < member.1 then (key, value) :: member :: rest
      else if key = member.1 then (key, value) :: rest
      else member :: insertMember key value rest

/-- The kind of a value, as messages name it. -/
def kindName : Json → String
  | null => "null"
  | bool _ => "bool"
  | number _ => "number"
  | string _ => "string"
  | array _ => "array"
  | object _ => "object"

theorem lookup_insertMember_self (key : String) (value : Json) (members : List (String × Json)) :
    (insertMember key value members).lookup key = some value := by
  induction members with
  | nil => simp [insertMember]
  | cons member rest ih =>
      unfold insertMember
      split
      · simp
      · split
        · simp
        · next hne =>
            obtain ⟨name, item⟩ := member
            have hbeq : (key == name) = false := by simpa using hne
            rw [List.lookup_cons, hbeq]
            exact ih

end Json

end ScenePack
