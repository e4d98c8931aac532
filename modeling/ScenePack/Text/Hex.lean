/-
**Hexadecimal text.**

Digits are lower case.  A byte takes two of them, the high half first; a number takes as many as it
needs, and at least one.

Main definitions:

* `Hex.ofBytes` — the digits of a byte string;
* `Hex.ofNat` — the digits of a number.
-/

import ScenePack.Word

set_option relaxedAutoImplicit false
set_option autoImplicit false

namespace ScenePack.Hex

/-- The digit of a number below sixteen. -/
def digit (value : Nat) : Char :=
  if value < 10 then Char.ofNat ('0'.toNat + value) else Char.ofNat ('a'.toNat + (value - 10))

/-- Two digits for every byte. -/
def ofBytes (bytes : Bytes) : String :=
  String.ofList (bytes.flatMap fun byte => [digit (byte.toNat / 16), digit (byte.toNat % 16)])

/-- The digits of a number, the least significant first, at most `bound` of them. -/
def digitsOf : (bound value : Nat) → List Char
  | 0, _ => []
  | bound + 1, value =>
      if value < 16 then [digit value] else digit (value % 16) :: digitsOf bound (value / 16)

/-- The digits of a number without leading zeros. -/
def ofNat (value : Nat) : String :=
  String.ofList (digitsOf (Nat.log2 value + 1) value).reverse

end ScenePack.Hex
