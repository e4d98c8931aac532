/-
**Errors of images.**

Main definitions:

* `ImageError` — why an image cannot be read or relocated;
* `ImageError.message` — the message of an error.
-/

import ScenePack.Text.Hex

set_option relaxedAutoImplicit false
set_option autoImplicit false

namespace ScenePack

/-- Why an image cannot be read or relocated. -/
inductive ImageError where
  | alreadyResolved
  | truncated (needed length : Nat)
  | unknownTypeId (typeId range : Nat)
  | countMismatch (ranges instances : Nat)
  | outOfBounds (value base length : Nat)
  | misaligned (offset align : Nat)
  | overlapping (offset : Nat)
  | unterminatedText (offset : Nat)
  | invalidText (offset : Nat)
  | invalidReference (owner : String) (offset : Nat)
  | referenceMismatch (expected found : String) (offset : Nat)
  | addressOverflow (base : Nat)
  | unknownField (owner field : String)
  deriving DecidableEq

namespace ImageError

/-- An address, as messages show it. -/
def addressText (address : Nat) : String := "0x" ++ Hex.ofNat address

/-- The message of an error. -/
def message : ImageError → String
  | alreadyResolved => "scene buffer is already resolved"
  | truncated needed length =>
      "scene buffer truncated: need " ++ toString needed ++ " bytes, have " ++ toString length
  | unknownTypeId typeId range =>
      "range " ++ toString range ++ " names unknown type id " ++ toString typeId
  | countMismatch ranges instances =>
      "ranges cover " ++ toString ranges ++ " instances but the header declares " ++
        toString instances
  | outOfBounds value base length =>
      "pointer " ++ addressText value ++ " is outside the buffer (base " ++ addressText base ++
        ", " ++ toString length ++ " bytes)"
  | misaligned offset align =>
      "offset " ++ toString offset ++ " is not aligned to " ++ toString align
  | overlapping offset =>
      "region at offset " ++ toString offset ++ " overlaps another part of the scene"
  | unterminatedText offset => "text at offset " ++ toString offset ++ " is not NUL-terminated"
  | invalidText offset => "text at offset " ++ toString offset ++ " is not valid UTF-8"
  | invalidReference owner offset =>
      "ref in '" ++ owner ++ "' points at offset " ++ toString offset ++
        ", which is not an instance"
  | referenceMismatch expected found offset =>
      "ref expects a '" ++ expected ++ "' but the instance at offset " ++ toString offset ++
        " is a '" ++ found ++ "'"
  | addressOverflow base =>
      "relocating to base " ++ addressText base ++ " overflows the address space"
  | unknownField owner field => "component type '" ++ owner ++ "' has no field '" ++ field ++ "'"

end ImageError

end ScenePack
