/-
**The lexemes of JSON text.**

A reader takes characters from the front of the text and returns what it read with the rest, or
the fault that it met first.  There are three kinds of fault: the text ends too early, it is not
JSON, or it is JSON of another shape than the reader expects.

Main definitions:

* `Json.Fault`, `Json.Reader` — the kinds of fault, and readers;
* `Json.skipBlank` — the text after its leading blanks;
* `Json.keyword`, `Json.numberLexeme`, `Json.stringLexeme` — the readers of the lexemes.
-/

import ScenePack.Json.Basic

set_option relaxedAutoImplicit false
set_option autoImplicit false

namespace ScenePack.Json

/-- Why a text cannot be read: it is cut off, it is not JSON, or its JSON has the wrong shape. -/
inductive Fault where
  | cutOff
  | malformed
  | misshapen
  deriving DecidableEq

/-- A reader of values of type `α` from the front of a text. -/
abbrev Reader (α : Type) := List Char → Except Fault (α × List Char)

/-! ### Blanks and keywords -/

/-- The blanks between lexemes. -/
def isBlank (c : Char) : Bool := c = ' ' || c = '\n' || c = '\t' || c = '\r'

/-- The text after its leading blanks. -/
def skipBlank (text : List Char) : List Char := text.dropWhile isBlank

/-- The letters of a keyword, one by one. -/
def keyword : List Char → Reader Unit
  | [], text => .ok ((), text)
  | _ :: _, [] => .error .cutOff
  | letter :: letters, c :: rest => if c = letter then keyword letters rest else .error .malformed

/-! ### Numbers -/

/-- The value of a run of decimal digits. -/
def digitsValue (digits : List Char) : Nat :=
  digits.foldl (fun value c => 10 * value + (c.toNat - '0'.toNat)) 0

/-- A run of at least one digit. -/
def digitRun : Reader (List Char) := fun text =>
  match text with
  | [] => .error .cutOff
  | c :: _ =>
      if c.isDigit then .ok (text.takeWhile Char.isDigit, text.dropWhile Char.isDigit)
      else .error .malformed

/-- The digits before the point: a zero stands alone. -/
def wholePart : Reader (List Char) := fun text => do
  let (digits, rest) ← digitRun text
  if digits.head? = some '0' ∧ 1 < digits.length then .error .malformed else .ok (digits, rest)

/-- The digits after the point, none if there is no point. -/
def fractionPart : Reader (List Char) := fun text =>
  match text with
  | '.' :: rest => digitRun rest
  | _ => .ok ([], text)

/-- The exponent, nothing if none is written. -/
def exponentPart : Reader (Option Int) := fun text =>
  match text with
  | c :: rest =>
      if c = 'e' ∨ c = 'E' then do
        let (negative, rest) := match rest with
          | '+' :: rest => (false, rest)
          | '-' :: rest => (true, rest)
          | _ => (false, rest)
        let (digits, rest) ← digitRun rest
        let size : Int := digitsValue digits
        .ok (some (if negative then -size else size), rest)
      else .ok (none, text)
  | [] => .ok (none, text)

/-- A number that starts at the front of the text. -/
def numberLexeme : Reader JsonNumber := fun text => do
  let (negative, text) := match text with
    | '-' :: rest => (true, rest)
    | _ => (false, text)
  let (whole, text) ← wholePart text
  let (fraction, text) ← fractionPart text
  let (exponent, text) ← exponentPart text
  let literal : NumberLiteral :=
    { negative
      digits := digitsValue (whole ++ fraction)
      exponent := exponent.getD 0 - fraction.length
      whole := fraction.isEmpty && exponent.isNone }
  match JsonNumber.ofLiteral? literal with
  | some found => .ok (found, text)
  | none => .error .malformed

/-! ### Strings -/

/-- The value of a hexadecimal digit. -/
def hexDigit? (c : Char) : Option Nat :=
  if c.isDigit then some (c.toNat - '0'.toNat)
  else if 'a' ≤ c ∧ c ≤ 'f' then some (c.toNat - 'a'.toNat + 10)
  else if 'A' ≤ c ∧ c ≤ 'F' then some (c.toNat - 'A'.toNat + 10)
  else none

/-- Four hexadecimal digits.  The text is cut off if fewer than four bytes of it are left. -/
def hexQuad : Reader Nat := fun text =>
  let quad := text.take 4
  if (String.ofList quad).utf8ByteSize < 4 then .error .cutOff
  else match quad.mapM hexDigit? with
    | some digits => .ok (digits.foldl (fun value digit => 16 * value + digit) 0, text.drop 4)
    | none => .error .malformed

/-- The character of a `\u` escape, whose four digits come next.  A leading surrogate takes the
trailing one of a second escape with it; no surrogate stands alone. -/
def unicodeEscape : Reader Char := fun text => do
  let (lead, rest) ← hexQuad text
  if 0xDC00 ≤ lead ∧ lead ≤ 0xDFFF then .error .malformed
  else if lead < 0xD800 ∨ 0xDBFF < lead then .ok (Char.ofNat lead, rest)
  else do
    let ((), rest) ← keyword ['\\', 'u'] rest
    let (trail, rest) ← hexQuad rest
    if 0xDC00 ≤ trail ∧ trail ≤ 0xDFFF then
      .ok (Char.ofNat (0x10000 + (lead - 0xD800) * 0x400 + (trail - 0xDC00)), rest)
    else .error .malformed

/-- The character that a one-letter escape stands for. -/
def shortEscape? : Char → Option Char
  | '"' => some '"'
  | '\\' => some '\\'
  | '/' => some '/'
  | 'b' => some '\x08'
  | 'f' => some '\x0c'
  | 'n' => some '\n'
  | 'r' => some '\r'
  | 't' => some '\t'
  | _ => none

/-- The character of an escape, after its backslash. -/
def escape : Reader Char := fun text =>
  match text with
  | [] => .error .cutOff
  | 'u' :: rest => unicodeEscape rest
  | c :: rest =>
      match shortEscape? c with
      | some plain => .ok (plain, rest)
      | none => .error .malformed

/-- The characters of a string up to its closing quote.  Each round takes at least one character,
so `bound` rounds suffice for a text of that length. -/
def stringChars : (bound : Nat) → Reader (List Char)
  | 0, _ => .error .cutOff
  | _ + 1, [] => .error .cutOff
  | bound + 1, c :: rest =>
      if c = '"' then .ok ([], rest)
      else if c = '\\' then do
        let (plain, rest) ← escape rest
        let (chars, rest) ← stringChars bound rest
        .ok (plain :: chars, rest)
      else if c.toNat < 0x20 then .error .malformed
      else do
        let (chars, rest) ← stringChars bound rest
        .ok (c :: chars, rest)

/-- A string whose opening quote has been taken. -/
def stringLexeme : Reader String := fun text => do
  let (chars, rest) ← stringChars text.length text
  .ok (String.ofList chars, rest)

end ScenePack.Json
