/-
**Quoted text for developers.**

A text stands between double quotes.  Quotes, backslashes and the common control characters have
short escapes; any other character that is not shown by itself is written by its code.

Main definitions:

* `Quoted.escape` — what is written for a character;
* `Quoted.encode` — what is written for a text.
-/

import ScenePack.Text.Hex
import ScenePack.Text.Unprinted

set_option relaxedAutoImplicit false
set_option autoImplicit false

namespace ScenePack.Quoted

/-- What is written for a character between quotes. -/
def escape (c : Char) : String :=
  match c with
  | '"' => "\\\""
  | '\\' => "\\\\"
  | '\x00' => "\\0"
  | '\t' => "\\t"
  | '\n' => "\\n"
  | '\r' => "\\r"
  | c => if isUnprinted c then "\\u\x7b" ++ Hex.ofNat c.toNat ++ "\x7d" else String.singleton c

/-- The text between quotes. -/
def encode (text : String) : String := "\"" ++ String.join (text.toList.map escape) ++ "\""

end ScenePack.Quoted
