/-
**Readers of JSON values.**

Containers are read element by element, so the first fault in the order of the text is the one
reported.  The count of containers that may still be opened bounds the nesting of a text.

Main definitions:

* `Json.elements`, `Json.members` — the elements of an array and the members of an object, each
  after its opening bracket;
* `Json.value` — any value;
* `Json.document` — a reader's value with nothing but blanks after it.
-/

import ScenePack.Json.Lexeme

set_option relaxedAutoImplicit false
set_option autoImplicit false

namespace ScenePack.Json

/-- The count of containers that may be open at the same time. -/
def nestingLimit : Nat := 127

/-! ### Containers -/

/-- What comes before an element other than the first: a comma, and then not the closing bracket.
Returns the text at the element. -/
def afterComma (closing : Char) (text : List Char) : Except Fault (List Char) :=
  match text with
  | ',' :: rest =>
      match skipBlank rest with
      | [] => .error .cutOff
      | c :: rest => if c = closing then .error .malformed else .ok (c :: rest)
  | _ => .error .malformed

/-- The elements of an array from the front of the text to its closing bracket.  Each element
takes at least one character, so `bound` elements suffice for a text of that length. -/
def elementsFrom {α : Type} (element : Reader α) :
    (bound : Nat) → (first : Bool) → Reader (List α)
  | 0, _, _ => .error .cutOff
  | bound + 1, first, text =>
      match skipBlank text with
      | [] => .error .cutOff
      | ']' :: rest => .ok ([], rest)
      | text => do
          let text ← if first then .ok text else afterComma ']' text
          let (item, text) ← element text
          let (items, text) ← elementsFrom element bound false text
          .ok (item :: items, text)

/-- The elements of an array whose opening bracket has been taken. -/
def elements {α : Type} (element : Reader α) : Reader (List α) := fun text =>
  elementsFrom element (text.length + 1) true text

/-- The key of a member, and the colon after it. `enter` is told the key before the colon is
looked for. -/
def memberKey {σ : Type} (enter : String → Except Fault (Reader σ)) : Reader (Reader σ) :=
  fun text =>
    match text with
    | '"' :: rest => do
        let (key, rest) ← stringLexeme rest
        let read ← enter key
        match skipBlank rest with
        | [] => .error .cutOff
        | ':' :: rest => .ok (read, rest)
        | _ => .error .malformed
    | _ => .error .malformed

/-- The members of an object from the front of the text to its closing bracket.  A state is passed
from member to member: `enter` says, for the state and the key of a member, how its value changes
the state, or that the key is not allowed. -/
def membersFrom {σ : Type} (enter : σ → String → Except Fault (Reader σ)) :
    (bound : Nat) → (first : Bool) → σ → Reader σ
  | 0, _, _, _ => .error .cutOff
  | bound + 1, first, state, text =>
      match skipBlank text with
      | [] => .error .cutOff
      | '\x7d' :: rest => .ok (state, rest)
      | text => do
          let text ← if first then .ok text else afterComma '\x7d' text
          let (read, text) ← memberKey (enter state) text
          let (state, text) ← read text
          membersFrom enter bound false state text

/-- The members of an object whose opening bracket has been taken. -/
def members {σ : Type} (enter : σ → String → Except Fault (Reader σ)) (start : σ) : Reader σ :=
  fun text => membersFrom enter (text.length + 1) true start text

/-! ### Values -/

/-- A value with at most `nesting` containers open in it at the same time. -/
def value : (nesting : Nat) → Reader Json := fun nesting text =>
  match skipBlank text with
  | [] => .error .cutOff
  | 'n' :: rest => (keyword ['u', 'l', 'l'] rest).map fun r => (.null, r.2)
  | 't' :: rest => (keyword ['r', 'u', 'e'] rest).map fun r => (.bool true, r.2)
  | 'f' :: rest => (keyword ['a', 'l', 's', 'e'] rest).map fun r => (.bool false, r.2)
  | '"' :: rest => (stringLexeme rest).map fun r => (.string r.1, r.2)
  | '[' :: rest =>
      match nesting with
      | 0 => .error .malformed
      | nesting + 1 => (elements (value nesting) rest).map fun r => (.array r.1, r.2)
  | '\x7b' :: rest =>
      match nesting with
      | 0 => .error .malformed
      | nesting + 1 =>
          let enter (sofar : List (String × Json)) (key : String) :
              Except Fault (Reader (List (String × Json))) :=
            .ok fun text => (value nesting text).map fun r => (insertMember key r.1 sofar, r.2)
          (members enter [] rest).map fun r => (.object r.1, r.2)
  | c :: rest =>
      if c = '-' ∨ c.isDigit then (numberLexeme (c :: rest)).map fun r => (.number r.1, r.2)
      else .error .malformed

/-- The value of a whole text: nothing but blanks may follow it. -/
def document {α : Type} (read : Reader α) (text : String) : Except Fault α := do
  let (result, rest) ← read text.toList
  if (skipBlank rest).isEmpty then .ok result else .error .malformed

end ScenePack.Json
