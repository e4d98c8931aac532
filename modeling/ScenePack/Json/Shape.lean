/-
**Readers for JSON of a given shape.**

A shape reader knows which value it expects and reports the first place where the text departs
from it.  A value of another kind is still read as far as its first lexeme, whose own faults come
before the wrong shape.  A record may be written as an object, whose keys must be known and
distinct, or as an array of its members in order.

Main definitions:

* `Json.mismatch` — the fault of a value of another kind than the expected one;
* `Json.text`, `Json.optionalText`, `Json.listOf`, `Json.objectMembers` — readers of strings,
  strings or null, lists, and the members of any object;
* `Json.Member`, `Json.record` — records with required and optional members.
-/

import ScenePack.Json.Reader

set_option relaxedAutoImplicit false
set_option autoImplicit false

namespace ScenePack.Json

/-- The fault of a lexeme that is not the expected one: its own, or else the wrong shape. -/
def misshapenAfter {α : Type} : Except Fault α → Fault
  | .error fault => fault
  | .ok _ => .misshapen

/-- The fault of a text that starts a value of another kind than the expected one. -/
def mismatch (text : List Char) : Fault :=
  match text with
  | [] => .cutOff
  | 'n' :: rest => misshapenAfter (keyword ['u', 'l', 'l'] rest)
  | 't' :: rest => misshapenAfter (keyword ['r', 'u', 'e'] rest)
  | 'f' :: rest => misshapenAfter (keyword ['a', 'l', 's', 'e'] rest)
  | '"' :: rest => misshapenAfter (stringLexeme rest)
  | '[' :: _ => .misshapen
  | '\x7b' :: _ => .misshapen
  | c :: rest =>
      if c = '-' ∨ c.isDigit then misshapenAfter (numberLexeme (c :: rest)) else .malformed

/-! ### Strings, lists and maps -/

/-- A string. -/
def text : Reader String := fun chars =>
  match skipBlank chars with
  | '"' :: rest => stringLexeme rest
  | other => .error (mismatch other)

/-- A string or null. -/
def optionalText : Reader (Option String) := fun chars =>
  match skipBlank chars with
  | 'n' :: rest => (keyword ['u', 'l', 'l'] rest).map fun r => (none, r.2)
  | other => (text other).map fun r => (some r.1, r.2)

/-- A list, where `element` is told how many containers may be open inside the list. -/
def listOf {α : Type} (element : Nat → Reader α) (nesting : Nat) : Reader (List α) := fun chars =>
  match skipBlank chars with
  | '[' :: rest =>
      match nesting with
      | 0 => .error .malformed
      | nesting + 1 => elements (element nesting) rest
  | other => .error (mismatch other)

/-- The members of an object of any values. -/
def objectMembers (nesting : Nat) : Reader (List (String × Json)) := fun chars =>
  match skipBlank chars with
  | '\x7b' :: rest =>
      (value nesting ('\x7b' :: rest)).map fun r =>
        match r.1 with
        | .object found => (found, r.2)
        | _ => ([], r.2)
  | other => .error (mismatch other)

/-! ### Records -/

/-- A member of a record under construction: its key, whether it may be absent, and how its value
is stored. -/
structure Member (σ : Type) where
  key : String
  required : Bool
  store : σ → Reader σ

/-- How a record written as an object goes on after a key: the key must be known and new. -/
def enterMember {σ : Type} (shape : List (Member σ)) (state : σ × List String) (key : String) :
    Except Fault (Reader (σ × List String)) :=
  match shape.find? (fun member => member.key = key) with
  | none => .error .misshapen
  | some member =>
      if state.2.contains key then .error .misshapen
      else .ok fun chars => (member.store state.1 chars).map fun r => ((r.1, key :: state.2), r.2)

/-- The rest of a record written as an array.  Members at the end may be left out if none of them
is required; after the last member only the closing bracket may come. -/
def positional {σ : Type} : List (Member σ) → (first : Bool) → σ → Reader σ
  | [], _, state, chars =>
      match skipBlank chars with
      | [] => .error .cutOff
      | ']' :: rest => .ok (state, rest)
      | _ => .error .malformed
  | member :: shape, first, state, chars =>
      match skipBlank chars with
      | [] => .error .cutOff
      | ']' :: rest =>
          if (member :: shape).any Member.required then .error .misshapen else .ok (state, rest)
      | other => do
          let other ← if first then .ok other else afterComma ']' other
          let (state, other) ← member.store state other
          positional shape false state other

/-- A record that starts from `start`, where `shape` gives its members for the count of containers
that may be open inside it. -/
def record {σ : Type} (shape : Nat → List (Member σ)) (start : σ) (nesting : Nat) : Reader σ :=
  fun chars =>
    match skipBlank chars with
    | '\x7b' :: rest =>
        match nesting with
        | 0 => .error .malformed
        | nesting + 1 => do
            let ((state, seen), rest) ← members (enterMember (shape nesting)) (start, []) rest
            if (shape nesting).any fun member => member.required && !seen.contains member.key then
              .error .misshapen
            else .ok (state, rest)
    | '[' :: rest =>
        match nesting with
        | 0 => .error .malformed
        | nesting + 1 => positional (shape nesting) true start rest
    | other => .error (mismatch other)

end ScenePack.Json
