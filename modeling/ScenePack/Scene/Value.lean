/-
**Values and records.**

A record holds one value for each field of its type, in order.  A number is held by its bit
pattern, so floating-point numbers keep their sign of zero and the payload of what is not a number.

Main definitions:

* `InstanceKey` — a record of a scene, by its position;
* `Scalar` — a number of a fixed-width type;
* `Value`, `Record` — values and records;
* `Scalar.equals`, `Record.equals` — equality in the sense of floating-point comparison;
* `FieldKind.accepts` — which values a field can hold;
* `Value.texts` — the texts in a value.

Main results:

* `Scalar.ofBytes_bytes` — a number reads back from its bytes.
-/

import ScenePack.Bytes
import ScenePack.Layout.Basic

set_option relaxedAutoImplicit false
set_option autoImplicit false

namespace ScenePack

/-- A record of a scene, by its position. -/
abbrev InstanceKey := Nat

/-! ### Scalars -/

/-- A number of a fixed-width type, by its bit pattern. -/
structure Scalar where
  type : ScalarType
  word : Nat
  word_lt : word < Word.limit type.size
  deriving DecidableEq

namespace Scalar

/-- The number of the low bits of a word. -/
def truncate (type : ScalarType) (word : Nat) : Scalar :=
  ⟨type, word % Word.limit type.size, Nat.mod_lt _ (Word.limit_pos _)⟩

/-- The zero of a type. -/
def zero (type : ScalarType) : Scalar := truncate type 0

/-- The integer that a bit pattern of an integer type stands for. -/
def toInt (scalar : Scalar) : Int :=
  if scalar.type.isSigned ∧ Word.limit scalar.type.size ≤ 2 * scalar.word then
    (scalar.word : Int) - Word.limit scalar.type.size
  else scalar.word

/-- The number of an integer type with the given value, if the type has it. -/
def ofInt? (type : ScalarType) (value : Int) : Option Scalar :=
  let scalar := truncate type (value % Word.limit type.size).toNat
  if scalar.toInt = value then some scalar else none

/-- The bytes of a number. -/
def bytes (scalar : Scalar) : Bytes := Word.encode scalar.type.size scalar.word

/-- The number of the given bytes. -/
def ofBytes (type : ScalarType) (bytes : Bytes) : Scalar := truncate type (Word.decode bytes)

@[simp] theorem length_bytes (scalar : Scalar) : scalar.bytes.length = scalar.type.size :=
  Word.length_encode _ _

/-- A number reads back from its bytes. -/
theorem ofBytes_bytes (scalar : Scalar) : ofBytes scalar.type scalar.bytes = scalar := by
  obtain ⟨type, word, word_lt⟩ := scalar
  simp only [ofBytes, bytes, truncate, Word.decode_encode word_lt, Nat.mod_eq_of_lt word_lt]

/-- Whether two numbers of one type are equal: integers by their bit patterns, floating-point
numbers as numbers, so that both zeros are equal and what is not a number equals nothing. -/
def equals (a b : Scalar) : Bool :=
  a.type = b.type &&
    match a.type.floatFormat? with
    | none => a.word = b.word
    | some format =>
        !format.isNaN a.word && !format.isNaN b.word &&
          (a.word = b.word || (format.magnitude a.word = 0 && format.magnitude b.word = 0))

end Scalar

/-! ### Values -/

/-- A value: a number, a text or none, an embedded record, or a reference to a record or none. -/
inductive Value where
  | scalar (value : Scalar)
  | text (value : Option String)
  | component (typeId : TypeId) (values : List Value)
  | ref (key : Option InstanceKey)

/-- The values of a record of a component type, field by field. -/
structure Record where
  typeId : TypeId
  values : List Value

namespace Value

/-- A record as an embedded value. -/
def ofRecord (record : Record) : Value := component record.typeId record.values

/-- The kind of a value, as messages name it. -/
def kindName : Value → String
  | scalar value => value.type.name
  | text _ => "text"
  | component _ _ => "component"
  | ref _ => "component_ref"

mutual

/-- Whether two values are equal, numbers in the sense of `Scalar.equals`. -/
def equals : Value → Value → Bool
  | scalar a, scalar b => a.equals b
  | text a, text b => a = b
  | component typeId values, component otherId others => typeId = otherId && allEqual values others
  | ref a, ref b => a = b
  | _, _ => false

/-- Whether two lists of values are equal, value by value. -/
def allEqual : List Value → List Value → Bool
  | [], [] => true
  | value :: values, other :: others => equals value other && allEqual values others
  | _, _ => false

end

mutual

/-- The texts in a value, those of embedded records included. -/
def texts : Value → List String
  | text (some value) => [value]
  | component _ values => allTexts values
  | _ => []

/-- The texts in a list of values, value by value. -/
def allTexts : List Value → List String
  | [] => []
  | value :: values => texts value ++ allTexts values

end

end Value

/-- Whether two records are equal, numbers in the sense of `Scalar.equals`. -/
def Record.equals (a b : Record) : Bool := a.typeId = b.typeId && Value.allEqual a.values b.values

/-- Whether a field of a kind can hold a value.  An embedded record must be of the type that the
field names; what a reference leads to is not looked at. -/
def FieldKind.accepts : FieldKind Target → Value → Bool
  | .scalar type, .scalar value => value.type = type
  | .text, .text _ => true
  | .component target, .component typeId _ => typeId = target.id
  | .ref _, .ref _ => true
  | _, _ => false

end ScenePack
