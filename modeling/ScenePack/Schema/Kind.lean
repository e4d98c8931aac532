/-
**Kinds of fields.**

A field holds a fixed-width number, a text, a record embedded by value, or a reference to a record.
What a component or a reference names is a parameter: a type name in a schema, a name with its
position in a record layout.

Main definitions:

* `ScalarType` — the fixed-width numbers, with their names, sizes and alignments;
* `FieldKind` — the kinds of fields;
* `FieldKind.tag`, `FieldKind.describe` — their spellings.

Main results:

* `ScalarType.ofName?_name` — a number type is found by its name.
-/

import ScenePack.Numeric.BinaryFloat

set_option relaxedAutoImplicit false
set_option autoImplicit false

namespace ScenePack

/-! ### Scalars -/

/-- The fixed-width numbers: signed and unsigned integers, and floating-point numbers. -/
inductive ScalarType where
  | i8 | u8 | i16 | u16 | i32 | u32 | i64 | u64 | f32 | f64
  deriving DecidableEq

namespace ScalarType

/-- Every number type, in order. -/
def all : List ScalarType := [i8, u8, i16, u16, i32, u32, i64, u64, f32, f64]

/-- The spelling of a number type. -/
def name : ScalarType → String
  | i8 => "i8"
  | u8 => "u8"
  | i16 => "i16"
  | u16 => "u16"
  | i32 => "i32"
  | u32 => "u32"
  | i64 => "i64"
  | u64 => "u64"
  | f32 => "f32"
  | f64 => "f64"

/-- The width in bytes. -/
def size : ScalarType → Nat
  | i8 | u8 => 1
  | i16 | u16 => 2
  | i32 | u32 | f32 => 4
  | i64 | u64 | f64 => 8

/-- A number is aligned to its own width. -/
def align (type : ScalarType) : Nat := type.size

/-- The format of a floating-point type. -/
def floatFormat? : ScalarType → Option FloatFormat
  | f32 => some .binary32
  | f64 => some .binary64
  | _ => none

/-- Whether the type is a floating-point type. -/
def isFloat (type : ScalarType) : Bool := type.floatFormat?.isSome

/-- Whether the type is a signed integer type. -/
def isSigned : ScalarType → Bool
  | i8 | i16 | i32 | i64 => true
  | _ => false

/-- The type of a spelling. -/
def ofName? (spelling : String) : Option ScalarType := all.find? fun type => type.name = spelling

theorem ofName?_name (type : ScalarType) : ofName? type.name = some type := by
  cases type <;> decide

theorem size_pos (type : ScalarType) : 0 < type.size := by
  cases type <;> decide

end ScalarType

/-! ### Field kinds -/

/-- What a field holds, where components and references name a `Target`. -/
inductive FieldKind (Target : Type) where
  | scalar (type : ScalarType)
  | text
  | component (target : Target)
  | ref (target : Target)
  deriving DecidableEq

namespace FieldKind

variable {Target : Type}

/-- The spelling of a kind without its target. -/
def tag : FieldKind Target → String
  | scalar type => type.name
  | text => "text"
  | component _ => "component"
  | ref _ => "component_ref"

/-- The target of a component or a reference. -/
def target? : FieldKind Target → Option Target
  | scalar _ | text => none
  | component target | ref target => some target

/-- The same kind with its target changed. -/
def map {Other : Type} (f : Target → Other) : FieldKind Target → FieldKind Other
  | scalar type => scalar type
  | text => text
  | component target => component (f target)
  | ref target => ref (f target)

/-- The spelling of a kind with the name of its target. -/
def describe (kind : FieldKind String) : String :=
  match kind.target? with
  | some target => kind.tag ++ "<" ++ target ++ ">"
  | none => kind.tag

@[simp] theorem tag_map {Other : Type} (f : Target → Other) (kind : FieldKind Target) :
    (kind.map f).tag = kind.tag := by
  cases kind <;> rfl

end FieldKind

end ScenePack
