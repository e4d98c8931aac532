/-
**Schemas.**

A schema lists component types, each an ordered list of named fields.  It is what a user writes:
names may be repeated or undefined until the schema is checked.

Main definitions:

* `Field`, `ComponentType`, `Schema` — the parts of a schema;
* `ComponentType.embedded`, `ComponentType.referenced` — the types that a type names;
* `EmbeddingCycle`, `SchemaError` — what can be wrong with a schema;
* `Field.parse` — a field from the spelling of its kind;
* `Schema.validate` — the check of names.
-/

import ScenePack.Json.Lexeme
import ScenePack.Schema.Kind

set_option relaxedAutoImplicit false
set_option autoImplicit false

namespace ScenePack

/-- A named field of a component type. -/
structure Field where
  name : String
  kind : FieldKind String
  deriving DecidableEq

/-- A component type: a name and its fields in order. -/
structure ComponentType where
  name : String
  fields : List Field
  deriving DecidableEq

/-- The component types of a schema, in the order of their definition. -/
abbrev Schema := List ComponentType

namespace ComponentType

/-- The types of the records embedded in a type, field by field. -/
def embedded (type : ComponentType) : List String :=
  type.fields.filterMap fun field =>
    match field.kind with
    | .component target => some target
    | _ => none

/-- The types that the references of a type point to, field by field. -/
def referenced (type : ComponentType) : List String :=
  type.fields.filterMap fun field =>
    match field.kind with
    | .ref target => some target
    | _ => none

/-- The first field of the given name. -/
def field? (type : ComponentType) (name : String) : Option Field :=
  type.fields.find? fun field => field.name = name

end ComponentType

namespace Schema

/-- The names of the types, in the order of their definition. -/
def names (schema : Schema) : List String := schema.map ComponentType.name

/-- The first type of the given name. -/
def type? (schema : Schema) (name : String) : Option ComponentType :=
  schema.find? fun type => type.name = name

end Schema

/-! ### Errors -/

/-- Types that embed one another in a circle: each member embeds the next, the last one the first,
which is where the circle was entered. -/
structure EmbeddingCycle where
  entry : String
  members : List String
  deriving DecidableEq

/-- What can be wrong with a schema or with the alignment asked for. -/
inductive SchemaError where
  | unknownKind (owner field kind : String)
  | missingTarget (owner field kind : String)
  | unexpectedTarget (owner field kind : String)
  | undefinedType (owner field target : String)
  | duplicateType (name : String)
  | duplicateField (owner field : String)
  | invalidAlignment (align limit : Nat)
  | unreadable (fault : Json.Fault)
  | cyclic (cycle : EmbeddingCycle)
  deriving DecidableEq

namespace SchemaError

/-- A field with its owner, as messages quote it. -/
def quoted (owner field : String) : String := "'" ++ owner ++ "." ++ field ++ "'"

/-- The message of an error. -/
def message : SchemaError → String
  | unknownKind owner field kind =>
      "field " ++ quoted owner field ++ " has unknown kind '" ++ kind ++ "'"
  | missingTarget owner field kind =>
      "field " ++ quoted owner field ++ " of kind '" ++ kind ++ "' does not name a referenced type"
  | unexpectedTarget owner field kind =>
      "field " ++ quoted owner field ++ " of kind '" ++ kind ++ "' cannot reference a type"
  | undefinedType owner field target =>
      "field " ++ quoted owner field ++ " references undefined type '" ++ target ++ "'"
  | duplicateType name => "component type '" ++ name ++ "' is defined more than once"
  | duplicateField owner field =>
      "field '" ++ field ++ "' is defined more than once in '" ++ owner ++ "'"
  | invalidAlignment align limit =>
      "record alignment " ++ toString align ++ " must be a power of two no greater than " ++
        toString limit
  | unreadable _ => "failed to parse schema source"
  | cyclic cycle =>
      "infinite dependency loop detected in '" ++ cycle.entry ++ "' (" ++
        String.intercalate " -> " cycle.members ++ ")"

end SchemaError

/-! ### Fields by spelling -/

/-- The field of `owner` with the given name, kind and target.  Components and references need a
target, and other kinds take none. -/
def Field.parse (owner name kind : String) (target? : Option String) :
    Except SchemaError Field :=
  if kind = "component" ∨ kind = "component_ref" then
    match target? with
    | none => .error (.missingTarget owner name kind)
    | some target =>
        if kind = "component" then .ok ⟨name, .component target⟩ else .ok ⟨name, .ref target⟩
  else
    let plain? : Option (FieldKind String) :=
      if kind = "text" then some .text else (ScalarType.ofName? kind).map .scalar
    match plain?, target? with
    | none, _ => .error (.unknownKind owner name kind)
    | some _, some _ => .error (.unexpectedTarget owner name kind)
    | some plain, none => .ok ⟨name, plain⟩

/-! ### Validation -/

/-- The first name that also occurs earlier, in the list itself or in `seen`. -/
def firstRepeat? : (seen : List String) → List String → Option String
  | _, [] => none
  | seen, name :: rest =>
      if seen.contains name then some name else firstRepeat? (name :: seen) rest

namespace Schema

/-- Type names are checked in order, and the field names of each type right after its own name. -/
def checkNames : (seen : List String) → Schema → Except SchemaError Unit
  | _, [] => .ok ()
  | seen, type :: rest =>
      if seen.contains type.name then .error (.duplicateType type.name)
      else match firstRepeat? [] (type.fields.map Field.name) with
        | some field => .error (.duplicateField type.name field)
        | none => checkNames (type.name :: seen) rest

/-- The target of a field must be among the given names. -/
def checkTarget (names : List String) (owner : String) (field : Field) : Except SchemaError Unit :=
  match field.kind.target? with
  | none => .ok ()
  | some target =>
      if names.contains target then .ok ()
      else .error (.undefinedType owner field.name target)

/-- Names must be unique, and every target defined.  Repeated names are found before undefined
targets. -/
def validate (schema : Schema) : Except SchemaError Unit := do
  checkNames [] schema
  schema.forM fun type => type.fields.forM (checkTarget schema.names type.name)

end Schema

end ScenePack
