/-
**Schemas as JSON text.**

The source of a schema is an object with a list of types; a type has a name and a list of fields,
and a field a name, a kind and, for components and references, the name of a type.

Main definitions:

* `FieldSource`, `TypeSource` — what the text says, before kinds are understood;
* `Schema.ofSource` — the schema of parsed sources;
* `Schema.read` — the schema of a text.
-/

import ScenePack.Json.Shape
import ScenePack.Schema.Basic

set_option relaxedAutoImplicit false
set_option autoImplicit false

namespace ScenePack

/-- A field as its source spells it. -/
structure FieldSource where
  name : String
  kind : String
  target : Option String

/-- A type as its source spells it. -/
structure TypeSource where
  name : String
  fields : List FieldSource

namespace FieldSource

/-- The members of a field. -/
def shape : List (Json.Member FieldSource) :=
  [⟨"name", true, fun field text =>
      (Json.text text).map fun r => ({ field with name := r.1 }, r.2)⟩,
   ⟨"kind", true, fun field text =>
      (Json.text text).map fun r => ({ field with kind := r.1 }, r.2)⟩,
   ⟨"type", false, fun field text =>
      (Json.optionalText text).map fun r => ({ field with target := r.1 }, r.2)⟩]

/-- A field from the front of a text. -/
def read (nesting : Nat) : Json.Reader FieldSource :=
  Json.record (fun _ => shape) ⟨"", "", none⟩ nesting

end FieldSource

namespace TypeSource

/-- The members of a type. -/
def shape (nesting : Nat) : List (Json.Member TypeSource) :=
  [⟨"name", true, fun type text =>
      (Json.text text).map fun r => ({ type with name := r.1 }, r.2)⟩,
   ⟨"fields", false, fun type text =>
      (Json.listOf FieldSource.read nesting text).map fun r => ({ type with fields := r.1 }, r.2)⟩]

/-- A type from the front of a text. -/
def read (nesting : Nat) : Json.Reader TypeSource := Json.record shape ⟨"", []⟩ nesting

/-- The members of a whole source: the list of types. -/
def documentShape (nesting : Nat) : List (Json.Member (List TypeSource)) :=
  [⟨"types", true, fun _ text => Json.listOf read nesting text⟩]

/-- The types of a whole source. -/
def readAll (text : String) : Except Json.Fault (List TypeSource) :=
  Json.document (Json.record documentShape [] Json.nestingLimit) text

/-- The component type of a parsed type. -/
def toType (source : TypeSource) : Except SchemaError ComponentType := do
  let fields ← source.fields.mapM fun field =>
    Field.parse source.name field.name field.kind field.target
  .ok ⟨source.name, fields⟩

end TypeSource

namespace Schema

/-- The schema of parsed types. -/
def ofSource (sources : List TypeSource) : Except SchemaError Schema :=
  sources.mapM TypeSource.toType

/-- The schema of a text.  The text is read to its end before kinds are looked at. -/
def read (text : String) : Except SchemaError Schema :=
  match TypeSource.readAll text with
  | .error fault => .error (.unreadable fault)
  | .ok sources => ofSource sources

end Schema

end ScenePack
