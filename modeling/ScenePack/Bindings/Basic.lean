/-
**Bindings of a registry.**

Bindings are source text that declares a structure for every component type, with the layout of
its records, and a fixup for loaded images.  Here they are data; the text is written from them.

Main definitions:

* `Declaration` — the structure of a component type, with the assertions about it;
* `Bindings` — the bindings of a registry;
* `Bindings.ofRegistry` — the bindings of a registry whose names allow them.
-/

import ScenePack.Bindings.Fixup
import ScenePack.Bindings.Names
import ScenePack.Layout.Fingerprint

set_option relaxedAutoImplicit false
set_option autoImplicit false

namespace ScenePack

/-- The structure of a component type: its members with the types that hold them, and what is
asserted of its size, its alignment and the offsets of its fields. -/
structure Declaration where
  id : TypeId
  name : String
  members : List (String × String)
  size : Nat
  align : Nat
  offsets : List (String × Nat)
  deriving DecidableEq

namespace Declaration

/-- The member of a structure without fields. -/
def placeholder : String × String := ("_reserved", ScalarType.u8.name)

/-- The structure of a component type. -/
def ofLayout (layout : RecordLayout) : Declaration :=
  let members := layout.fields.map fun field =>
    (Bindings.fieldName field.name, Bindings.storageType (field.kind.map Target.name))
  { id := layout.id
    name := layout.name
    members := if members.isEmpty then [placeholder] else members
    size := layout.size
    align := layout.align
    offsets := layout.fields.map fun field => (Bindings.fieldName field.name, field.offset) }

end Declaration

/-- The bindings of a registry. -/
structure Bindings where
  fingerprint : String
  declarations : List Declaration
  fixup : Fixup
  deriving DecidableEq

namespace Bindings

/-- A name must be an identifier. -/
def checkIdentifier (name : String) : Except BindingsError Unit :=
  if isIdentifier name then .ok () else .error (.invalidIdentifier name)

/-- The name of a type must be an identifier, and neither reserved nor a keyword; the names of its
fields must be identifiers. -/
def checkLayout (layout : RecordLayout) : Except BindingsError Unit := do
  checkIdentifier layout.name
  if reserved.contains layout.name || keywords.contains layout.name then
    .error (.reservedName layout.name)
  layout.fields.forM fun field => checkIdentifier field.name

/-- The bindings of a registry. -/
def ofRegistry (registry : Registry) : Except BindingsError Bindings := do
  if registry.types.isEmpty then .error .emptySchema
  registry.types.forM checkLayout
  .ok
    { fingerprint := registry.fingerprint
      declarations := registry.types.map Declaration.ofLayout
      fixup := Fixup.ofRegistry registry }

end Bindings

end ScenePack
