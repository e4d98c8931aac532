/-
**Names in generated bindings.**

Bindings declare one structure per component type under the type's own name, with its fields.
Names must be identifiers, and type names must differ from keywords and from the names that the
bindings declare or use themselves.

Main definitions:

* `Bindings.storageType` — the type that holds a field;
* `Bindings.isIdentifier`, `Bindings.keywords`, `Bindings.reserved` — which names are allowed;
* `Bindings.fieldName` — how a field is spelled;
* `BindingsError` — why there are no bindings.
-/

import ScenePack.Schema.Basic

set_option relaxedAutoImplicit false
set_option autoImplicit false

namespace ScenePack

/-- Why there are no bindings. -/
inductive BindingsError where
  | schema (error : SchemaError)
  | invalidIdentifier (name : String)
  | reservedName (name : String)
  | emptySchema
  deriving DecidableEq

/-- The message of an error. -/
def BindingsError.message : BindingsError → String
  | schema error => error.message
  | invalidIdentifier name => "'" ++ name ++ "' is not a valid Rust identifier"
  | reservedName name => "component type name '" ++ name ++ "' collides with a generated item"
  | emptySchema => "cannot generate bindings for an empty schema"

namespace Bindings

/-- The type that holds a field: numbers and components by value, the rest by pointer. -/
def storageType : FieldKind String → String
  | .scalar type => type.name
  | .text => "*const ::core::ffi::c_char"
  | .component target => target
  | .ref target => "*const " ++ target

/-- The names of types that the bindings declare or use themselves. -/
def reserved : List String :=
  ["TypeId", "Scene", "ComponentRange"] ++ ScalarType.all.map ScalarType.name

/-- Keywords, which may name a field if they are marked as raw. -/
def keywords : List String :=
  ["as", "async", "await", "box", "break", "const", "continue", "dyn", "else", "enum", "extern",
   "false", "fn", "for", "gen", "if", "impl", "in", "let", "loop", "match", "mod", "move", "mut",
   "pub", "ref", "return", "static", "struct", "trait", "true", "try", "type", "unsafe", "use",
   "where", "while", "abstract", "become", "do", "final", "macro", "override", "priv", "typeof",
   "unsized", "virtual", "yield"]

/-- Keywords that cannot be marked as raw. -/
def pathKeywords : List String := ["self", "Self", "super", "crate", "_"]

/-- Whether a character may start an identifier. -/
def startsIdentifier (c : Char) : Bool := c.isAlpha || c = '_'

/-- Whether a character may go on in an identifier. -/
def continuesIdentifier (c : Char) : Bool := c.isAlphanum || c = '_'

/-- Whether a name can be spelled as an identifier, possibly marked as raw. -/
def isIdentifier (name : String) : Bool :=
  match name.toList with
  | [] => false
  | c :: rest =>
      startsIdentifier c && rest.all continuesIdentifier && !pathKeywords.contains name

/-- The spelling of a field: keywords are marked as raw. -/
def fieldName (name : String) : String := if keywords.contains name then "r#" ++ name else name

end Bindings

end ScenePack
