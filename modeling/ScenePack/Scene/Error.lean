/-
**Errors of scenes.**

Main definitions:

* `SceneError` — what can be wrong with a record, a scene or its source;
* `SceneError.message` — the message of an error.
-/

import ScenePack.Scene.Value

set_option relaxedAutoImplicit false
set_option autoImplicit false

namespace ScenePack

/-- What can be wrong with a record, a scene or its source.  `owner` and `field` name the place of
a value. -/
inductive SceneError where
  | danglingReference (owner field : String) (key : InstanceKey)
  | referenceMismatch (owner field : String) (key : InstanceKey) (expected found : String)
  | interiorNul (owner field : String)
  | unknownType (name : String)
  | unknownField (owner field : String)
  | valueMismatch (owner field expected found : String)
  | outOfRange (owner field : String) (type : ScalarType) (value : String)
  | missingValue (owner field : String)
  | unknownId (id : String)
  | duplicateId (id : String)
  | unreadable (fault : Json.Fault)
  deriving DecidableEq

namespace SceneError

/-- An instance, as messages show it. -/
def instanceText (key : InstanceKey) : String := "InstanceKey(" ++ toString key ++ ")"

/-- The message of an error. -/
def message : SceneError → String
  | danglingReference owner field key =>
      SchemaError.quoted owner field ++ " references instance " ++ instanceText key ++
        ", which is not part of the scene"
  | referenceMismatch owner field key expected found =>
      SchemaError.quoted owner field ++ " must reference a '" ++ expected ++ "' but instance " ++
        instanceText key ++ " is a '" ++ found ++ "'"
  | interiorNul owner field =>
      "text in " ++ SchemaError.quoted owner field ++ " contains an interior NUL byte"
  | unknownType name => "unknown component type '" ++ name ++ "'"
  | unknownField owner field => "component type '" ++ owner ++ "' has no field '" ++ field ++ "'"
  | valueMismatch owner field expected found =>
      SchemaError.quoted owner field ++ " expects " ++ expected ++ ", got " ++ found
  | outOfRange owner field type value =>
      "value " ++ value ++ " does not fit " ++ SchemaError.quoted owner field ++ " (" ++
        type.name ++ ")"
  | missingValue owner field =>
      SchemaError.quoted owner field ++ " has no value in a record of fewer fields"
  | unknownId id => "no instance has id '" ++ id ++ "'"
  | duplicateId id => "instance id '" ++ id ++ "' is used more than once"
  | unreadable _ => "failed to parse scene source"

end SceneError

end ScenePack
