/-
**Checking a scene before it is packed.**

A scene can be packed if every value suits its field, no text holds a zero byte, and every
reference leads to a record of the scene of the right type.  Values and fields are compared one by
one, as far as both go.

Main definitions:

* `Scene.checkValue`, `Scene.checkValues` — the check of a value, and of the values of a record;
* `Scene.check` — the check of a scene, which reports the first violation in order.
-/

import ScenePack.Scene.Basic

set_option relaxedAutoImplicit false
set_option autoImplicit false

namespace ScenePack.Scene

/-- A reference must lead to a record of the scene, of the type that the field names. -/
def checkRef (registry : Registry) (scene : Scene) (owner : RecordLayout) (field : FieldLayout)
    (target : Target) (key : InstanceKey) : Except SceneError Unit :=
  match scene[key]? with
  | none => .error (.danglingReference owner.name field.name key)
  | some record =>
      if record.typeId = target.id then .ok ()
      else .error (.referenceMismatch owner.name field.name key target.name
        (registry.describe record.typeId))

mutual

/-- The check of the value of a field. -/
def checkValue (registry : Registry) (scene : Scene) (owner : RecordLayout) (field : FieldLayout)
    (value : Value) : Except SceneError Unit :=
  match value, field.kind with
  | .text (some text), .text =>
      if text.contains '\x00' then .error (.interiorNul owner.name field.name) else .ok ()
  | .ref (some key), .ref target => checkRef registry scene owner field target key
  | .component typeId values, .component target =>
      if typeId = target.id then
        match registry.layout? typeId with
        | none => .error (.unknownType (registry.describe typeId))
        | some layout => checkValues registry scene layout layout.fields values
      else .error (.valueMismatch owner.name field.name field.describe "component")
  | value, kind =>
      if kind.accepts value then .ok ()
      else .error (.valueMismatch owner.name field.name field.describe value.kindName)

/-- The check of the values of fields, one by one. -/
def checkValues (registry : Registry) (scene : Scene) (owner : RecordLayout)
    (fields : List FieldLayout) (values : List Value) : Except SceneError Unit :=
  match values, fields with
  | value :: values, field :: fields => do
      checkValue registry scene owner field value
      checkValues registry scene owner fields values
  | _, _ => .ok ()

end

/-- The check of a record. -/
def checkRecord (registry : Registry) (scene : Scene) (record : Record) :
    Except SceneError Unit :=
  match registry.layout? record.typeId with
  | none => .error (.unknownType (registry.describe record.typeId))
  | some layout => checkValues registry scene layout layout.fields record.values

/-- The check of a scene, record by record. -/
def check (registry : Registry) (scene : Scene) : Except SceneError Unit :=
  scene.forM (checkRecord registry scene)

end ScenePack.Scene
