/-
**Scenes.**

A scene lists records; references lead to positions in the list.  New records hold zeros, and
setting a field checks the value against the kind of the field.

Main definitions:

* `Scene` — the records of a scene;
* `Registry.zeroValue`, `Registry.zeroRecord` — what a new record holds;
* `Record.new`, `Record.get?`, `Record.set` — records of named types, and their fields by name;
* `Scene.setField` — a field of a record of a scene.

Main results:

* `Record.eq_of_set` — setting a field replaces one value, and keeps the type and the other values.
-/

import ScenePack.Layout.Registry
import ScenePack.Scene.Error

set_option relaxedAutoImplicit false
set_option autoImplicit false

namespace ScenePack

/-- The records of a scene; the key of a record is its position. -/
abbrev Scene := List Record

/-! ### Zero records -/

namespace Registry

/-- The zero of a field: zero numbers, no text, no reference, and embedded records of zeros.
Embedded records are built down to `nesting` levels; the depth of the type that owns the field is
enough for all of them. -/
def zeroValue (registry : Registry) : (nesting : Nat) → FieldKind Target → Value
  | _, .scalar type => .scalar (.zero type)
  | _, .text => .text none
  | _, .ref _ => .ref none
  | 0, .component _ => .ref none
  | nesting + 1, .component target =>
      match registry.layout? target.id with
      | none => .ref none
      | some layout =>
          .component layout.id
            (layout.fields.map fun field => zeroValue registry nesting field.kind)

/-- A record of zeros. -/
def zeroRecord (registry : Registry) (layout : RecordLayout) : Record :=
  ⟨layout.id, layout.fields.map fun field => registry.zeroValue layout.depth field.kind⟩

end Registry

/-! ### Records -/

namespace Record

/-- A record of zeros of the named type. -/
def new (registry : Registry) (name : String) : Except SceneError Record :=
  match registry.named? name with
  | some layout => .ok (registry.zeroRecord layout)
  | none => .error (.unknownType name)

/-- The value of the named field. -/
def get? (registry : Registry) (record : Record) (field : String) : Option Value := do
  let layout ← registry.layout? record.typeId
  let index ← layout.fieldIndex? field
  record.values[index]?

/-- The record with the named field set to a value that the field accepts.  A record that was made
for another registry may be too short to have a value there. -/
def set (registry : Registry) (record : Record) (field : String) (value : Value) :
    Except SceneError Record :=
  match registry.layout? record.typeId with
  | none => .error (.unknownType (registry.describe record.typeId))
  | some layout =>
      match layout.find? field with
      | none => .error (.unknownField layout.name field)
      | some (placed, index) =>
          if !placed.kind.accepts value then
            .error (.valueMismatch layout.name field placed.describe value.kindName)
          else if record.values.length ≤ index then .error (.missingValue layout.name field)
          else .ok ⟨record.typeId, record.values.set index value⟩

theorem eq_of_set {registry : Registry} {record changed : Record} {field : String} {value : Value}
    (h : record.set registry field value = .ok changed) :
    ∃ index < record.values.length, changed = ⟨record.typeId, record.values.set index value⟩ := by
  unfold set at h
  split at h
  · cases h
  · split at h
    · cases h
    · next placed index _ =>
        split at h
        · cases h
        · split at h
          · cases h
          · next hlt => exact ⟨index, by omega, (Except.ok.inj h).symm⟩

end Record

namespace Scene

/-- The scene with a field of one of its records set; `none` if it has no such record. -/
def setField (registry : Registry) (scene : Scene) (key : InstanceKey) (field : String)
    (value : Value) : Option (Except SceneError Scene) :=
  scene[key]?.map fun record =>
    (record.set registry field value).map fun changed => scene.set key changed

/-- Whether two scenes are equal, record by record. -/
def equals (a b : Scene) : Bool :=
  a.length = b.length && (a.zip b).all fun pair => pair.1.equals pair.2

end Scene

end ScenePack
