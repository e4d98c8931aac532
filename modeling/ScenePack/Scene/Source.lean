/-
**Scenes as JSON text.**

The source of a scene lists instances: an id, by which others refer to it, the name of its type,
and the values of some of its fields.  The other fields hold zeros.

Main definitions:

* `InstanceSource` — what the text says of an instance, before its values are understood;
* `Scalar.ofNumber?` — the number of a type that a JSON number stands for;
* `Scene.convertValue`, `Scene.convertFields` — the values of fields;
* `Scene.ofSource`, `Scene.read` — the scene of parsed instances and of a text.
-/

import ScenePack.Json.Shape
import ScenePack.Scene.Basic

set_option relaxedAutoImplicit false
set_option autoImplicit false

namespace ScenePack

/-! ### The text of an instance -/

/-- An instance as its source spells it.  The fields have distinct names in ascending order. -/
structure InstanceSource where
  id : Option String
  type : String
  fields : List (String × Json)

namespace InstanceSource

/-- The members of an instance. -/
def shape (nesting : Nat) : List (Json.Member InstanceSource) :=
  [⟨"id", false, fun source text =>
      (Json.optionalText text).map fun r => ({ source with id := r.1 }, r.2)⟩,
   ⟨"type", true, fun source text =>
      (Json.text text).map fun r => ({ source with type := r.1 }, r.2)⟩,
   ⟨"fields", false, fun source text =>
      (Json.objectMembers nesting text).map fun r => ({ source with fields := r.1 }, r.2)⟩]

/-- An instance from the front of a text. -/
def read (nesting : Nat) : Json.Reader InstanceSource := Json.record shape ⟨none, "", []⟩ nesting

/-- The members of a whole source: the list of instances. -/
def documentShape (nesting : Nat) : List (Json.Member (List InstanceSource)) :=
  [⟨"instances", true, fun _ text => Json.listOf read nesting text⟩]

/-- The instances of a whole source. -/
def readAll (text : String) : Except Json.Fault (List InstanceSource) :=
  Json.document (Json.record documentShape [] Json.nestingLimit) text

end InstanceSource

/-! ### Values -/

/-- The number of a type that a JSON number stands for, if it is within range.  Integer types take
integers only; floating-point types take the nearest number, which must be finite. -/
def Scalar.ofNumber? (type : ScalarType) (number : JsonNumber) : Option Scalar :=
  match type with
  | .f32 =>
      let narrow := FloatFormat.binary64.convert .binary32 number.toBinary64
      if FloatFormat.binary32.isFinite narrow then some (.truncate .f32 narrow) else none
  | .f64 => some (.truncate .f64 number.toBinary64)
  | type => number.toInt?.bind (Scalar.ofInt? type)

/-- The keys of the instances that have an id. -/
abbrev InstanceIds := List (String × InstanceKey)

namespace Scene

/-- The error of a JSON value of a kind that a field does not take. -/
def jsonMismatch (owner : RecordLayout) (field : FieldLayout) (json : Json) : SceneError :=
  .valueMismatch owner.name field.name field.describe json.kindName

/-- The key of the instance that a JSON value refers to by a member `ref`. -/
def convertRef (ids : InstanceIds) (owner : RecordLayout) (field : FieldLayout) (json : Json) :
    Except SceneError InstanceKey :=
  match json with
  | .object found =>
      match found.lookup "ref" with
      | some (.string id) =>
          match ids.lookup id with
          | some key => .ok key
          | none => .error (.unknownId id)
      | _ => .error (jsonMismatch owner field json)
  | _ => .error (jsonMismatch owner field json)

mutual

/-- The value of a field that a JSON value stands for. -/
def convertValue (registry : Registry) (ids : InstanceIds) (owner : RecordLayout)
    (field : FieldLayout) (json : Json) : Except SceneError Value :=
  match json, field.kind with
  | .number number, .scalar type =>
      match Scalar.ofNumber? type number with
      | some value => .ok (.scalar value)
      | none => .error (.outOfRange owner.name field.name type number.text)
  | .null, .text => .ok (.text none)
  | .string value, .text => .ok (.text (some value))
  | .object found, .component target =>
      match registry.layout? target.id with
      | none => .error (jsonMismatch owner field (.object found))
      | some layout =>
          (convertFields registry ids layout (registry.zeroRecord layout).values found).map
            (.component layout.id)
  | .null, .ref _ => .ok (.ref none)
  | json, .ref _ => (convertRef ids owner field json).map fun key => .ref (some key)
  | json, _ => .error (jsonMismatch owner field json)

/-- The values of a record with the named fields set, in order. -/
def convertFields (registry : Registry) (ids : InstanceIds) (layout : RecordLayout)
    (values : List Value) (fields : List (String × Json)) : Except SceneError (List Value) :=
  match fields with
  | [] => .ok values
  | (name, json) :: rest =>
      match layout.find? name with
      | none => .error (.unknownField layout.name name)
      | some (field, index) => do
          let value ← convertValue registry ids layout field json
          convertFields registry ids layout (values.set index value) rest

end

/-- The ids of the instances of a source with their keys. -/
def idsOf (sources : List InstanceSource) : InstanceIds :=
  sources.zipIdx.filterMap fun entry => entry.1.id.map fun id => (id, entry.2)

/-- The record of an instance. -/
def convertInstance (registry : Registry) (ids : InstanceIds) (source : InstanceSource) :
    Except SceneError Record :=
  match registry.named? source.type with
  | none => .error (.unknownType source.type)
  | some layout =>
      let zero := registry.zeroRecord layout
      (convertFields registry ids layout zero.values source.fields).map fun values =>
        ⟨zero.typeId, values⟩

/-- The scene of parsed instances.  Their ids must be distinct, which is checked first. -/
def ofSource (registry : Registry) (sources : List InstanceSource) : Except SceneError Scene :=
  match firstRepeat? [] (sources.filterMap InstanceSource.id) with
  | some id => .error (.duplicateId id)
  | none => sources.mapM (convertInstance registry (idsOf sources))

/-- The scene of a text.  The text is read to its end before its instances are looked at. -/
def read (registry : Registry) (text : String) : Except SceneError Scene :=
  match InstanceSource.readAll text with
  | .error fault => .error (.unreadable fault)
  | .ok sources => ofSource registry sources

end Scene

end ScenePack
