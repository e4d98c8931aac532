/-
**Views of an image.**

A view is an image that has been scanned, together with the base that its pointers hold.  It shows
the instances of the image as records whose fields are read when they are asked for.

Main definitions:

* `View`, `View.ofBytes` — the view of an image;
* `RecordView`, `FieldView` — a record and the value of a field in an image;
* `View.ranges`, `View.instances`, `View.instance?` — what the tables list;
* `RecordView.field` — a field by name;
* `View.toScene` — the scene that an image holds.
-/

import ScenePack.Image.Relocate
import ScenePack.Scene.Basic

set_option relaxedAutoImplicit false
set_option autoImplicit false

namespace ScenePack

/-- An image that has been scanned. -/
structure View where
  registry : Registry
  base : Nat
  bytes : Bytes
  header : Header
  rangesAt : Nat
  directoryAt : Nat

/-- A record in an image, listed by the directory or embedded in another record. -/
structure RecordView where
  view : View
  layout : RecordLayout
  offset : Nat

/-- The value of a field in an image. -/
inductive FieldView where
  | scalar (value : Scalar)
  | text (value : Option String)
  | component (record : RecordView)
  | ref (target : Option RecordView)

namespace View

/-- The view of an image that a scan has found sound. -/
def ofScan (registry : Registry) (base : Nat) (bytes : Bytes) (found : Scan) :
    Except ImageError View := do
  let header ← bytes.readHeader
  .ok ⟨registry, base, bytes, header, found.rangesAt, found.directoryAt⟩

/-- The view of an image whose pointers hold positions plus `base`. -/
def ofBytes (registry : Registry) (base : Nat) (bytes : Bytes) : Except ImageError View := do
  let found ← scan registry base bytes
  ofScan registry base bytes found

/-! ### Instances -/

/-- The ranges, in order. -/
def ranges (view : View) : List Range :=
  (List.range view.header.rangeCount).filterMap fun index =>
    Range.decode? view.bytes (view.rangesAt + index * Range.size)

/-- The record of the directory at an index, of the given type. -/
def entry? (view : View) (index : Nat) (typeId : TypeId) : Option RecordView :=
  match view.registry.layout? typeId with
  | none => none
  | some layout =>
      match readEntry view.bytes view.base view.directoryAt layout index with
      | .ok entry => some ⟨view, layout, entry.offset⟩
      | .error _ => none

/-- The type of the range that covers an index, where the ranges start at `first`. -/
def typeAt? : List Range → (first index : Nat) → Option TypeId
  | [], _, _ => none
  | range :: rest, first, index =>
      if index < first + range.count then some range.typeId
      else typeAt? rest (first + range.count) index

/-- The instance at a position of the directory. -/
def instance? (view : View) (index : Nat) : Option RecordView :=
  (typeAt? view.ranges 0 index).bind (view.entry? index)

/-- The instances in the order of the directory. -/
def instances (view : View) : List RecordView :=
  (view.ranges.flatMap fun range => List.replicate range.count range.typeId).zipIdx.filterMap
    fun place => view.entry? place.2 place.1

/-- The instances of the named type, in the order of the directory. -/
def instancesOf (view : View) (name : String) : List RecordView :=
  view.instances.filter fun record => some record.layout.id = view.registry.lookup? name

/-! ### Pointers -/

/-- The text that a word leads to, none for zero. -/
def textAt (view : View) (value : Nat) : Except ImageError (Option String) :=
  if value = 0 then .ok none
  else do
    let offset ← offsetOf value view.base view.bytes.length
    let text ← view.bytes.readText offset
    .ok (some text)

/-- The record of a type that a word leads to, none for zero. -/
def recordAt (view : View) (typeId : TypeId) (value : Nat) :
    Except ImageError (Option RecordView) :=
  if value = 0 then .ok none
  else
    match view.registry.layout? typeId with
    | none => .error (.unknownTypeId typeId 0)
    | some layout => do
        let offset ← region value view.base view.bytes.length 1 layout.size layout.align
        .ok (some ⟨view, layout, offset⟩)

end View

/-! ### Records -/

namespace RecordView

/-- The address of a record under the base of its image. -/
def address (record : RecordView) : Nat := Address.wrap (record.view.base + record.offset)

/-- The bytes of a record. -/
def bytes (record : RecordView) : Bytes :=
  (record.view.bytes.drop record.offset).take record.layout.size

/-- Whether two views show the same record of the same image. -/
def same (a b : RecordView) : Bool := a.offset = b.offset && a.layout.id = b.layout.id

/-- The value of a field. -/
def readField (record : RecordView) (field : FieldLayout) : Except ImageError FieldView :=
  let view := record.view
  let position := record.offset + field.offset
  match field.kind with
  | .scalar type =>
      match view.bytes.slice? position type.size with
      | some bytes => .ok (.scalar (Scalar.ofBytes type bytes))
      | none => .error (.truncated (position + type.size) view.bytes.length)
  | .text => do
      let value ← view.bytes.readSlot position
      let text ← view.textAt value
      .ok (.text text)
  | .component target =>
      match view.registry.layout? target.id with
      | some layout => .ok (.component ⟨view, layout, position⟩)
      | none => .error (.unknownTypeId target.id 0)
  | .ref target => do
      let value ← view.bytes.readSlot position
      let record ← view.recordAt target.id value
      .ok (.ref record)

/-- The value of the named field. -/
def field (record : RecordView) (name : String) : Except ImageError FieldView :=
  match record.layout.field? name with
  | some placed => record.readField placed
  | none => .error (.unknownField record.layout.name name)

/-- The values of a record, where `key?` tells the key of the instance at a position.  Embedded
records are read down to `nesting` levels; the depth of the type is enough for all of them. -/
def toValues (key? : Nat → Option InstanceKey) :
    (nesting : Nat) → RecordView → Except ImageError (List Value)
  | nesting, record => record.layout.fields.mapM fun placed => do
      match ← record.readField placed with
      | .scalar value => .ok (.scalar value)
      | .text value => .ok (.text value)
      | .component inner =>
          match nesting with
          | 0 => .error (.unknownTypeId inner.layout.id 0)
          | nesting + 1 => do
              let values ← toValues key? nesting inner
              .ok (.component inner.layout.id values)
      | .ref none => .ok (.ref none)
      | .ref (some target) =>
          match key? target.offset with
          | some key => .ok (.ref (some key))
          | none => .error (.invalidReference record.layout.name target.offset)

end RecordView

namespace FieldView

/-- The text of a field that has one. -/
def asText : FieldView → Option String
  | text value => value
  | _ => none

/-- The embedded record of a field, or the one that it refers to. -/
def asRecord : FieldView → Option RecordView
  | component record => some record
  | ref target => target
  | _ => none

end FieldView

/-! ### Scenes -/

namespace View

/-- The scene that an image holds.  References become places in the directory. -/
def toScene (view : View) : Except ImageError Scene :=
  let keys := (view.instances.map RecordView.offset).zipIdx
  view.instances.mapM fun record => do
    let values ← record.toValues (fun offset => keys.lookup offset) record.layout.depth
    .ok ⟨record.layout.id, values⟩

end View

end ScenePack
