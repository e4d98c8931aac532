/-
**Packing a scene.**

The bytes of an image are its parts one after the other, zero bytes filling the gaps.  Texts are
collected in a pool while the records are written; a pool that shares texts gives equal texts the
same position.

Main definitions:

* `TextPool`, `TextPool.intern` — the texts written so far, and the position of one more;
* `writeValue`, `writeFields` — the bytes of values;
* `Scene.measure` — the sizes of the image of a scene;
* `Scene.pack` — the image of a scene.
-/

import ScenePack.Image.Arrangement
import ScenePack.Scene.Check

set_option relaxedAutoImplicit false
set_option autoImplicit false

namespace ScenePack

/-! ### Texts -/

/-- The texts of an image that have been written so far, in order. -/
structure TextPool where
  start : Nat
  shared : Bool
  texts : List String

namespace TextPool

/-- The bytes of the texts, each with a zero byte after it. -/
def bytes (pool : TextPool) : Bytes := pool.texts.flatMap fun text => Utf8.encode text ++ [0]

/-- The position of the text at an index. -/
def position (pool : TextPool) (index : Nat) : Nat :=
  pool.start + textsSize (pool.texts.take index)

/-- The position of a text, which is added at the end unless it is shared with an earlier one. -/
def intern (pool : TextPool) (text : String) : Nat × TextPool :=
  match if pool.shared then pool.texts.findIdx? (fun stored => stored = text) else none with
  | some index => (pool.position index, pool)
  | none => (pool.position pool.texts.length, { pool with texts := pool.texts ++ [text] })

end TextPool

/-! ### Values -/

/-- A word that holds a position. -/
def pointer (position : Nat) : Bytes := Word.encode Address.width position

@[simp] theorem length_pointer (position : Nat) : (pointer position).length = Address.width :=
  Word.length_encode _ _

mutual

/-- The bytes of the value of a field, and the pool with its texts. -/
def writeValue (registry : Registry) (position? : InstanceKey → Option Nat) (owner field : String)
    (value : Value) (pool : TextPool) : Except SceneError (Bytes × TextPool) :=
  match value with
  | .scalar number => .ok (number.bytes, pool)
  | .text none | .ref none => .ok (pointer 0, pool)
  | .text (some text) =>
      let (position, pool) := pool.intern text
      .ok (pointer position, pool)
  | .ref (some key) =>
      match position? key with
      | some position => .ok (pointer position, pool)
      | none => .error (.danglingReference owner field key)
  | .component typeId values =>
      match registry.layout? typeId with
      | none => .error (.unknownType (registry.describe typeId))
      | some layout => do
          let (bytes, pool) ← writeFields registry position? layout layout.fields values [] pool
          .ok (bytes.padTo layout.size, pool)

/-- The bytes of the values of fields after those written already, each at the offset of its
field. -/
def writeFields (registry : Registry) (position? : InstanceKey → Option Nat)
    (owner : RecordLayout) (fields : List FieldLayout) (values : List Value) (written : Bytes)
    (pool : TextPool) : Except SceneError (Bytes × TextPool) :=
  match values, fields with
  | value :: values, field :: fields => do
      let (bytes, pool) ← writeValue registry position? owner.name field.name value pool
      writeFields registry position? owner fields values (written.padTo field.offset ++ bytes) pool
  | _, _ => .ok (written, pool)

end

/-- The bytes of a record. -/
def writeRecord (registry : Registry) (position? : InstanceKey → Option Nat)
    (entry : StoredRecord) (pool : TextPool) : Except SceneError (Bytes × TextPool) := do
  let (bytes, pool) ←
    writeFields registry position? entry.layout entry.layout.fields entry.record.values [] pool
  .ok (bytes.padTo entry.layout.size, pool)

/-- The bytes of records after those written already, each at its position. -/
def writeRecords (registry : Registry) (position? : InstanceKey → Option Nat) :
    List (StoredRecord × Nat) → (written : Bytes) → TextPool →
    Except SceneError (Bytes × TextPool)
  | [], written, pool => .ok (written, pool)
  | (entry, position) :: rest, written, pool => do
      let (bytes, pool) ← writeRecord registry position? entry pool
      writeRecords registry position? rest (written.padTo position ++ bytes) pool

/-! ### Images -/

namespace Arrangement

/-- The header of the image. -/
def header (arrangement : Arrangement) : Header :=
  { directory := arrangement.directoryAt
    count := arrangement.stored.length
    ranges := Header.size
    rangeCount := arrangement.ranges.length }

/-- The bytes in front of the records: header, range table and directory. -/
def front (arrangement : Arrangement) : Bytes :=
  (arrangement.header.encode ++ arrangement.ranges.flatMap Range.encode).padTo
    arrangement.directoryAt ++ arrangement.positions.flatMap pointer

end Arrangement

namespace Scene

/-- The sizes of the parts of the image of a scene. -/
def measure (registry : Registry) (config : PackConfig) (scene : Scene) :
    Except SceneError ImageSizes := do
  scene.check registry
  .ok (scene.arrange registry config).sizes

/-- The image of a scene. -/
def pack (registry : Registry) (config : PackConfig) (scene : Scene) :
    Except SceneError Bytes := do
  scene.check registry
  let arrangement := scene.arrange registry config
  let (bytes, pool) ← writeRecords registry arrangement.position?
    (arrangement.stored.zip arrangement.positions) arrangement.front
    ⟨arrangement.textAt, config.shareTexts, []⟩
  .ok ((bytes.padTo arrangement.textAt ++ pool.bytes).padTo arrangement.sizes.total)

end Scene

end ScenePack
