/-
**Encoding a scene.**

An image is made in two passes over the records of a scene, in the stable order by type.  The first
pass counts the records of each type, gives every record its position and sums up the texts.  The
second one stores headers, ranges, words and values into a buffer of zero bytes, which has the size
that was found, and takes the positions of records from a table by their keys.

Counts and sums of positions are checked.  The program stops where one of them is too large, where
no buffer of the size can be made, and where a position lies outside of the buffer or of a table.

Main definitions:

* `rangesOf` — the range table, by counting;
* `placeRecords` — the table of positions;
* `ImagePlan`, `Scene.place` — what the first pass finds;
* `Bytes.zeroed`, `Bytes.store` — a buffer, and a span stored in it;
* `fillValue`, `fillRecords`, `ImagePlan.fill` — the second pass;
* `Scene.sizeUp`, `Scene.encode` — the sizes of the image of a scene, and the image.
-/

import ScenePack.Image.Pack

set_option relaxedAutoImplicit false
set_option autoImplicit false

namespace ScenePack

/-! ### Tables -/

/-- The item of a table at an index, which must lie inside. -/
def fetch {α : Type} (table : List α) (index : Nat) : Except (Failure SceneError) α :=
  match table[index]? with
  | some item => .ok item
  | none => .error .stopped

/-- The table with an item replaced, which must lie inside. -/
def assign {α : Type} (table : List α) (index : Nat) (item : α) :
    Except (Failure SceneError) (List α) :=
  if index < table.length then .ok (table.set index item) else .error .stopped

/-- The layout of a type, which must be known. -/
def knownLayout (registry : Registry) (typeId : TypeId) :
    Except (Failure SceneError) RecordLayout :=
  match registry.layout? typeId with
  | some layout => .ok layout
  | none => .error (.reported (.unknownType (registry.describe typeId)))

/-! ### The first pass -/

/-- The count of a range, which must fit its number. -/
def Range.counted (count : Nat) : Except (Failure SceneError) Nat :=
  if count < countLimit then .ok count else .error .stopped

/-- The ranges of records with the given types, after those that `last` has counted. -/
def countRanges (last : Range) : List TypeId → Except (Failure SceneError) (List Range)
  | [] => .ok [last]
  | id :: rest =>
      if last.typeId = id then do
        let count ← Range.counted (last.count + 1)
        countRanges ⟨id, count⟩ rest
      else do
        let others ← countRanges ⟨id, 1⟩ rest
        .ok (last :: others)

/-- One range for each run of records of one type. -/
def rangesOf : List TypeId → Except (Failure SceneError) (List Range)
  | [] => .ok []
  | id :: rest => countRanges ⟨id, 1⟩ rest

/-- Records get their positions in the given order, from `cursor` on, and the table keeps them by
their keys. -/
def placeRecords (registry : Registry) (scene : Scene) :
    (cursor : Nat) → List InstanceKey → (table : List Nat) →
    Except (Failure SceneError) (Nat × List Nat)
  | cursor, [], table => .ok (cursor, table)
  | cursor, key :: rest, table => do
      let record ← fetch scene key
      let layout ← knownLayout registry record.typeId
      let position ← alignUpBy Address.sum layout.align cursor
      let table ← assign table key position
      let cursor ← Address.sum (position + layout.size)
      placeRecords registry scene cursor rest table

/-- The bytes of texts, after those that have been summed up already. -/
def sumTexts (total : Nat) (texts : List String) : Except (Failure SceneError) Nat :=
  texts.foldlM (fun total text => Address.sum (total + textSize text)) total

/-- What the first pass finds: the keys of the records in the order of the image, the range table,
the positions of the records by their keys, where directory and texts start, and the sizes. -/
structure ImagePlan where
  keys : List InstanceKey
  ranges : List Range
  table : List Nat
  directoryAt : Nat
  textAt : Nat
  sizes : ImageSizes

/-- The first pass over a scene. -/
def Scene.place (registry : Registry) (config : PackConfig) (scene : Scene) :
    Except (Failure SceneError) ImagePlan := do
  let keys := scene.order.map Prod.snd
  let ranges ← rangesOf (scene.order.map fun entry => entry.1.typeId)
  let rangesEnd ← Address.sum (Header.size + ranges.length * Range.size)
  let directoryAt ← alignUpBy Address.sum Address.width rangesEnd
  let recordsAt ← Address.sum (directoryAt + scene.length * Address.width)
  let (textAt, table) ←
    placeRecords registry scene recordsAt keys (List.replicate scene.length 0)
  let text ← sumTexts 0 (scene.keptTexts config)
  .ok
    { keys, ranges, table, directoryAt, textAt
      sizes :=
        { header := Header.size
          ranges := ranges.length * Range.size
          directory := recordsAt - rangesEnd
          records := textAt - recordsAt
          text } }

/-! ### Buffers -/

namespace Bytes

/-- The largest count of bytes that can be allocated. -/
def capacity : Nat := Address.space / 2 - 1

/-- A buffer of zero bytes.  It is allocated with room to be aligned. -/
def zeroed (size : Nat) : Except (Failure SceneError) Bytes :=
  if size + LayoutConfig.greatestAlign ≤ capacity then .ok (List.replicate size 0)
  else .error .stopped

/-- The buffer with a span stored at a position, which must lie inside. -/
def store (buffer : Bytes) (start : Nat) (span : Bytes) : Except (Failure SceneError) Bytes :=
  if start + span.length ≤ buffer.length then .ok (buffer.overwrite start span)
  else .error .stopped

end Bytes

/-! ### The second pass -/

mutual

/-- A value is stored at a position of the buffer, and the pool gets its texts. -/
def fillValue (registry : Registry) (table : List Nat) (start : Nat) (value : Value)
    (buffer : Bytes) (pool : TextPool) : Except (Failure SceneError) (Bytes × TextPool) :=
  match value with
  | .scalar number => do
      let buffer ← buffer.store start number.bytes
      .ok (buffer, pool)
  | .text none | .ref none => do
      let buffer ← buffer.store start (pointer 0)
      .ok (buffer, pool)
  | .text (some text) => do
      -- the position needs no check here: texts outside of the buffer cannot be stored in the end
      let (position, pool) := pool.intern text
      let buffer ← buffer.store start (pointer position)
      .ok (buffer, pool)
  | .ref (some key) => do
      let position ← fetch table key
      let buffer ← buffer.store start (pointer position)
      .ok (buffer, pool)
  | .component typeId values => do
      let layout ← knownLayout registry typeId
      fillFields registry table start layout.fields values buffer pool

/-- The values of fields are stored in a record that starts at a position of the buffer. -/
def fillFields (registry : Registry) (table : List Nat) (start : Nat) (fields : List FieldLayout)
    (values : List Value) (buffer : Bytes) (pool : TextPool) :
    Except (Failure SceneError) (Bytes × TextPool) :=
  match values, fields with
  | value :: values, field :: fields => do
      let position ← Address.sum (start + field.offset)
      let (buffer, pool) ← fillValue registry table position value buffer pool
      fillFields registry table start fields values buffer pool
  | _, _ => .ok (buffer, pool)

end

/-- Records are stored in the given order, each after its word in the directory. -/
def fillRecords (registry : Registry) (scene : Scene) (table : List Nat) :
    (slot : Nat) → List InstanceKey → Bytes → TextPool →
    Except (Failure SceneError) (Bytes × TextPool)
  | _, [], buffer, pool => .ok (buffer, pool)
  | slot, key :: rest, buffer, pool => do
      let position ← fetch table key
      let buffer ← buffer.store slot (pointer position)
      let record ← fetch scene key
      let (buffer, pool) ← fillValue registry table position (.ofRecord record) buffer pool
      fillRecords registry scene table (slot + Address.width) rest buffer pool

/-- The ranges are stored one after the other. -/
def fillRanges : (start : Nat) → List Range → Bytes → Except (Failure SceneError) Bytes
  | _, [], buffer => .ok buffer
  | start, range :: rest, buffer => do
      let buffer ← buffer.store start range.encode
      fillRanges (start + Range.size) rest buffer

namespace ImagePlan

/-- The header of the image. -/
def header (plan : ImagePlan) (scene : Scene) : Header :=
  { directory := plan.directoryAt
    count := scene.length
    ranges := Header.size
    rangeCount := plan.ranges.length }

/-- The second pass over a scene. -/
def fill (registry : Registry) (config : PackConfig) (scene : Scene) (plan : ImagePlan)
    (buffer : Bytes) : Except (Failure SceneError) Bytes := do
  let buffer ← buffer.store 0 (plan.header scene).encode
  let buffer ← fillRanges Header.size plan.ranges buffer
  let (buffer, pool) ← fillRecords registry scene plan.table plan.directoryAt plan.keys buffer
    ⟨plan.textAt, config.shareTexts, []⟩
  buffer.store plan.textAt pool.bytes

end ImagePlan

/-! ### Scenes -/

namespace Scene

/-- The sizes of the image of a scene, with every sum of them checked. -/
def sizeUp (registry : Registry) (config : PackConfig) (scene : Scene) :
    Except (Failure SceneError) ImageSizes := do
  Failure.lift (scene.check registry)
  let plan ← scene.place registry config
  .ok plan.sizes

/-- The image of a scene, stored part by part into a buffer of its size. -/
def encode (registry : Registry) (config : PackConfig) (scene : Scene) :
    Except (Failure SceneError) Bytes := do
  Failure.lift (scene.check registry)
  let plan ← scene.place registry config
  let total ← Address.sum plan.sizes.total
  let buffer ← Bytes.zeroed total
  plan.fill registry config scene buffer

end Scene

end ScenePack
