/-
**Arranging a scene.**

The records of an image stand in the order of their types, and in the order of the scene within a
type.  The arrangement says where each of them goes and how large each part of the image is.

Main definitions:

* `Scene.order`, `Scene.keptTexts` — the records of a scene in the stable order by type, and the
  texts that are kept of them;
* `Scene.stored` — the records of a scene in the order of an image;
* `Scene.ranges` — the range table;
* `positions`, `endOf` — where aligned records go, and where they end;
* `Scene.storedTexts` — the texts of an image;
* `Arrangement`, `Scene.arrange` — the arrangement of a scene.
-/

import ScenePack.Image.Format
import ScenePack.Scene.Basic
import ScenePack.Text.Utf8

set_option relaxedAutoImplicit false
set_option autoImplicit false

namespace ScenePack

/-- The choices of a packing: whether equal texts are stored once. -/
structure PackConfig where
  shareTexts : Bool := true
  deriving DecidableEq

/-- A record of a scene with its key and its layout. -/
structure StoredRecord where
  key : InstanceKey
  record : Record
  layout : RecordLayout

/-! ### Records -/

/-- The order of keys, as a comparison of items. -/
def keyOrder {α : Type} (key : α → Nat) (a b : α) : Bool := decide (key a ≤ key b)

namespace Scene

/-- The records of a scene with their keys, in the stable order by type. -/
def order (scene : Scene) : List (Record × InstanceKey) :=
  scene.zipIdx.mergeSort (keyOrder fun entry => entry.1.typeId)

/-- The texts of a scene, record by record in the stable order by type. -/
def texts (scene : Scene) : List String :=
  scene.order.flatMap fun place => Value.allTexts place.1.values

/-- The texts that an image keeps: the first of equal ones if they are shared, or all. -/
def keptTexts (scene : Scene) (config : PackConfig) : List String :=
  if config.shareTexts then scene.texts.eraseDups else scene.texts

/-- The records of one type, in the order of the scene. -/
def storedOf (scene : Scene) (layout : RecordLayout) : List StoredRecord :=
  (scene.zipIdx.filter fun entry => entry.1.typeId = layout.id).map fun entry =>
    ⟨entry.2, entry.1, layout⟩

/-- The records of all types of the registry, type by type. -/
def stored (registry : Registry) (scene : Scene) : List StoredRecord :=
  registry.types.flatMap scene.storedOf

/-- One range for each type that has records. -/
def ranges (registry : Registry) (scene : Scene) : List Range :=
  registry.types.filterMap fun layout =>
    let count := (scene.storedOf layout).length
    if count = 0 then none else some ⟨layout.id, count % Range.countLimit⟩

end Scene

/-- The positions of records from `start` on, each at the next position that suits it. -/
def positions : (start : Nat) → List RecordLayout → List Nat
  | _, [] => []
  | start, layout :: rest =>
      let position := alignUp layout.align start
      position :: positions (position + layout.size) rest

/-- The end of the last of the records from `start` on. -/
def endOf (start : Nat) (layouts : List RecordLayout) : Nat :=
  layouts.foldl (fun cursor layout => alignUp layout.align cursor + layout.size) start

@[simp] theorem length_positions (start : Nat) (layouts : List RecordLayout) :
    (positions start layouts).length = layouts.length := by
  induction layouts generalizing start with
  | nil => rfl
  | cons layout rest ih => simp [positions, ih]

/-! ### Texts -/

/-- The bytes that a text takes, its zero byte included. -/
def textSize (text : String) : Nat := (Utf8.encode text).length + 1

/-- The bytes that texts take, one after the other. -/
def textsSize : List String → Nat
  | [] => 0
  | text :: rest => textSize text + textsSize rest

theorem textsSize_append (texts others : List String) :
    textsSize (texts ++ others) = textsSize texts + textsSize others := by
  induction texts with
  | nil => simp [textsSize]
  | cons text rest ih => simp [textsSize, ih, Nat.add_assoc]

/-- The texts of a scene in the order of the image, equal ones once if they are shared. -/
def Scene.storedTexts (registry : Registry) (scene : Scene) (config : PackConfig) : List String :=
  let texts := (scene.stored registry).flatMap fun entry => Value.allTexts entry.record.values
  if config.shareTexts then texts.eraseDups else texts

/-! ### The arrangement -/

/-- Where the parts of an image go.  The positions belong to the records in the same order. -/
structure Arrangement where
  stored : List StoredRecord
  ranges : List Range
  directoryAt : Nat
  recordsAt : Nat
  positions : List Nat
  textAt : Nat
  sizes : ImageSizes

namespace Arrangement

/-- The position of the record of a key. -/
def position? (arrangement : Arrangement) (key : InstanceKey) : Option Nat :=
  ((arrangement.stored.map StoredRecord.key).zip arrangement.positions).lookup key

end Arrangement

/-- The arrangement of a scene. -/
def Scene.arrange (registry : Registry) (config : PackConfig) (scene : Scene) : Arrangement :=
  let stored := scene.stored registry
  let layouts := stored.map StoredRecord.layout
  let ranges := scene.ranges registry
  let rangesEnd := Header.size + ranges.length * Range.size
  let directoryAt := alignUp Address.width rangesEnd
  let recordsAt := directoryAt + stored.length * Address.width
  let textAt := endOf recordsAt layouts
  { stored
    ranges
    directoryAt
    recordsAt
    positions := ScenePack.positions recordsAt layouts
    textAt
    sizes :=
      { header := Header.size
        ranges := ranges.length * Range.size
        directory := recordsAt - rangesEnd
        records := textAt - recordsAt
        text := textsSize (scene.storedTexts registry config) } }

end ScenePack
