/-
**The fixup of bindings.**

Generated bindings resolve a loaded image on their own.  The fixup adds the address of the image to
the two pointers of the header and to every entry of the directory, and then, by the type of the
entry, to the pointers of its record that are not zero.  It trusts the image.

Main definitions:

* `FixupArm`, `Fixup` — the pointers of the records of a type, and of all types that have some;
* `Fixup.ofRegistry` — the fixup of a registry;
* `Fixup.run` — what the fixup does to an image loaded at an address.
-/

import ScenePack.Image.Format
import ScenePack.Layout.Registry

set_option relaxedAutoImplicit false
set_option autoImplicit false

namespace ScenePack

/-- The offsets of the pointers in the records of a type. -/
structure FixupArm where
  typeId : TypeId
  slots : List Nat
  deriving DecidableEq

/-- One arm for each type whose records hold pointers. -/
abbrev Fixup := List FixupArm

namespace Fixup

/-- The fixup of a registry. -/
def ofRegistry (registry : Registry) : Fixup :=
  registry.types.filterMap fun layout =>
    if layout.slots.isEmpty then none
    else some ⟨layout.id, layout.slots.map PointerSlot.offset⟩

/-- The pointers of the records of a type, none if the type has no arm. -/
def slotsOf (fixup : Fixup) (typeId : TypeId) : List Nat :=
  match fixup.find? fun arm => arm.typeId = typeId with
  | some arm => arm.slots
  | none => []

/-! ### Running -/

/-- The word at an address, in an image loaded at `base`. -/
def load (base : Nat) (bytes : Bytes) (address : Nat) : Option Nat :=
  if base ≤ address then bytes.word? Address.width (address - base) else none

/-- The image with a word replaced, if it lies inside. -/
def store (base : Nat) (bytes : Bytes) (address value : Nat) : Option Bytes :=
  if base ≤ address ∧ address - base + Address.width ≤ bytes.length then
    some (bytes.overwrite (address - base) (Word.encode Address.width value))
  else none

/-- The image with `base` added to a word. -/
def shift (base : Nat) (bytes : Bytes) (address : Nat) : Option Bytes := do
  let value ← load base bytes address
  store base bytes address (Address.wrap (base + value))

/-- The image with `base` added to a word unless it is zero. -/
def rebase (base : Nat) (bytes : Bytes) (address : Nat) : Option Bytes := do
  let value ← load base bytes address
  if value = 0 then some bytes else shift base bytes address

/-- The step for the directory entry at an address, of the given type. -/
def runEntry (fixup : Fixup) (base : Nat) (typeId : TypeId) (bytes : Bytes) (entry : Nat) :
    Option Bytes := do
  let bytes ← shift base bytes entry
  let record ← load base bytes entry
  (fixup.slotsOf typeId).foldlM
    (fun bytes slot => rebase base bytes (Address.wrap (record + slot))) bytes

/-- The steps for the ranges from `range` on, where `index` entries of the directory are done. -/
def runRanges (fixup : Fixup) (base directory : Nat) :
    (remaining range index : Nat) → Bytes → Option Bytes
  | 0, _, _, bytes => some bytes
  | remaining + 1, range, index, bytes => do
      let ranges ← load base bytes (base + Header.rangesSlot)
      let start := ranges + range * Range.size
      let found ← if base ≤ start then Range.decode? bytes (start - base) else none
      let bytes ← (List.range found.count).foldlM
        (fun bytes i =>
          fixup.runEntry base found.typeId bytes (directory + (index + i) * Address.width))
        bytes
      fixup.runRanges base directory remaining (range + 1) (index + found.count) bytes

/-- What the fixup does to an image loaded at `base`; `none` if it leaves the image. -/
def run (fixup : Fixup) (base : Nat) (bytes : Bytes) : Option Bytes := do
  let bytes ← shift base bytes (base + Header.directorySlot)
  let bytes ← shift base bytes (base + Header.rangesSlot)
  let header ← Header.decode? bytes
  fixup.runRanges base header.directory header.rangeCount 0 0 bytes

end Fixup

end ScenePack
