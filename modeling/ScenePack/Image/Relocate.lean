/-
**Relocation.**

Relocating an image adds a base address to every pointer that leads somewhere.  The image is
scanned first, so an image that cannot be relocated is left as it is.

Main definitions:

* `patch` — the words at some positions with a base added to them;
* `relocateScan`, `relocate` — the relocation of an image: its outcome, and the bytes after it.

Main results:

* `length_patch` — patching keeps the length.
-/

import ScenePack.Image.Scan

set_option relaxedAutoImplicit false
set_option autoImplicit false

namespace ScenePack

/-- The bytes with a base added to the words at the given positions, one after the other, up to the
first that cannot be read. -/
def patch (base : Nat) : List Nat → Bytes → Except ImageError Unit × Bytes
  | [], bytes => (.ok (), bytes)
  | slot :: rest, bytes =>
      match bytes.readSlot slot with
      | .error error => (.error error, bytes)
      | .ok offset =>
          patch base rest (bytes.overwrite slot (Word.encode Address.width (base + offset)))

theorem length_patch (base : Nat) (slots : List Nat) (bytes : Bytes) :
    (patch base slots bytes).2.length = bytes.length := by
  induction slots generalizing bytes with
  | nil => rfl
  | cons slot rest ih =>
      unfold patch
      split
      · rfl
      · next offset hread =>
          have hfits : slot + Address.width ≤ bytes.length := Bytes.le_of_readSlot hread
          rw [ih, Bytes.length_overwrite]
          simpa using hfits

/-- The relocation of an image with plain positions: what the scan found, and the bytes after
it. -/
def relocateScan (registry : Registry) (base : Nat) (bytes : Bytes) :
    Except ImageError Scan × Bytes :=
  match scan registry 0 bytes with
  | .error error => (.error error, bytes)
  | .ok found =>
      if Address.space ≤ base + bytes.length then (.error (.addressOverflow base), bytes)
      else
        let (outcome, after) := patch base found.slots bytes
        (outcome.map fun _ => found, after)

/-- The relocation of an image: the count of pointers that were changed, and the bytes after it. -/
def relocate (registry : Registry) (base : Nat) (bytes : Bytes) :
    Except ImageError Nat × Bytes :=
  let (outcome, after) := relocateScan registry base bytes
  (outcome.map fun found => found.slots.length, after)

end ScenePack
