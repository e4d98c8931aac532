/-
**Buffers.**

A buffer owns the bytes of an image at a fixed address and knows whether its pointers hold
positions or addresses.  Resolving a buffer relocates its image to that address, which can be done
once.

Main definitions:

* `BufferState`, `Buffer` — buffers and their states;
* `Buffer.ofBytes` — a buffer of bytes that hold positions;
* `Buffer.resolve` — the resolving of a buffer: its view, and the buffer after it;
* `Buffer.view` — the view of a buffer in its state.
-/

import ScenePack.Image.View

set_option relaxedAutoImplicit false
set_option autoImplicit false

namespace ScenePack

/-- Whether the pointers of a buffer hold positions, or positions plus a base. -/
inductive BufferState where
  | raw
  | resolved (base : Nat)
  deriving DecidableEq

/-- The bytes of an image at an address. -/
structure Buffer where
  address : Nat
  bytes : Bytes
  state : BufferState
  deriving DecidableEq

namespace Buffer

/-- A buffer at an address, of bytes whose pointers hold positions. -/
def ofBytes (address : Nat) (bytes : Bytes) : Buffer := ⟨address, bytes, .raw⟩

/-- The base that the pointers of a buffer hold. -/
def base (buffer : Buffer) : Nat :=
  match buffer.state with
  | .raw => 0
  | .resolved base => base

/-- The view of a buffer in its state. -/
def view (registry : Registry) (buffer : Buffer) : Except ImageError View :=
  View.ofBytes registry buffer.base buffer.bytes

/-- The resolving of a buffer: the view of the relocated image, and the buffer after it.  A buffer
is resolved once; if that fails, it stays as it is. -/
def resolve (registry : Registry) (buffer : Buffer) : Except ImageError View × Buffer :=
  match buffer.state with
  | .resolved _ => (.error .alreadyResolved, buffer)
  | .raw =>
      match relocateScan registry buffer.address buffer.bytes with
      | (.error error, after) => (.error error, { buffer with bytes := after })
      | (.ok found, after) =>
          match View.ofScan registry buffer.address after found with
          | .error error => (.error error, { buffer with bytes := after })
          | .ok view => (.ok view, ⟨buffer.address, after, .resolved buffer.address⟩)

end Buffer

end ScenePack
