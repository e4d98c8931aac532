/-
**Placing fields.**

The fields of a type are placed in order, each at the next position that suits its alignment.  A
record is as aligned as its most aligned field, at least as the configuration asks, and its size is
rounded up to its alignment.  An embedded record brings its own pointers with it.

Sums of positions go through `sum`: `Address.sum` for layouts in the address space, where a sum that
is not an address stops the program, and `.ok` for layouts on unbounded numbers.

Main definitions:

* `Extent` — the size, alignment and pointers of a field, wherever it is placed;
* `Placement.place` — the placing of one field;
* `RecordLayout.ofType` — the layout of a type.
-/

import ScenePack.Word
import ScenePack.Layout.Basic

set_option relaxedAutoImplicit false
set_option autoImplicit false

namespace ScenePack

/-! ### Extents -/

/-- What a field needs, wherever it is placed.  The pointers are relative to the field. -/
structure Extent where
  size : Nat
  align : Nat
  slots : List PointerSlot

namespace Extent

/-- The extent of a number. -/
def ofScalar (type : ScalarType) : Extent := ⟨type.size, type.align, []⟩

/-- The extent of a single pointer. -/
def pointer (kind : SlotKind) : Extent := ⟨Address.width, Address.width, [⟨0, kind⟩]⟩

/-- The extent of an embedded record. -/
def ofRecord (layout : RecordLayout) : Extent := ⟨layout.size, layout.align, layout.slots⟩

end Extent

/-! ### Placing -/

/-- A record whose first fields have been placed: the end of the last one, the alignment so far,
and what has been placed. -/
structure Placement where
  endsAt : Nat
  align : Nat
  fields : List FieldLayout
  slots : List PointerSlot

namespace Placement

/-- No field has been placed yet. -/
def start (align : Nat) : Placement := ⟨0, align, [], []⟩

/-- The placement with one more field. -/
def place (sum : Nat → Except (Failure SchemaError) Nat) (placement : Placement) (name : String)
    (kind : FieldKind Target) (extent : Extent) : Except (Failure SchemaError) Placement := do
  let offset ← alignUpBy sum extent.align placement.endsAt
  let slots ← extent.slots.mapM fun slot => do
    let position ← sum (offset + slot.offset)
    .ok (PointerSlot.mk position slot.kind)
  let endsAt ← sum (offset + extent.size)
  .ok
    { endsAt
      align := max placement.align extent.align
      fields := placement.fields ++ [⟨name, kind, offset, extent.size, extent.align⟩]
      slots := placement.slots ++ slots }

/-- The size of the record: at least one byte, rounded up to the alignment. -/
def size (sum : Nat → Except (Failure SchemaError) Nat) (placement : Placement) :
    Except (Failure SchemaError) Nat :=
  alignUpBy sum placement.align (max placement.endsAt 1)

end Placement

/-! ### The layout of a type -/

/-- What the layout of a type depends on besides its fields: the position of every planned type,
and the layouts of the types that come later. -/
structure LayoutContext where
  id? : String → Option TypeId
  later : List RecordLayout

namespace LayoutContext

/-- The target of a field. -/
def target (context : LayoutContext) (owner field name : String) : Except SchemaError Target :=
  match context.id? name with
  | some id => .ok ⟨name, id⟩
  | none => .error (.undefinedType owner field name)

/-- The kind of a field with its target found, and its extent.  An embedded type must have been
laid out before. -/
def resolve (context : LayoutContext) (owner : String) (field : Field) :
    Except SchemaError (FieldKind Target × Extent) :=
  match field.kind with
  | .scalar type => .ok (.scalar type, .ofScalar type)
  | .text => .ok (.text, .pointer .text)
  | .ref name => do
      let target ← context.target owner field.name name
      .ok (.ref target, .pointer (.ref target.id))
  | .component name => do
      let target ← context.target owner field.name name
      match context.later.find? fun layout => layout.id = target.id with
      | some layout => .ok (.component target, .ofRecord layout)
      | none => .error (.cyclic ⟨owner, [owner, name]⟩)

end LayoutContext

/-- The layout of a type at its position in the plan. -/
def RecordLayout.ofType (sum : Nat → Except (Failure SchemaError) Nat) (config : LayoutConfig)
    (context : LayoutContext) (id : TypeId) (depth : Nat) (type : ComponentType) :
    Except (Failure SchemaError) RecordLayout := do
  let placement ← type.fields.foldlM
    (fun placement field => do
      let (kind, extent) ← Failure.lift (context.resolve type.name field)
      placement.place sum field.name kind extent)
    (Placement.start config.recordAlign)
  let size ← placement.size sum
  .ok
    { id
      name := type.name
      depth
      size
      align := placement.align
      fields := placement.fields
      slots := placement.slots }

end ScenePack
