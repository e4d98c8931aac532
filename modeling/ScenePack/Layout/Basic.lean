/-
**Record layouts.**

The layout of a type says where each field of its records lies and which positions hold pointers.
Types are identified by their position in the plan of their schema.

Main definitions:

* `TypeId`, `Target` — a type by its position, and with its name;
* `FieldLayout` — the place of a field;
* `SlotKind`, `PointerSlot` — the places that hold pointers, those of embedded records included;
* `RecordLayout` — the layout of a type;
* `LayoutConfig` — the choices of a layout.
-/

import ScenePack.Schema.Basic

set_option relaxedAutoImplicit false
set_option autoImplicit false

namespace ScenePack

/-- A component type, by its position in the plan. -/
abbrev TypeId := Nat

/-- A component type by name and by position. -/
structure Target where
  name : String
  id : TypeId
  deriving DecidableEq

/-- The place of a field in its record. -/
structure FieldLayout where
  name : String
  kind : FieldKind Target
  offset : Nat
  size : Nat
  align : Nat
  deriving DecidableEq

/-- What a pointer leads to: a text, or a record of a given type. -/
inductive SlotKind where
  | text
  | ref (target : TypeId)
  deriving DecidableEq

/-- A place in a record that holds a pointer. -/
structure PointerSlot where
  offset : Nat
  kind : SlotKind
  deriving DecidableEq

/-- The layout of the records of a type.  `slots` lists the pointers of the record and of the
records embedded in it, in the order of their fields. -/
structure RecordLayout where
  id : TypeId
  name : String
  depth : Nat
  size : Nat
  align : Nat
  fields : List FieldLayout
  slots : List PointerSlot
  deriving DecidableEq

namespace FieldLayout

/-- The kind of a field in the terms of the schema. -/
def describe (field : FieldLayout) : String := (field.kind.map Target.name).describe

/-- The position of the type that a field names. -/
def target? (field : FieldLayout) : Option TypeId := field.kind.target?.map Target.id

end FieldLayout

namespace RecordLayout

/-- The first field of the given name, with its position among the fields. -/
def find? (layout : RecordLayout) (name : String) : Option (FieldLayout × Nat) :=
  layout.fields.zipIdx.find? fun entry => entry.1.name = name

/-- The first field of the given name. -/
def field? (layout : RecordLayout) (name : String) : Option FieldLayout :=
  (layout.find? name).map Prod.fst

/-- The position of the first field of the given name. -/
def fieldIndex? (layout : RecordLayout) (name : String) : Option Nat :=
  (layout.find? name).map Prod.snd

theorem getElem?_of_find? {layout : RecordLayout} {name : String} {field : FieldLayout}
    {index : Nat} (h : layout.find? name = some (field, index)) :
    layout.fields[index]? = some field ∧ field.name = name := by
  refine ⟨List.mem_zipIdx_iff_getElem?.1 (List.mem_of_find?_eq_some h), ?_⟩
  simpa using List.find?_some h

/-- Whether some pointer of the record leads to a record. -/
def hasRefs (layout : RecordLayout) : Bool :=
  layout.slots.any fun slot => slot.kind != .text

end RecordLayout

/-! ### Configuration -/

/-- The choices of a layout: every record is aligned to at least `recordAlign`. -/
structure LayoutConfig where
  recordAlign : Nat := 16
  deriving DecidableEq

namespace LayoutConfig

/-- The largest alignment of a record is a power of two with this exponent. -/
def greatestExponent : Nat := 6

/-- The largest alignment of a record. -/
def greatestAlign : Nat := Nat.pow 2 greatestExponent

/-- The alignments that may be asked for. -/
def alignments : List Nat := (List.range (greatestExponent + 1)).map (Nat.pow 2)

/-- The alignment must be a power of two within the limit. -/
def validate (config : LayoutConfig) : Except SchemaError Unit :=
  if alignments.contains config.recordAlign then .ok ()
  else .error (.invalidAlignment config.recordAlign greatestAlign)

/-- Only the powers of two within the limit pass. -/
theorem validate_eq_ok_iff (config : LayoutConfig) :
    config.validate = .ok () ↔
      ∃ exponent ≤ greatestExponent, config.recordAlign = Nat.pow 2 exponent := by
  have hmem : alignments.contains config.recordAlign = true ↔
      ∃ exponent ≤ greatestExponent, config.recordAlign = Nat.pow 2 exponent := by
    simp only [alignments, List.contains_iff_mem, List.mem_map, List.mem_range, Nat.lt_succ_iff]
    exact exists_congr fun exponent => and_congr_right fun _ => eq_comm
  unfold validate
  split
  · next h => simpa using hmem.1 h
  · next h => simpa using fun e he hq => h (hmem.2 ⟨e, he, hq⟩)

end LayoutConfig

end ScenePack
