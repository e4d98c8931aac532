/-
**The parts of a layout.**

A type is laid out in two steps.  Its fields are checked and become parts, each with what it needs;
then the parts are placed one after the other.  The layouts here are those on unbounded numbers, for
which only the first step can fail.

Main definitions:

* `IsAlignment` — the powers of two that align records and fields;
* `Part`, `LayoutContext.part` — a field with its target found and its extent;
* `Placement.putAll`, `RecordLayout.ofParts` — the placing of parts.

Main results:

* `RecordLayout.ofType_eq` — a type is laid out by placing its parts;
* `Registry.forall_of_layAll` — what holds of a layout if it holds of the later ones holds of all.
-/

import ScenePack.Proofs.Layout.Sound

set_option relaxedAutoImplicit false
set_option autoImplicit false

namespace ScenePack

/-! ### Alignments -/

/-- The alignments of records and fields: the powers of two within the limit. -/
def IsAlignment (align : Nat) : Prop :=
  ∃ exponent ≤ LayoutConfig.greatestExponent, align = Nat.pow 2 exponent

namespace IsAlignment

variable {align other : Nat}

theorem pos (h : IsAlignment align) : 0 < align := by
  obtain ⟨exponent, -, rfl⟩ := h
  exact Nat.pow_pos (by decide)

theorem dvd_of_le (h : IsAlignment align) (hother : IsAlignment other) (hle : align ≤ other) :
    align ∣ other := by
  obtain ⟨exponent, -, rfl⟩ := h
  obtain ⟨larger, -, rfl⟩ := hother
  exact Nat.pow_dvd_pow 2 ((Nat.pow_le_pow_iff_right (by decide)).1 hle)

theorem sup (h : IsAlignment align) (hother : IsAlignment other) :
    IsAlignment (max align other) := by
  rcases Nat.le_total align other with hle | hle
  · rwa [Nat.max_eq_right hle]
  · rwa [Nat.max_eq_left hle]

theorem le_greatest (h : IsAlignment align) : align ≤ LayoutConfig.greatestAlign := by
  obtain ⟨exponent, hexponent, rfl⟩ := h
  exact Nat.pow_le_pow_right (by decide) hexponent

theorem dvd_space (h : IsAlignment align) : align ∣ Address.space := by
  obtain ⟨exponent, hexponent, rfl⟩ := h
  exact Nat.dvd_trans (Nat.pow_dvd_pow 2 hexponent) (by decide)

theorem width : IsAlignment Address.width := ⟨3, by decide, rfl⟩

theorem ofScalar (type : ScalarType) : IsAlignment type.align := by
  cases type with
  | i8 => exact ⟨0, by decide, rfl⟩
  | u8 => exact ⟨0, by decide, rfl⟩
  | i16 => exact ⟨1, by decide, rfl⟩
  | u16 => exact ⟨1, by decide, rfl⟩
  | i32 => exact ⟨2, by decide, rfl⟩
  | u32 => exact ⟨2, by decide, rfl⟩
  | f32 => exact ⟨2, by decide, rfl⟩
  | i64 => exact ⟨3, by decide, rfl⟩
  | u64 => exact ⟨3, by decide, rfl⟩
  | f64 => exact ⟨3, by decide, rfl⟩

end IsAlignment

/-! ### Parts -/

/-- A field of a type with its target found and what it needs. -/
structure Part where
  name : String
  kind : FieldKind Target
  extent : Extent

/-- The part of a field. -/
def LayoutContext.part (context : LayoutContext) (owner : String) (field : Field) :
    Except SchemaError Part := do
  let (kind, extent) ← context.resolve owner field
  .ok ⟨field.name, kind, extent⟩

namespace Placement

/-- The placement with more parts. -/
def putAll (placement : Placement) (parts : List Part) : Placement :=
  parts.foldl (fun placement part => placement.put part.name part.kind part.extent) placement

@[simp] theorem putAll_nil (placement : Placement) : placement.putAll [] = placement := rfl

@[simp] theorem putAll_cons (placement : Placement) (part : Part) (parts : List Part) :
    placement.putAll (part :: parts) =
      (placement.put part.name part.kind part.extent).putAll parts := rfl

theorem isAlignment_putAll {placement : Placement} {parts : List Part}
    (h : ∀ part ∈ parts, IsAlignment part.extent.align) (halign : IsAlignment placement.align) :
    IsAlignment (placement.putAll parts).align := by
  induction parts generalizing placement with
  | nil => exact halign
  | cons part rest ih =>
      obtain ⟨hpart, hrest⟩ := List.forall_mem_cons.1 h
      exact ih hrest (halign.sup hpart)

end Placement

namespace RecordLayout

/-- The layout in which the given parts are placed. -/
def ofParts (config : LayoutConfig) (id : TypeId) (depth : Nat) (name : String)
    (parts : List Part) : RecordLayout :=
  let placement := (Placement.start config.recordAlign).putAll parts
  { id
    name
    depth
    size := alignUp placement.align (max placement.endsAt 1)
    align := placement.align
    fields := placement.fields
    slots := placement.slots }

variable {config : LayoutConfig} {context : LayoutContext} {id : TypeId} {depth : Nat}
  {type : ComponentType}

/-- **A type is laid out by placing its parts**, once all its fields have been checked. -/
theorem ofType_eq :
    ofType .ok config context id depth type =
      (do
        let parts ← type.fields.mapM fun field => Failure.lift (context.part type.name field)
        .ok (ofParts config id depth type.name parts)) := by
  have hstep : (fun (placement : Placement) (field : Field) => (do
      let (kind, extent) ← Failure.lift (context.resolve type.name field)
      placement.place .ok field.name kind extent : Except (Failure SchemaError) Placement)) =
      fun placement field => (do
        let part ← Failure.lift (context.part type.name field)
        .ok (placement.put part.name part.kind part.extent)) := by
    funext placement field
    rw [LayoutContext.part]
    cases context.resolve type.name field with
    | error failure => rfl
    | ok found => exact Placement.place_ok
  rw [ofType, hstep, foldlM_eq_mapM_bind]
  cases type.fields.mapM fun field => Failure.lift (context.part type.name field) with
  | error failure => rfl
  | ok parts => exact bind_eq_ok_iff.2 ⟨_, rfl, bind_eq_ok_iff.2 ⟨_, alignUpBy_ok _ _, rfl⟩⟩

theorem ofType_eq_ok_iff {layout : RecordLayout} :
    ofType .ok config context id depth type = .ok layout ↔
      ∃ parts, type.fields.mapM (context.part type.name) = .ok parts ∧
        ofParts config id depth type.name parts = layout := by
  rw [ofType_eq, bind_eq_ok_iff]
  simp only [mapM_eq_ok_iff, Failure.lift_eq_ok_iff, Except.ok.injEq]

end RecordLayout

/-! ### What fields need -/

/-- The part of a field is the field, resolved. -/
theorem LayoutContext.resolves_of_part {context : LayoutContext} {owner : String} {field : Field}
    {part : Part} (h : context.part owner field = .ok part) :
    part.name = field.name ∧ context.Resolves field.kind part.kind part.extent := by
  obtain ⟨⟨kind, extent⟩, hresolve, hpart⟩ := bind_eq_ok_iff.1 h
  cases hpart
  exact ⟨rfl, context.resolves_of_resolve hresolve⟩

theorem LayoutContext.Resolves.isAlignment {context : LayoutContext} {declared : FieldKind String}
    {kind : FieldKind Target} {extent : Extent} (h : context.Resolves declared kind extent)
    (hlater : ∀ layout ∈ context.later, IsAlignment layout.align) : IsAlignment extent.align := by
  cases h with
  | scalar type => exact .ofScalar type
  | text => exact .width
  | ref => exact .width
  | @component _ layout _ hmem => exact hlater layout hmem

/-- The parts of a type are aligned if the layouts of the later types are. -/
theorem LayoutContext.isAlignment_of_parts {context : LayoutContext} {owner : String}
    {fields : List Field} {parts : List Part}
    (hlater : ∀ layout ∈ context.later, IsAlignment layout.align)
    (h : fields.mapM (context.part owner) = .ok parts) :
    ∀ part ∈ parts, IsAlignment part.extent.align := by
  intro part hpart
  obtain ⟨field, -, hfield⟩ := exists_mem_of_forall₂ (mapM_eq_ok_iff.1 h) hpart
  exact (resolves_of_part hfield).2.isAlignment hlater

namespace Registry

variable {config : LayoutConfig} {schema : Schema} {id? : String → Option TypeId}

/-! ### The layouts of a plan -/

/-- **What holds of a layout if it holds of the layouts after it holds of all layouts.** -/
theorem forall_of_layAll {holds : RecordLayout → Prop} {start : TypeId} {plan : Plan}
    {layouts : List RecordLayout}
    (hstep : ∀ layout later type depth, (layout :: later) <:+ layouts →
      (∀ other ∈ later, holds other) → schema.type? type.name = some type →
      RecordLayout.ofType .ok config ⟨id?, later⟩ layout.id depth type = .ok layout →
      holds layout)
    (h : layAll .ok config schema id? start plan = .ok layouts) :
    ∀ layout ∈ layouts, holds layout := by
  -- the plan is laid out from its end, so the induction is on ends of the plan
  suffices hall : ∀ (plan : Plan) (start : TypeId) (part : List RecordLayout),
      layAll .ok config schema id? start plan = .ok part → part <:+ layouts →
      ∀ layout ∈ part, holds layout from hall plan start layouts h List.suffix_rfl
  intro plan
  induction plan with
  | nil =>
      intro start part hpart _ layout hlayout
      cases hpart
      exact absurd hlayout List.not_mem_nil
  | cons entry rest ih =>
      intro start part hpart hsuffix
      obtain ⟨later, type, layout, hlater, htype, hlayout, rfl⟩ := layAll_cons_eq_ok_iff.1 hpart
      have htail := ih (start + 1) later hlater ((List.suffix_cons layout later).trans hsuffix)
      have hname : type.name = entry.name := by simpa using List.find?_some htype
      have hid : layout.id = start := by
        obtain ⟨parts, -, rfl⟩ := RecordLayout.ofType_eq_ok_iff.1 hlayout
        rfl
      refine List.forall_mem_cons.2 ⟨?_, htail⟩
      exact hstep layout later type entry.depth hsuffix htail (by rw [hname]; exact htype)
        (by rw [hid]; exact hlayout)

theorem map_id_of_layAll {start : TypeId} {plan : Plan} {layouts : List RecordLayout}
    (h : layAll .ok config schema id? start plan = .ok layouts) :
    layouts.map RecordLayout.id = List.range' start plan.length := by
  induction plan generalizing start layouts with
  | nil =>
      cases h
      rfl
  | cons entry rest ih =>
      obtain ⟨later, type, layout, hlater, -, hlayout, rfl⟩ := layAll_cons_eq_ok_iff.1 h
      obtain ⟨parts, -, rfl⟩ := RecordLayout.ofType_eq_ok_iff.1 hlayout
      rw [List.map_cons, ih hlater, List.length_cons, List.range'_succ]
      rfl

theorem id_eq_of_layAll {plan : Plan} {layouts : List RecordLayout}
    (h : layAll .ok config schema id? 0 plan = .ok layouts) {position : TypeId}
    {layout : RecordLayout} (hlayout : layouts[position]? = some layout) :
    layout.id = position := by
  have hid : (layouts.map RecordLayout.id)[position]? = some layout.id := by
    rw [List.getElem?_map, hlayout]
    rfl
  rw [map_id_of_layAll h] at hid
  obtain ⟨hbound, hid⟩ := List.getElem?_eq_some_iff.1 hid
  rw [← hid, List.getElem_range', Nat.zero_add, Nat.one_mul]

theorem isAlignment_of_buildWith {registry : Registry}
    (h : buildWith .ok schema config = .ok registry) :
    ∀ layout ∈ registry.types, IsAlignment layout.align := by
  obtain ⟨hconfig, -, plan, types, -, htypes, rfl⟩ := buildWith_eq_ok_iff.1 h
  refine forall_of_layAll ?_ htypes
  intro layout later type depth _ hlater _ hlayout
  obtain ⟨parts, hparts, hofParts⟩ := RecordLayout.ofType_eq_ok_iff.1 hlayout
  rw [← hofParts]
  exact Placement.isAlignment_putAll (LayoutContext.isAlignment_of_parts hlater hparts)
    (config.validate_eq_ok_iff.1 hconfig)

end Registry

end ScenePack
