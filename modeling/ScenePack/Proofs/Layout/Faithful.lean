/-
**Faithful layouts.**

The layout of a type keeps its fields in the order of their declaration, each at its own alignment
and apart from the others, and lists the pointers of a record depth first: those of its text and
reference fields, and in the place of an embedded record the pointers of that record.

Main definitions:

* `Registry.Flattens` — the pointers of a list of fields, depth first;
* `Registry.FieldAt` — the fields of a record and of the records embedded in it, by position;
* `RecordLayout.Faithful` — a layout that keeps what its type declares.

Main results:

* `Registry.Flattens.unique` — a list of fields has one list of pointers;
* `Registry.Sound.flattens` — the pointers of a record are those of its fields, depth first;
* `Registry.Sound.mem_slots_iff` — a pointer stands where a text or reference field does;
* `Registry.parts_of_buildWith` — the layouts of a registry are made of parts;
* `Registry.faithful_of_build` — **the layouts of a registry are faithful**.
-/

import ScenePack.Proofs.Layout.Parts

set_option relaxedAutoImplicit false
set_option autoImplicit false

namespace ScenePack

namespace Registry

/-! ### Pointers, depth first -/

/-- The pointers of a list of fields of a record that starts at `start`, depth first. -/
inductive Flattens (registry : Registry) :
    (start : Nat) → List FieldLayout → List PointerSlot → Prop
  | nil {start : Nat} : Flattens registry start [] []
  | scalar {start : Nat} {field : FieldLayout} {rest : List FieldLayout}
      {slots : List PointerSlot} {type : ScalarType} (hkind : field.kind = .scalar type)
      (hrest : Flattens registry start rest slots) :
      Flattens registry start (field :: rest) slots
  | text {start : Nat} {field : FieldLayout} {rest : List FieldLayout}
      {slots : List PointerSlot} (hkind : field.kind = .text)
      (hrest : Flattens registry start rest slots) :
      Flattens registry start (field :: rest) (⟨start + field.offset, .text⟩ :: slots)
  | ref {start : Nat} {field : FieldLayout} {rest : List FieldLayout}
      {slots : List PointerSlot} {target : Target} (hkind : field.kind = .ref target)
      (hrest : Flattens registry start rest slots) :
      Flattens registry start (field :: rest) (⟨start + field.offset, .ref target.id⟩ :: slots)
  | component {start : Nat} {field : FieldLayout} {rest : List FieldLayout}
      {inner slots : List PointerSlot} {target : Target} {layout : RecordLayout}
      (hkind : field.kind = .component target) (hlayout : registry.layout? target.id = some layout)
      (hinner : Flattens registry (start + field.offset) layout.fields inner)
      (hrest : Flattens registry start rest slots) :
      Flattens registry start (field :: rest) (inner ++ slots)

/-- **A list of fields has one list of pointers.** -/
theorem Flattens.unique {registry : Registry} {start : Nat} {fields : List FieldLayout}
    {slots others : List PointerSlot} (h : registry.Flattens start fields slots)
    (hothers : registry.Flattens start fields others) : slots = others := by
  induction h generalizing others with
  | nil =>
      cases hothers
      rfl
  | scalar hkind _ ih =>
      cases hothers with
      | scalar _ hrest => exact ih hrest
      | text hother _ => simp [hkind] at hother
      | ref hother _ => simp [hkind] at hother
      | component hother _ _ _ => simp [hkind] at hother
  | text hkind _ ih =>
      cases hothers with
      | scalar hother _ => simp [hkind] at hother
      | text _ hrest => rw [ih hrest]
      | ref hother _ => simp [hkind] at hother
      | component hother _ _ _ => simp [hkind] at hother
  | ref hkind _ ih =>
      cases hothers with
      | scalar hother _ => simp [hkind] at hother
      | text hother _ => simp [hkind] at hother
      | ref hother hrest =>
          obtain rfl := FieldKind.ref.inj (hkind.symm.trans hother)
          rw [ih hrest]
      | component hother _ _ _ => simp [hkind] at hother
  | component hkind hlayout _ _ ihinner ihrest =>
      cases hothers with
      | scalar hother _ => simp [hkind] at hother
      | text hother _ => simp [hkind] at hother
      | ref hother _ => simp [hkind] at hother
      | component hother hfound hinner hrest =>
          obtain rfl := FieldKind.component.inj (hkind.symm.trans hother)
          obtain rfl := Option.some.inj (hlayout.symm.trans hfound)
          rw [ihinner hinner, ihrest hrest]

/-- The pointers of fields are listed depth first if those of the embedded records are. -/
theorem flattens_fields {registry : Registry} {fields : List FieldLayout} (start : Nat)
    (h : ∀ field ∈ fields, ∀ target, field.kind = .component target →
      ∃ inner, registry.layout? target.id = some inner ∧
        ∀ start, registry.Flattens start inner.fields (inner.slots.map (.shift start))) :
    registry.Flattens start fields ((fields.flatMap registry.slotsOf).map (.shift start)) := by
  induction fields with
  | nil => exact .nil
  | cons field rest ih =>
      obtain ⟨hfield, hrest⟩ := List.forall_mem_cons.1 h
      have hrest := ih hrest
      rw [List.flatMap_cons, List.map_append]
      cases hkind : field.kind with
      | scalar type =>
          have hslots : registry.slotsOf field = [] := by
            simp [slotsOf, hkind, extent?, Extent.ofScalar]
          rw [hslots]
          exact .scalar hkind hrest
      | text =>
          rw [slotsOf_of_slotKind? (by rw [hkind]; rfl)]
          exact .text hkind hrest
      | ref target =>
          rw [slotsOf_of_slotKind? (by rw [hkind]; rfl)]
          exact .ref hkind hrest
      | component target =>
          obtain ⟨inner, hinner, hflattens⟩ := hfield target hkind
          rw [slotsOf_eq (extent?_of_component hkind hinner), List.map_map]
          have hshift : PointerSlot.shift start ∘ PointerSlot.shift field.offset =
              PointerSlot.shift (start + field.offset) := by
            funext slot
            simp [PointerSlot.shift, Nat.add_assoc]
          rw [hshift]
          exact .component hkind hinner (hflattens _) hrest

/-- **The pointers of a record are those of its fields, depth first.** -/
theorem Sound.flattens {registry : Registry} (h : registry.Sound) {position : TypeId}
    {layout : RecordLayout} (hlayout : registry.layout? position = some layout) (start : Nat) :
    registry.Flattens start layout.fields (layout.slots.map (.shift start)) := by
  -- the induction is on the depth, which embedded types have less of
  induction hdepth : layout.depth using Nat.strongRecOn generalizing position layout start with
  | ind depth ih =>
      have hsound := (h position layout hlayout).2
      rw [hsound.slots_eq]
      refine flattens_fields start ?_
      intro field hfield target hkind
      obtain ⟨inner, hinner, -⟩ := hsound.target field hfield target (by rw [hkind]; rfl)
      have hlt := hsound.depth_lt field hfield target inner hkind hinner
      exact ⟨inner, hinner, fun start => ih inner.depth (hdepth ▸ hlt) hinner start rfl⟩

/-! ### Nested fields -/

/-- A field at a position of a record: one of its own, or one of a record embedded in it. -/
inductive FieldAt (registry : Registry) : RecordLayout → (offset : Nat) → FieldLayout → Prop
  | own {layout : RecordLayout} {field : FieldLayout} (hfield : field ∈ layout.fields) :
      FieldAt registry layout field.offset field
  | nested {layout inner : RecordLayout} {outer field : FieldLayout} {target : Target}
      {offset : Nat} (houter : outer ∈ layout.fields) (hkind : outer.kind = .component target)
      (hinner : registry.layout? target.id = some inner)
      (hfield : FieldAt registry inner offset field) :
      FieldAt registry layout (outer.offset + offset) field

/-- A text or reference field has its pointer in the list of every record around it. -/
theorem FieldAt.mem_slots {registry : Registry} (hsound : registry.Sound) {layout : RecordLayout}
    {offset : Nat} {field : FieldLayout} (h : registry.FieldAt layout offset field)
    {position : TypeId} (hlayout : registry.layout? position = some layout) {kind : SlotKind}
    (hkind : field.kind.slotKind? = some kind) : ⟨offset, kind⟩ ∈ layout.slots := by
  -- the induction is on the path to the field
  induction h generalizing position with
  | own hfield =>
      rw [(hsound position _ hlayout).2.slots_eq]
      refine List.mem_flatMap.2 ⟨_, hfield, ?_⟩
      rw [slotsOf_of_slotKind? hkind]
      exact List.mem_singleton_self _
  | nested houter hcomponent hinner _ ih =>
      rw [(hsound position _ hlayout).2.slots_eq]
      refine List.mem_flatMap.2 ⟨_, houter, ?_⟩
      rw [slotsOf_eq (extent?_of_component hcomponent hinner)]
      exact List.mem_map_of_mem (ih hinner hkind)

/-- **A pointer stands where a text or reference field does**, be it an own field of the record or
one of a record embedded in it, and leads to what that field declares. -/
theorem Sound.mem_slots_iff {registry : Registry} (h : registry.Sound) {position : TypeId}
    {layout : RecordLayout} (hlayout : registry.layout? position = some layout)
    {slot : PointerSlot} :
    slot ∈ layout.slots ↔
      ∃ field, registry.FieldAt layout slot.offset field ∧
        field.kind.slotKind? = some slot.kind := by
  constructor
  · intro hslot
    induction hdepth : layout.depth using Nat.strongRecOn generalizing position layout slot with
    | ind depth ih =>
        obtain ⟨field, hfield, ⟨hkind, hoffset⟩ | hembedded⟩ :=
          (h position layout hlayout).2.slot_cases hslot
        · exact ⟨field, by rw [hoffset]; exact .own hfield, hkind⟩
        · obtain ⟨target, inner, hkind, hinner, hlt, own, hown, rfl⟩ := hembedded
          obtain ⟨nested, hnested, hslotkind⟩ := ih inner.depth (hdepth ▸ hlt) hinner hown rfl
          exact ⟨nested, .nested hfield hkind hinner hnested, hslotkind⟩
  · rintro ⟨field, hfield, hkind⟩
    exact hfield.mem_slots h hlayout hkind

end Registry

/-! ### Placed parts -/

/-- A part in its place: the field keeps all of the part, at a position that suits it. -/
def Part.PlacedAs (part : Part) (field : FieldLayout) : Prop :=
  ∃ offset, part.extent.align ∣ offset ∧
    field = ⟨part.name, part.kind, offset, part.extent.size, part.extent.align⟩

namespace Placement

variable {placement : Placement} {parts : List Part}

/-- **Parts are placed in their order**, behind the fields that are there. -/
theorem exists_fields_putAll : ∃ fields,
    (placement.putAll parts).fields = placement.fields ++ fields ∧
      List.Forall₂ Part.PlacedAs parts fields := by
  induction parts generalizing placement with
  | nil => exact ⟨[], by simp, .nil⟩
  | cons part rest ih =>
      obtain ⟨fields, hfields, hplaced⟩ :=
        @ih (placement.put part.name part.kind part.extent)
      refine ⟨⟨part.name, part.kind, alignUp part.extent.align placement.endsAt,
        part.extent.size, part.extent.align⟩ :: fields, ?_, .cons ?_ hplaced⟩
      · rw [putAll_cons, hfields]
        simp [put]
      · exact ⟨_, alignUp_dvd _ _, rfl⟩

/-- A record is at least as aligned as it was before, and as each of its parts. -/
theorem le_align_putAll : placement.align ≤ (placement.putAll parts).align ∧
    ∀ part ∈ parts, part.extent.align ≤ (placement.putAll parts).align := by
  induction parts generalizing placement with
  | nil => simp
  | cons part rest ih =>
      obtain ⟨hstart, hrest⟩ := @ih (placement.put part.name part.kind part.extent)
      have hmax : max placement.align part.extent.align ≤
          (placement.putAll (part :: rest)).align := hstart
      refine ⟨Nat.le_trans (Nat.le_max_left _ _) hmax, List.forall_mem_cons.2 ⟨?_, hrest⟩⟩
      exact Nat.le_trans (Nat.le_max_right _ _) hmax

end Placement

/-! ### Declared fields -/

/-- The field of the schema that a field of a layout stands for. -/
def FieldLayout.declared (field : FieldLayout) : Field := ⟨field.name, field.kind.map Target.name⟩

/-- A layout with the fields that its type declares, each as large and as aligned as what it holds,
and a record that is aligned for all of them. -/
structure RecordLayout.Declared (registry : Registry) (type : ComponentType)
    (layout : RecordLayout) : Prop where
  declared : layout.fields.map FieldLayout.declared = type.fields
  align : IsAlignment layout.align
  recordAlign_le : registry.config.recordAlign ≤ layout.align
  align_dvd_size : layout.align ∣ layout.size
  needs : ∀ field ∈ layout.fields, ∃ extent, registry.extent? field.kind = some extent ∧
    field.size = extent.size ∧ field.align = extent.align
  field_dvd_align : ∀ field ∈ layout.fields, field.align ∣ layout.align
  align_dvd_offset : ∀ field ∈ layout.fields, field.align ∣ field.offset

/-- A field that embeds a record is as aligned as the record. -/
theorem RecordLayout.Declared.align_eq {registry : Registry} {type : ComponentType}
    {layout inner : RecordLayout} (h : layout.Declared registry type) {field : FieldLayout}
    (hfield : field ∈ layout.fields) {target : Target} (hkind : field.kind = .component target)
    (hinner : registry.layout? target.id = some inner) : field.align = inner.align := by
  obtain ⟨extent, hextent, -, halign⟩ := h.needs field hfield
  obtain rfl := Option.some.inj ((Registry.extent?_of_component hkind hinner).symm.trans hextent)
  exact halign

theorem declared_ofParts {registry : Registry} {type : ComponentType} {position : TypeId}
    {depth : Nat} {parts : List Part}
    (hconfig : registry.config.validate = .ok ())
    (haligned : ∀ part ∈ parts, IsAlignment part.extent.align)
    (hknown : ∀ part ∈ parts, registry.extent? part.kind = some part.extent)
    (hfields : (parts.map fun part => ⟨part.name, part.kind.map Target.name⟩) = type.fields) :
    (RecordLayout.ofParts registry.config position depth type.name parts).Declared
      registry type := by
  have hrecord := registry.config.validate_eq_ok_iff.1 hconfig
  have halign : IsAlignment
      ((Placement.start registry.config.recordAlign).putAll parts).align :=
    Placement.isAlignment_putAll haligned hrecord
  obtain ⟨hstart, hparts⟩ :=
    @Placement.le_align_putAll (.start registry.config.recordAlign) parts
  obtain ⟨fields, hplacement, hplaced⟩ :=
    @Placement.exists_fields_putAll (.start registry.config.recordAlign) parts
  have hall : (RecordLayout.ofParts registry.config position depth type.name parts).fields =
      fields := hplacement
  -- every field is one of the parts, in its place
  have hfield : ∀ field ∈ fields, ∃ part ∈ parts, part.PlacedAs field :=
    fun field hmem => exists_mem_of_forall₂ hplaced hmem
  refine ⟨?_, halign, hstart, alignUp_dvd _ _, ?_, ?_, ?_⟩
  · rw [hall, ← hfields, ← forall₂_eq_map_iff, List.forall₂_map_right_iff]
    refine hplaced.imp ?_
    rintro part field ⟨offset, -, rfl⟩
    rfl
  · intro field hmem
    obtain ⟨part, hpart, offset, -, rfl⟩ := hfield field (hall ▸ hmem)
    exact ⟨part.extent, hknown part hpart, rfl, rfl⟩
  · intro field hmem
    obtain ⟨part, hpart, offset, -, rfl⟩ := hfield field (hall ▸ hmem)
    exact (haligned part hpart).dvd_of_le halign (hparts part hpart)
  · intro field hmem
    obtain ⟨part, hpart, offset, hdvd, rfl⟩ := hfield field (hall ▸ hmem)
    exact hdvd

namespace Registry

variable {schema : Schema} {config : LayoutConfig} {registry : Registry}

/-- **The layouts of a registry are made of parts**: one for every field of the type, each with what
the registry says that it needs. -/
theorem parts_of_buildWith (h : buildWith .ok schema config = .ok registry) :
    ∀ layout ∈ registry.types, ∃ type parts, schema.type? layout.name = some type ∧
      RecordLayout.ofParts registry.config layout.id layout.depth type.name parts = layout ∧
      (∀ part ∈ parts, registry.extent? part.kind = some part.extent ∧
        IsAlignment part.extent.align) ∧
      (parts.map fun part => ⟨part.name, part.kind.map Target.name⟩) = type.fields := by
  have haligned := isAlignment_of_buildWith h
  obtain ⟨-, -, plan, types, -, htypes, rfl⟩ := buildWith_eq_ok_iff.1 h
  refine forall_of_layAll ?_ htypes
  intro layout later type depth hsuffix _ htype hlayout
  obtain ⟨parts, hparts, hofParts⟩ := RecordLayout.ofType_eq_ok_iff.1 hlayout
  have hlater : ∀ other ∈ later, other ∈ types :=
    fun other hother => hsuffix.subset (List.mem_cons_of_mem _ hother)
  have hplaces : ∀ other ∈ later,
      (Registry.mk config types).layout? other.id = some other ∧ 0 < other.align := by
    intro other hother
    obtain ⟨position, hposition⟩ := List.mem_iff_getElem?.1 (hlater other hother)
    obtain rfl := id_eq_of_layAll htypes hposition
    exact ⟨hposition, (haligned other (hlater other hother)).pos⟩
  -- what the check of a field gives its part
  have hpart : ∀ field part,
      (LayoutContext.mk plan.position? later).part type.name field = .ok part →
      (Registry.mk config types).extent? part.kind = some part.extent ∧
        field = ⟨part.name, part.kind.map Target.name⟩ := by
    intro field part hfield
    obtain ⟨hname, hresolves⟩ := LayoutContext.resolves_of_part hfield
    refine ⟨(hresolves.extent?_eq hplaces).1, ?_⟩
    rw [hname, hresolves.map_name]
  have hsteps := mapM_eq_ok_iff.1 hparts
  have hname : layout.name = type.name := by rw [← hofParts]; rfl
  have hdepth : layout.depth = depth := by rw [← hofParts]; rfl
  refine ⟨type, parts, hname ▸ htype, hdepth ▸ hofParts, fun part hmem => ⟨?_, ?_⟩, ?_⟩
  · obtain ⟨field, -, hfield⟩ := exists_mem_of_forall₂ hsteps hmem
    exact (hpart field part hfield).1
  · exact LayoutContext.isAlignment_of_parts
      (fun other hother => haligned other (hlater other hother)) hparts part hmem
  · symm
    rw [← forall₂_eq_map_iff]
    exact List.Forall₂.flip (hsteps.imp fun field part hfield => (hpart field part hfield).2)

/-- **The layouts on unbounded numbers keep the fields of their types.** -/
theorem declared_of_buildWith (h : buildWith .ok schema config = .ok registry) :
    ∀ layout ∈ registry.types, ∃ type, schema.type? layout.name = some type ∧
      layout.Declared registry type := by
  intro layout hlayout
  obtain ⟨type, parts, htype, hofParts, hparts, hfields⟩ := parts_of_buildWith h layout hlayout
  obtain ⟨hconfig, -, _, _, -, -, rfl⟩ := buildWith_eq_ok_iff.1 h
  refine ⟨type, htype, ?_⟩
  rw [← hofParts]
  exact declared_ofParts hconfig (fun part hpart => (hparts part hpart).2)
    (fun part hpart => (hparts part hpart).1) hfields

/-- **A field is aligned in every record around it**, and so is the record. -/
theorem FieldAt.align_dvd
    (hall : ∀ layout ∈ registry.types, ∃ type, layout.Declared registry type)
    {layout : RecordLayout} {offset : Nat} {field : FieldLayout}
    (h : registry.FieldAt layout offset field) (hlayout : layout ∈ registry.types) :
    field.align ∣ offset ∧ field.align ∣ layout.align ∧
      ∃ extent, registry.extent? field.kind = some extent ∧ field.align = extent.align := by
  induction h with
  | own hfield =>
      obtain ⟨type, hdeclared⟩ := hall _ hlayout
      obtain ⟨extent, hextent, -, halign⟩ := hdeclared.needs _ hfield
      exact ⟨hdeclared.align_dvd_offset _ hfield, hdeclared.field_dvd_align _ hfield, extent,
        hextent, halign⟩
  | nested houter hkind hinner _ ih =>
      obtain ⟨hoffset, hdvd, hextent⟩ := ih (List.mem_of_getElem? hinner)
      obtain ⟨type, hdeclared⟩ := hall _ hlayout
      -- the embedded record is as aligned as the field that holds it
      rw [← hdeclared.align_eq houter hkind hinner] at hdvd
      have hinside := Nat.dvd_trans hdvd (hdeclared.align_dvd_offset _ houter)
      have haround := Nat.dvd_trans hdvd (hdeclared.field_dvd_align _ houter)
      exact ⟨Nat.dvd_add hinside hoffset, haround, hextent⟩

end Registry

/-! ### Faithful layouts -/

/-- A sound layout with the fields of its type, whose pointers are those of its text and reference
fields and of the records embedded in it, depth first. -/
structure RecordLayout.Faithful (registry : Registry) (type : ComponentType)
    (layout : RecordLayout) : Prop
    extends layout.Sound registry, layout.Declared registry type where
  align_le : layout.align ≤ LayoutConfig.greatestAlign
  embedded_dvd_align : ∀ field ∈ layout.fields, ∀ target inner, field.kind = .component target →
    registry.layout? target.id = some inner → inner.align ∣ layout.align
  flattens : registry.Flattens 0 layout.fields layout.slots
  slot_iff : ∀ slot, slot ∈ layout.slots ↔ ∃ field,
    registry.FieldAt layout slot.offset field ∧ field.kind.slotKind? = some slot.kind
  slots_aligned : ∀ slot ∈ layout.slots, Address.width ∣ slot.offset
  slots_ordered : layout.slots.Pairwise fun a b => a.offset < b.offset
  slots_inside : ∀ slot ∈ layout.slots, slot.offset + Address.width ≤ layout.size

namespace Registry

variable {schema : Schema} {config : LayoutConfig} {registry : Registry}

/-- A word of text or of a reference is as aligned as an address. -/
theorem align_of_slotKind? {kind : FieldKind Target} {slotKind : SlotKind} {extent : Extent}
    (h : kind.slotKind? = some slotKind) (hextent : registry.extent? kind = some extent) :
    extent.align = Address.width := by
  cases kind with
  | scalar type => cases h
  | component target => cases h
  | text =>
      cases hextent
      rfl
  | ref target =>
      cases hextent
      rfl

/-- **The layouts on unbounded numbers are faithful.** -/
theorem faithful_of_buildWith (h : buildWith .ok schema config = .ok registry) {position : TypeId}
    {layout : RecordLayout} (hlayout : registry.layout? position = some layout) :
    layout.id = position ∧ ∃ type, schema.type? layout.name = some type ∧
      layout.Faithful registry type := by
  have hsound := sound_of_buildWith h
  have hall := declared_of_buildWith h
  obtain ⟨hid, hself⟩ := hsound position layout hlayout
  obtain ⟨type, htype, hdeclared⟩ := hall layout (List.mem_of_getElem? hlayout)
  obtain ⟨hordered, hinside⟩ := hsound.inOrder hlayout
  refine ⟨hid, type, htype, { hself, hdeclared with
    align_le := hdeclared.align.le_greatest
    embedded_dvd_align := ?_
    flattens := ?_
    slot_iff := fun _ => hsound.mem_slots_iff hlayout
    slots_aligned := ?_
    slots_ordered := hordered.imp fun hab => by
      rw [Address.width] at hab
      omega
    slots_inside := hinside }⟩
  · intro field hfield target inner hkind hinner
    rw [← hdeclared.align_eq hfield hkind hinner]
    exact hdeclared.field_dvd_align field hfield
  · have hzero : (PointerSlot.shift 0) = id := by
      funext slot
      simp [PointerSlot.shift]
    simpa [hzero] using hsound.flattens hlayout 0
  · intro slot hslot
    obtain ⟨field, hfield, hkind⟩ := (hsound.mem_slots_iff hlayout).1 hslot
    obtain ⟨hdvd, -, extent, hextent, halign⟩ := hfield.align_dvd
      (fun layout hlayout => (hall layout hlayout).imp fun _ h => h.2)
      (List.mem_of_getElem? hlayout)
    rwa [halign, align_of_slotKind? hkind hextent] at hdvd

/-- **Record layouts are faithful**: in the registry of a schema every layout keeps the fields of
its type, in order, apart and aligned, and lists exactly their pointers, depth first. -/
theorem faithful_of_build (h : build schema config = .ok registry) :
    registry.config = config ∧ ∀ position layout, registry.layout? position = some layout →
      layout.id = position ∧ ∃ type, schema.type? layout.name = some type ∧
        layout.Faithful registry type := by
  have hunbounded := unbounded_of_build h
  refine ⟨?_, fun position layout hlayout => faithful_of_buildWith hunbounded hlayout⟩
  obtain ⟨-, -, plan, types, -, -, rfl⟩ := buildWith_eq_ok_iff.1 hunbounded
  rfl

/-- The layouts of the sample are faithful: nodes that embed a tag. -/
theorem faithful_of_build_sample :
    build Sample.schema ⟨16⟩ = .ok Sample.registry ∧
    Sample.registry.config = ⟨16⟩ ∧ ∀ position layout,
      Sample.registry.layout? position = some layout → layout.id = position ∧
        ∃ type, Sample.schema.type? layout.name = some type ∧
          layout.Faithful Sample.registry type :=
  ⟨Sample.build_schema, faithful_of_build Sample.build_schema⟩

end Registry

end ScenePack
