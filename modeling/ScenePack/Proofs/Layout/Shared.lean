/-
**What a layout depends on.**

Two schemas share a type if both define it, and every type that it embeds at any depth, in the same
way.  The rest of the schemas may differ, even in the types that shared types refer to.  Then types
have other positions in the plan and are laid out in another order, but the records of a shared type
keep their layout.  Only the positions of types in it differ, and those stand for the same names.

Main definitions:

* `Schema.Shares` — a name whose type two schemas share;
* `SlotKind.Alike`, `PointerSlot.Alike`, `FieldLayout.Alike` — pointers and fields that differ at
  most in the positions of the types that they name;
* `RecordLayout.Alike` — layouts that differ at most in those positions.

Main results:

* `Schema.Shares.longest_iff` — a shared type is equally deep in both schemas;
* `Placement.Alike.putAll` — parts that are alike are placed alike;
* `Registry.alike_of_shares` — **shared types are laid out alike**.
-/

import ScenePack.Proofs.Layout.Determined

set_option relaxedAutoImplicit false
set_option autoImplicit false

namespace ScenePack

/-! ### Shared types -/

namespace Schema

variable {schema other : Schema} {name inner : String}

/-- A name whose type two schemas share: they define it in the same way, and everything that it
embeds at any depth. -/
def Shares (schema other : Schema) (name : String) : Prop :=
  ∀ inner, Relation.ReflTransGen schema.Embeds name inner →
    ∃ type ∈ schema, type ∈ other ∧ type.name = inner

theorem Shares.exists_type (h : schema.Shares other name) :
    ∃ type ∈ schema, type ∈ other ∧ type.name = name := h name .refl

theorem Shares.embedded (h : schema.Shares other name) (hembeds : schema.Embeds name inner) :
    schema.Shares other inner :=
  fun last hlast => h last (hlast.head hembeds)

/-- Types that two schemas have in common are shared if they embed only one another. -/
theorem shares_of_closed (types : List ComponentType) (hschema : schema.names.Nodup)
    (hfirst : types ⊆ schema) (hsecond : types ⊆ other)
    (hclosed : ∀ type ∈ types, ∀ inner ∈ type.embedded, inner ∈ types.map ComponentType.name)
    (hname : name ∈ types.map ComponentType.name) : schema.Shares other name := by
  intro last hlast
  suffices hmem : last ∈ types.map ComponentType.name by
    obtain ⟨type, htype, rfl⟩ := List.mem_map.1 hmem
    exact ⟨type, hfirst htype, hsecond htype, rfl⟩
  induction hlast with
  | refl => exact hname
  | tail _ hembeds ih =>
      obtain ⟨type, htype, rfl⟩ := List.mem_map.1 ih
      obtain ⟨found, hfound, hsame, hfield⟩ := (embeds_iff_of_nodup hschema).1 hembeds
      obtain rfl := List.inj_on_of_nodup_map hschema hfound (hfirst htype) hsame
      exact hclosed found htype _ (mem_embedded_iff.2 hfield)

theorem embeds_iff_of_mem (hschema : schema.names.Nodup) (hother : other.names.Nodup)
    {type : ComponentType} (htype : type ∈ schema) (htype' : type ∈ other) :
    schema.Embeds type.name inner ↔ other.Embeds type.name inner := by
  have honly : ∀ {schema : Schema}, schema.names.Nodup → type ∈ schema →
      (schema.Embeds type.name inner ↔ ∃ field ∈ type.fields, field.kind = .component inner) := by
    intro schema hnodup hmem
    rw [embeds_iff_of_nodup hnodup]
    constructor
    · rintro ⟨found, hfound, hsame, hfield⟩
      rwa [← List.inj_on_of_nodup_map hnodup hfound hmem hsame]
    · exact fun hfield => ⟨type, hmem, rfl, hfield⟩
  rw [honly hschema htype, honly hother htype']

/-- The paths from a shared name are the same in both schemas. -/
theorem Shares.isPath_iff (hschema : schema.names.Nodup) (hother : other.names.Nodup)
    (h : schema.Shares other name) (path : List String) :
    schema.IsPath (name :: path) ↔ other.IsPath (name :: path) := by
  induction path generalizing name with
  | nil => exact iff_of_true (List.IsChain.singleton _) (List.IsChain.singleton _)
  | cons next rest ih =>
      obtain ⟨type, htype, htype', rfl⟩ := h.exists_type
      rw [IsPath, IsPath, List.isChain_cons_cons, List.isChain_cons_cons,
        ← embeds_iff_of_mem hschema hother htype htype']
      exact and_congr_right fun hembeds => ih (h.embedded hembeds)

/-- **A shared type is equally deep in both schemas.** -/
theorem Shares.longest_iff (hschema : schema.names.Nodup) (hother : other.names.Nodup)
    (h : schema.Shares other name) (depth : Nat) :
    schema.Longest name depth ↔ other.Longest name depth := by
  simp only [Longest, h.isPath_iff hschema hother]

end Schema

/-! ### Alike but for positions of types -/

/-- Pointers that lead to texts, or to records of types of one name. -/
inductive SlotKind.Alike (first second : Registry) : SlotKind → SlotKind → Prop where
  | text : Alike first second .text .text
  | ref {a b : RecordLayout} {target target' : TypeId} (left : first.layout? target = some a)
      (right : second.layout? target' = some b) (name_eq : a.name = b.name) :
      Alike first second (.ref target) (.ref target')

/-- Pointers in one place that are alike. -/
structure PointerSlot.Alike (first second : Registry) (a b : PointerSlot) : Prop where
  offset_eq : a.offset = b.offset
  kind : a.kind.Alike first second b.kind

/-- Fields in one place that stand for the same field of a schema. -/
structure FieldLayout.Alike (a b : FieldLayout) : Prop where
  declared_eq : a.declared = b.declared
  offset_eq : a.offset = b.offset
  size_eq : a.size = b.size
  align_eq : a.align = b.align

/-- Layouts that differ at most in the positions of the types that they name. -/
structure RecordLayout.Alike (first second : Registry) (a b : RecordLayout) : Prop where
  name_eq : a.name = b.name
  depth_eq : a.depth = b.depth
  size_eq : a.size = b.size
  align_eq : a.align = b.align
  fields : List.Forall₂ FieldLayout.Alike a.fields b.fields
  slots : List.Forall₂ (PointerSlot.Alike first second) a.slots b.slots

/-- Extents of one size and alignment with pointers that are alike. -/
structure Extent.Alike (first second : Registry) (a b : Extent) : Prop where
  size_eq : a.size = b.size
  align_eq : a.align = b.align
  slots : List.Forall₂ (PointerSlot.Alike first second) a.slots b.slots

/-- Parts that stand for the same field of a schema and need the same. -/
structure Part.Alike (first second : Registry) (a b : Part) : Prop where
  name_eq : a.name = b.name
  kind_eq : a.kind.map Target.name = b.kind.map Target.name
  extent : a.extent.Alike first second b.extent

/-- Placements of parts that are alike. -/
structure Placement.Alike (first second : Registry) (a b : Placement) : Prop where
  endsAt_eq : a.endsAt = b.endsAt
  align_eq : a.align = b.align
  fields : List.Forall₂ FieldLayout.Alike a.fields b.fields
  slots : List.Forall₂ (PointerSlot.Alike first second) a.slots b.slots

variable {first second : Registry}

/-! ### Placing alike -/

namespace Placement.Alike

variable {placement placement' : Placement}

theorem put (h : placement.Alike first second placement') {part part' : Part}
    (hpart : part.Alike first second part') :
    (placement.put part.name part.kind part.extent).Alike first second
      (placement'.put part'.name part'.kind part'.extent) := by
  obtain ⟨hname, hkind, hsize, halign, hslots⟩ := hpart
  -- the part starts behind what stands before it, which ends in one place
  have hoffset : alignUp part.extent.align placement.endsAt =
      alignUp part'.extent.align placement'.endsAt := by
    rw [halign, h.endsAt_eq]
  refine ⟨?_, ?_, List.rel_append h.fields (.cons ⟨?_, hoffset, hsize, halign⟩ .nil),
    List.rel_append h.slots ?_⟩
  · rw [Placement.put, Placement.put, hoffset, hsize]
  · rw [Placement.put, Placement.put, h.align_eq, halign]
  · rw [FieldLayout.declared, FieldLayout.declared, hname, hkind]
  · refine List.forall₂_map_left_iff.2 (List.forall₂_map_right_iff.2 (hslots.imp ?_))
    rintro slot slot' ⟨hsame, hslotkind⟩
    exact ⟨by simp only [PointerSlot.shift, hoffset, hsame], hslotkind⟩

/-- **Parts that are alike are placed alike.** -/
theorem putAll (h : placement.Alike first second placement')
    {parts parts' : List Part} (hparts : List.Forall₂ (Part.Alike first second) parts parts') :
    (placement.putAll parts).Alike first second (placement'.putAll parts') := by
  induction hparts generalizing placement placement' with
  | nil => exact h
  | cons hpart _ ih => exact ih (h.put hpart)

end Placement.Alike

/-- Parts that are alike make layouts that are alike. -/
theorem RecordLayout.alike_ofParts {config : LayoutConfig} {position position' : TypeId}
    {depth : Nat} {name : String} {parts parts' : List Part}
    (hparts : List.Forall₂ (Part.Alike first second) parts parts') :
    (ofParts config position depth name parts).Alike first second
      (ofParts config position' depth name parts') := by
  have hstart : (Placement.start config.recordAlign).Alike first second
      (.start config.recordAlign) := ⟨rfl, rfl, .nil, .nil⟩
  have hplaced := hstart.putAll hparts
  refine ⟨rfl, rfl, ?_, hplaced.align_eq, hplaced.fields, hplaced.slots⟩
  rw [ofParts, ofParts, hplaced.endsAt_eq, hplaced.align_eq]

namespace Registry

/-! ### Registries -/

/-- The layout of the target of a part has the name that the part asks for. -/
theorem Lists.layout_of_part {registry : Registry} {schema : Schema} (h : registry.Lists schema)
    {config : LayoutConfig} {position : TypeId} {depth : Nat} {name : String} {parts : List Part}
    (hlayout : RecordLayout.ofParts config position depth name parts ∈ registry.types)
    {part : Part} (hpart : part ∈ parts) {target : Target}
    (htarget : part.kind.target? = some target) :
    ∃ inner, registry.layout? target.id = some inner ∧ inner.name = target.name := by
  obtain ⟨fields, hfields, hplaced⟩ :=
    @Placement.exists_fields_putAll (.start config.recordAlign) parts
  obtain ⟨field, hfield, offset, -, hsame⟩ := exists_mem_of_forall₂ hplaced.flip hpart
  have hall : (RecordLayout.ofParts config position depth name parts).fields = fields :=
    hfields
  have hkind : field.kind.target? = some target := by rw [hsame, htarget]
  exact (h.lookup_iff _ _).1 (h.target _ hlayout field (hall ▸ hfield) target hkind)

/-- **What a field needs is alike** in two registries whose layouts of the embedded type are. -/
theorem alike_of_extent? {kind kind' : FieldKind Target} {extent extent' : Extent}
    (hextent : first.extent? kind = some extent) (hextent' : second.extent? kind' = some extent')
    (hkind : kind.map Target.name = kind'.map Target.name)
    (htarget : ∀ target, kind.target? = some target →
      ∃ inner, first.layout? target.id = some inner ∧ inner.name = target.name)
    (htarget' : ∀ target, kind'.target? = some target →
      ∃ inner, second.layout? target.id = some inner ∧ inner.name = target.name)
    (hembedded : ∀ target inner inner', kind = .component target → inner ∈ first.types →
      inner' ∈ second.types → inner.name = target.name → inner'.name = target.name →
      inner.Alike first second inner') :
    extent.Alike first second extent' := by
  cases kind <;> cases kind' <;>
    simp only [FieldKind.map, FieldKind.scalar.injEq, FieldKind.component.injEq,
      FieldKind.ref.injEq, reduceCtorEq] at hkind
  case scalar.scalar type type' =>
    obtain rfl := hkind
    cases hextent
    cases hextent'
    exact ⟨rfl, rfl, .nil⟩
  case text.text =>
    cases hextent
    cases hextent'
    exact ⟨rfl, rfl, .cons ⟨rfl, .text⟩ .nil⟩
  case ref.ref target target' =>
    obtain ⟨inner, hinner, hname⟩ := htarget target rfl
    obtain ⟨inner', hinner', hname'⟩ := htarget' target' rfl
    cases hextent
    cases hextent'
    exact ⟨rfl, rfl, .cons ⟨rfl, .ref hinner hinner' (by rw [hname, hname', hkind])⟩ .nil⟩
  case component.component target target' =>
    obtain ⟨inner, hinner, hname⟩ := htarget target rfl
    obtain ⟨inner', hinner', hname'⟩ := htarget' target' rfl
    rw [extent?, hinner] at hextent
    rw [extent?, hinner'] at hextent'
    cases hextent
    cases hextent'
    have halike := hembedded target inner inner' rfl (List.mem_of_getElem? hinner)
      (List.mem_of_getElem? hinner') hname (by rw [hname', hkind])
    exact ⟨halike.size_eq, halike.align_eq, halike.slots⟩

variable {schema other : Schema} {config : LayoutConfig}

/-- The layout of a type of the schema is made of parts for the fields of the type. -/
theorem exists_parts_of_mem (h : buildWith .ok schema config = .ok first)
    {type : ComponentType} (htype : type ∈ schema) {layout : RecordLayout}
    (hlayout : layout ∈ first.types) (hname : type.name = layout.name) :
    ∃ parts, RecordLayout.ofParts config layout.id layout.depth type.name parts = layout ∧
      (∀ part ∈ parts, first.extent? part.kind = some part.extent) ∧
      (parts.map fun part => ⟨part.name, part.kind.map Target.name⟩) = type.fields := by
  obtain ⟨found, parts, hfound, hofParts, hextents, hfields⟩ := parts_of_buildWith h layout hlayout
  obtain ⟨-, hvalid, _, _, -, -, rfl⟩ := buildWith_eq_ok_iff.1 h
  rw [← hname, type?_of_mem (Schema.nodup_names_of_validate hvalid) htype] at hfound
  obtain rfl := Option.some.inj hfound
  exact ⟨parts, hofParts, fun part hpart => (hextents part hpart).1, hfields⟩

theorem embeds_of_part (hnodup : schema.names.Nodup) {type : ComponentType}
    (htype : type ∈ schema) {parts : List Part}
    (hfields : (parts.map fun part => ⟨part.name, part.kind.map Target.name⟩) = type.fields)
    {part : Part} (hpart : part ∈ parts) {target : Target}
    (htarget : part.kind = .component target) : schema.Embeds type.name target.name := by
  refine (Schema.embeds_iff_of_nodup hnodup).2
    ⟨type, htype, rfl, ⟨part.name, part.kind.map Target.name⟩, ?_, ?_⟩
  · rw [← hfields]
    exact List.mem_map_of_mem hpart
  · rw [htarget]
    rfl

/-- Layouts of one shared name are alike. -/
theorem alike_of_buildWith (hfirst : buildWith .ok schema config = .ok first)
    (hsecond : buildWith .ok other config = .ok second) {layout layout' : RecordLayout}
    (hlayout : layout ∈ first.types) (hlayout' : layout' ∈ second.types)
    (hname : layout'.name = layout.name) (hshares : schema.Shares other layout.name) :
    layout.Alike first second layout' := by
  have hlists := lists_of_buildWith hfirst
  have hlists' := lists_of_buildWith hsecond
  have hnodup : schema.names.Nodup :=
    Schema.nodup_names_of_validate (buildWith_eq_ok_iff.1 hfirst).2.1
  have hnodup' : other.names.Nodup :=
    Schema.nodup_names_of_validate (buildWith_eq_ok_iff.1 hsecond).2.1
  -- the induction is on the depth, which embedded types have less of
  induction hdepth : layout.depth using Nat.strongRecOn generalizing layout layout' with
  | ind depth ih =>
      -- both layouts were made for the shared type
      obtain ⟨type, htype, htype', hshared⟩ := hshares.exists_type
      obtain ⟨parts, hofParts, hextents, hfields⟩ :=
        exists_parts_of_mem hfirst htype hlayout hshared
      obtain ⟨parts', hofParts', hextents', hfields'⟩ :=
        exists_parts_of_mem hsecond htype' hlayout' (hshared.trans hname.symm)
      have hdeep : layout.depth = layout'.depth := by
        have hlongest := hlists'.depth layout' hlayout'
        rw [hname, ← hshares.longest_iff hnodup hnodup'] at hlongest
        exact (hlists.depth layout hlayout).eq hlongest
      have hlaid := hofParts ▸ hlayout
      have hlaid' := hofParts' ▸ hlayout'
      have hsame := hfields.trans hfields'.symm
      rw [← hofParts, ← hofParts', hdeep]
      refine RecordLayout.alike_ofParts (forall₂_of_getElem? ?_ ?_)
      · simpa only [List.length_map] using congrArg List.length hsame
      intro index part part' hpart hpart'
      have hmem := List.mem_of_getElem? hpart
      have hmem' := List.mem_of_getElem? hpart'
      obtain ⟨hpartname, hkind⟩ : part.name = part'.name ∧
          part.kind.map Target.name = part'.kind.map Target.name := by
        have hat := congrArg (·[index]?) hsame
        simpa only [List.getElem?_map, hpart, hpart', Option.map_some, Option.some_inj,
          Field.mk.injEq] using hat
      refine ⟨hpartname, hkind, alike_of_extent? (hextents part hmem) (hextents' part' hmem') hkind
        (fun _ => hlists.layout_of_part hlaid hmem)
        (fun _ => hlists'.layout_of_part hlaid' hmem') ?_⟩
      intro target inner inner' htarget hinner hinner' hinnername hinnername'
      -- the part is a field of the shared type, so what it embeds is shared too
      have hembeds : schema.Embeds layout.name inner.name := by
        rw [← hshared, hinnername]
        exact embeds_of_part hnodup htype hfields hmem htarget
      have hlt := (hlists.depth layout hlayout).lt (hlists.depth inner hinner) hembeds
      exact ih inner.depth (hdepth ▸ hlt) hinner hinner' (hinnername'.trans hinnername.symm)
        (hshares.embedded hembeds) rfl

/-- **The layout of a type depends on what it embeds, and on nothing else of its schema.**  If two
schemas have a registry under one configuration and share a type, its layouts in the two registries
are alike: the depth, the size, the alignment, the places of the fields and of the pointers are the
same, and references lead to types of the same names. -/
theorem alike_of_shares (hfirst : build schema config = .ok first)
    (hsecond : build other config = .ok second) {name : String}
    (hshares : schema.Shares other name) :
    ∃ layout layout', first.named? name = some layout ∧ second.named? name = some layout' ∧
      layout.name = name ∧ layout.Alike first second layout' := by
  obtain ⟨type, htype, htype', rfl⟩ := hshares.exists_type
  have hlists := lists_of_build hfirst
  have hlists' := lists_of_build hsecond
  obtain ⟨layout, hlayout, hdeclares⟩ := List.mem_map.1 (hlists.perm.mem_iff.2 htype)
  obtain ⟨layout', hlayout', hdeclares'⟩ := List.mem_map.1 (hlists'.perm.mem_iff.2 htype')
  have hname : layout.name = type.name := congrArg ComponentType.name hdeclares
  have hname' : layout'.name = type.name := congrArg ComponentType.name hdeclares'
  exact ⟨layout, layout', hlists.named?_eq_some_iff.2 ⟨hlayout, hname⟩,
    hlists'.named?_eq_some_iff.2 ⟨hlayout', hname'⟩, hname,
    alike_of_buildWith (unbounded_of_build hfirst) (unbounded_of_build hsecond) hlayout hlayout'
      (hname'.trans hname.symm) (hname ▸ hshares)⟩

end Registry

namespace Sample

/-- Notes, each with a tag in it and an author. -/
def note : ComponentType := ⟨"Note", [⟨"tag", .component "Tag"⟩, ⟨"by", .ref "Author"⟩]⟩

@[inherit_doc note] def tag : ComponentType := ⟨"Tag", [⟨"label", .text⟩]⟩

/-- Notes whose authors have a name. -/
def notes : Schema := [⟨"Author", [⟨"name", .text⟩]⟩, note, tag]

/-- The same notes, but their authors have an age and a home.  Authors come first now, because they
are deeper than notes. -/
def settledNotes : Schema :=
  [tag, note, ⟨"Author", [⟨"age", .scalar .u8⟩, ⟨"home", .component "Town"⟩]⟩,
    ⟨"Town", [⟨"sign", .component "Tag"⟩]⟩]

/-- The layout of notes, by the positions of tags and authors. -/
def noteLayout (position tagId authorId : TypeId) : RecordLayout :=
  ⟨position, "Note", 1, 32, 16,
    [⟨"tag", .component ⟨"Tag", tagId⟩, 0, 16, 16⟩, ⟨"by", .ref ⟨"Author", authorId⟩, 16, 8, 8⟩],
    [⟨0, .text⟩, ⟨16, .ref authorId⟩]⟩

/-- The layout of a type with one text. -/
def plainLayout (position : TypeId) (name field : String) : RecordLayout :=
  ⟨position, name, 0, 16, 16, [⟨field, .text, 0, 8, 8⟩], [⟨0, .text⟩]⟩

/-- The registries of both schemas. -/
def notesRegistry : Registry :=
  ⟨⟨16⟩, [noteLayout 0 2 1, plainLayout 1 "Author" "name", plainLayout 2 "Tag" "label"]⟩

@[inherit_doc notesRegistry] def settledRegistry : Registry :=
  ⟨⟨16⟩, [⟨0, "Author", 2, 32, 16,
      [⟨"age", .scalar .u8, 0, 1, 1⟩, ⟨"home", .component ⟨"Town", 2⟩, 16, 16, 16⟩],
      [⟨16, .text⟩]⟩,
    noteLayout 1 3 0,
    ⟨2, "Town", 1, 16, 16, [⟨"sign", .component ⟨"Tag", 3⟩, 0, 16, 16⟩], [⟨0, .text⟩]⟩,
    plainLayout 3 "Tag" "label"]⟩

end Sample

/-- Notes keep their layout when the authors that they refer to change and move in the plan. -/
theorem Registry.alike_of_shares_sample :
    build Sample.notes ⟨16⟩ = .ok Sample.notesRegistry ∧
      build Sample.settledNotes ⟨16⟩ = .ok Sample.settledRegistry ∧
      Sample.notes.Shares Sample.settledNotes "Note" ∧
      ∃ layout layout', Sample.notesRegistry.named? "Note" = some layout ∧
        Sample.settledRegistry.named? "Note" = some layout' ∧ layout.name = "Note" ∧
        layout.Alike Sample.notesRegistry Sample.settledRegistry layout' := by
  have hfirst : build Sample.notes ⟨16⟩ = .ok Sample.notesRegistry := by cbv
  have hsecond : build Sample.settledNotes ⟨16⟩ = .ok Sample.settledRegistry := by cbv
  have hshares : Sample.notes.Shares Sample.settledNotes "Note" :=
    Schema.shares_of_closed [Sample.note, Sample.tag] (by decide) (by decide) (by decide)
      (by decide) (by decide)
  exact ⟨hfirst, hsecond, hshares, alike_of_shares hfirst hsecond hshares⟩

end ScenePack
