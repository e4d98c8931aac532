/-
**Sound layouts.**

The fields of a record lie one after the other inside the record, and its list of pointers is the
list of its own text and reference fields with those of the records embedded in it.  This holds of
every registry that is laid out on unbounded numbers, and so of every one that is built.

Main definitions:

* `Registry.Exact` — the registry of some schema, all of whose layout sums are addresses;
* `Registry.extent?`, `Registry.slotsOf` — what a field needs and the pointers it brings, read off
  the registry;
* `RecordLayout.Sound`, `Registry.Sound` — layouts whose fields and pointers are in their places;
* `FieldKind.slotKind?` — what the word of a text or reference field leads to.

Main results:

* `Registry.sound_of_buildWith`, `Registry.Exact.sound` — **the registry of a schema on unbounded
  numbers is sound**, and so is an exact one;
* `RecordLayout.Sound.slot_cases` — where the pointers of a record come from;
* `Registry.Sound.inOrder` — **the pointers of a record are in order**: they lie inside it and do
  not overlap;
* `Registry.Sound.slot_apart` — a pointer lies inside one field and apart from all others.
-/

import Mathlib
import ScenePack.Proofs.Layout.Sums
import ScenePack.Proofs.Schema.Depth

set_option relaxedAutoImplicit false
set_option autoImplicit false

namespace ScenePack

namespace Registry

/-- The registry of a schema in the address space.  It is the one on unbounded numbers, since the
program stops at a sum that is not an address. -/
def Exact (registry : Registry) : Prop :=
  ∃ schema config, Registry.build schema config = .ok registry

end Registry

/-! ### A sample -/

namespace Sample

/-- Nodes of a list, each with a number, an embedded tag and the next node. -/
def schema : Schema :=
  [⟨"Tag", [⟨"label", .text⟩]⟩,
    ⟨"Node", [⟨"w", .scalar .u16⟩, ⟨"tag", .component "Tag"⟩, ⟨"next", .ref "Node"⟩]⟩]

/-- The registry of the sample. -/
def registry : Registry :=
  ⟨⟨16⟩,
    [⟨0, "Node", 1, 48, 16,
        [⟨"w", .scalar .u16, 0, 2, 2⟩, ⟨"tag", .component ⟨"Tag", 1⟩, 16, 16, 16⟩,
          ⟨"next", .ref ⟨"Node", 0⟩, 32, 8, 8⟩],
        [⟨16, .text⟩, ⟨32, .ref 0⟩]⟩,
      ⟨1, "Tag", 0, 16, 16, [⟨"label", .text, 0, 8, 8⟩], [⟨0, .text⟩]⟩]⟩

theorem build_schema : Registry.build schema ⟨16⟩ = .ok registry := by cbv

theorem exact : registry.Exact := ⟨schema, ⟨16⟩, build_schema⟩

end Sample

/-! ### Pointers of fields -/

namespace Registry

/-- What a field of a kind needs, an embedded type being looked up in the registry. -/
def extent? (registry : Registry) : FieldKind Target → Option Extent
  | .scalar type => some (.ofScalar type)
  | .text => some (.pointer .text)
  | .ref target => some (.pointer (.ref target.id))
  | .component target => (registry.layout? target.id).map .ofRecord

/-- The pointers that a field brings into its record. -/
def slotsOf (registry : Registry) (field : FieldLayout) : List PointerSlot :=
  match registry.extent? field.kind with
  | some extent => extent.slots.map (PointerSlot.shift field.offset)
  | none => []

theorem slotsOf_eq {registry : Registry} {field : FieldLayout} {extent : Extent}
    (h : registry.extent? field.kind = some extent) :
    registry.slotsOf field = extent.slots.map (PointerSlot.shift field.offset) := by
  rw [slotsOf, h]

/-- A field that embeds a record needs what the record needs. -/
theorem extent?_of_component {registry : Registry} {field : FieldLayout} {target : Target}
    {inner : RecordLayout} (hkind : field.kind = .component target)
    (hinner : registry.layout? target.id = some inner) :
    registry.extent? field.kind = some (.ofRecord inner) := by
  rw [hkind, extent?, hinner]
  rfl

end Registry

/-! ### Placing -/

/-- Fields that have been placed one after the other, with their pointers. -/
structure Placement.Sound (registry : Registry) (placement : Placement) : Prop where
  ordered : placement.fields.Pairwise fun a b => a.offset + a.size ≤ b.offset
  inside : ∀ field ∈ placement.fields, field.offset + field.size ≤ placement.endsAt
  slots_eq : placement.slots = placement.fields.flatMap registry.slotsOf

theorem Placement.Sound.start (registry : Registry) (align : Nat) :
    (Placement.start align).Sound registry where
  ordered := List.Pairwise.nil
  inside := fun _ h => absurd h List.not_mem_nil
  slots_eq := rfl

/-- **Placing a field keeps the order**: it starts where the fields before it have ended. -/
theorem Placement.Sound.put {registry : Registry} {placement : Placement}
    (h : placement.Sound registry) {name : String} {kind : FieldKind Target} {extent : Extent}
    (hextent : registry.extent? kind = some extent) (halign : 0 < extent.align) :
    (placement.put name kind extent).Sound registry := by
  have hoffset := le_alignUp halign placement.endsAt
  constructor
  · refine List.pairwise_append.2 ⟨h.ordered, List.pairwise_singleton _ _, ?_⟩
    intro field hfield placed hplaced
    obtain rfl := List.mem_singleton.1 hplaced
    exact Nat.le_trans (h.inside field hfield) hoffset
  · intro field hfield
    simp only [Placement.put]
    rcases List.mem_append.1 hfield with hfield | hfield
    · have := h.inside field hfield
      omega
    · obtain rfl := List.mem_singleton.1 hfield
      exact Nat.le_refl _
  · let placed : FieldLayout :=
      ⟨name, kind, alignUp extent.align placement.endsAt, extent.size, extent.align⟩
    have hnew : registry.slotsOf placed = extent.slots.map (PointerSlot.shift placed.offset) :=
      Registry.slotsOf_eq hextent
    rw [Placement.put, h.slots_eq, List.flatMap_append, List.flatMap_singleton, hnew]

/-! ### Fields of a type -/

/-- A field in the layout of a type: what it needs, and the field of the schema it stands for. -/
structure FieldLayout.Stands (registry : Registry) (id? : String → Option TypeId)
    (type : ComponentType) (field : FieldLayout) : Prop where
  extent : ∃ extent, registry.extent? field.kind = some extent ∧ field.size = extent.size
  source : ∃ declared ∈ type.fields, field.kind.map Target.name = declared.kind
  target : ∀ target, field.kind.target? = some target → id? target.name = some target.id

namespace LayoutContext

variable {context : LayoutContext} {registry : Registry} {owner : String}

theorem eq_of_target {field name : String} {target : Target}
    (h : context.target owner field name = .ok target) :
    target.name = name ∧ context.id? name = some target.id := by
  rw [LayoutContext.target] at h
  split at h
  · next position hposition =>
      cases h
      exact ⟨rfl, hposition⟩
  · cases h

/-- How a field is resolved, by its kind: targets are found, and an embedded type is one of the
later ones. -/
inductive Resolves (context : LayoutContext) :
    (declared : FieldKind String) → (kind : FieldKind Target) → Extent → Prop where
  | scalar (type : ScalarType) : Resolves context (.scalar type) (.scalar type) (.ofScalar type)
  | text : Resolves context .text .text (.pointer .text)
  | ref {target : Target} (found : context.id? target.name = some target.id) :
      Resolves context (.ref target.name) (.ref target) (.pointer (.ref target.id))
  | component {target : Target} {layout : RecordLayout}
      (found : context.id? target.name = some target.id) (later : layout ∈ context.later)
      (id_eq : layout.id = target.id) :
      Resolves context (.component target.name) (.component target) (.ofRecord layout)

theorem resolves_of_resolve {field : Field} {kind : FieldKind Target} {extent : Extent}
    (h : context.resolve owner field = .ok (kind, extent)) :
    context.Resolves field.kind kind extent := by
  unfold resolve at h
  split at h
  · next type hkind =>
      cases h
      exact hkind ▸ .scalar type
  · next hkind =>
      cases h
      exact hkind ▸ .text
  · next name hkind =>
      obtain ⟨target, htarget, hok⟩ := bind_eq_ok_iff.1 h
      obtain ⟨rfl, hfound⟩ := eq_of_target htarget
      cases hok
      exact hkind ▸ .ref hfound
  · next name hkind =>
      obtain ⟨target, htarget, hok⟩ := bind_eq_ok_iff.1 h
      obtain ⟨rfl, hfound⟩ := eq_of_target htarget
      split at hok
      · next layout hfind =>
          cases hok
          have hid : layout.id = target.id := by simpa using List.find?_some hfind
          exact hkind ▸ .component hfound (List.mem_of_find?_eq_some hfind) hid
      · cases hok

namespace Resolves

variable {declared : FieldKind String} {kind : FieldKind Target} {extent : Extent}

theorem map_name (h : context.Resolves declared kind extent) : kind.map Target.name = declared := by
  cases h <;> rfl

theorem target (h : context.Resolves declared kind extent) {target : Target}
    (htarget : kind.target? = some target) : context.id? target.name = some target.id := by
  cases h with
  | scalar => cases htarget
  | text => cases htarget
  | ref hfound =>
      cases htarget
      exact hfound
  | component hfound =>
      cases htarget
      exact hfound

/-- **What a field needs is read off the registry**, if the later layouts are those of the
registry. -/
theorem extent?_eq (h : context.Resolves declared kind extent)
    (hlater : ∀ layout ∈ context.later,
      registry.layout? layout.id = some layout ∧ 0 < layout.align) :
    registry.extent? kind = some extent ∧ 0 < extent.align := by
  cases h with
  | scalar type => exact ⟨rfl, type.size_pos⟩
  | text => exact ⟨rfl, by decide⟩
  | ref => exact ⟨rfl, Nat.succ_pos _⟩
  | @component target layout _ hmem hid =>
      obtain ⟨hlayout, halign⟩ := hlater layout hmem
      refine ⟨?_, halign⟩
      rw [Registry.extent?, ← hid, hlayout]
      rfl

end Resolves

end LayoutContext

/-! ### The layout of a type -/

/-- A layout in a registry that was built from a type with the given positions of names. -/
structure RecordLayout.Built (registry : Registry) (id? : String → Option TypeId)
    (type : ComponentType) (layout : RecordLayout) : Prop where
  name_eq : layout.name = type.name
  align_pos : 0 < layout.align
  placed : ∃ placement : Placement, placement.Sound registry ∧ layout.fields = placement.fields ∧
    layout.slots = placement.slots ∧ max placement.endsAt 1 ≤ layout.size
  stands : ∀ field ∈ layout.fields, field.Stands registry id? type

/-- The layout of a type, if the later layouts are those of the registry. -/
theorem Registry.built_of_ofType {registry : Registry} {config : LayoutConfig}
    {context : LayoutContext} {position depth : Nat} {type : ComponentType} {layout : RecordLayout}
    (hlater : ∀ other ∈ context.later, registry.layout? other.id = some other ∧ 0 < other.align)
    (hconfig : 0 < config.recordAlign)
    (h : RecordLayout.ofType .ok config context position depth type = .ok layout) :
    layout.id = position ∧ layout.depth = depth ∧ layout.Built registry context.id? type := by
  obtain ⟨placement, hfold, hlayout⟩ := bind_eq_ok_iff.1 h
  rw [Placement.size, alignUpBy_ok] at hlayout
  cases hlayout
  -- the fields placed so far are in order and stand for fields of the type
  have hall : placement.Sound registry ∧ 0 < placement.align ∧
      ∀ field ∈ placement.fields, field.Stands registry context.id? type := by
    refine foldlM_induction (fun _ placement => placement.Sound registry ∧ 0 < placement.align ∧
      ∀ field ∈ placement.fields, field.Stands registry context.id? type)
      ⟨.start registry _, hconfig, fun _ h => absurd h List.not_mem_nil⟩ ?_ hfold
    rintro _ declared placement next hdeclared ⟨hsound, halign, hstands⟩ hstep
    obtain ⟨⟨kind, extent⟩, hresolve, hplace⟩ := bind_eq_ok_iff.1 hstep
    obtain rfl := Except.ok.inj (Placement.place_ok.symm.trans hplace)
    have hresolves := context.resolves_of_resolve (Failure.lift_eq_ok_iff.1 hresolve)
    obtain ⟨hextent, hpos⟩ := hresolves.extent?_eq hlater
    refine ⟨hsound.put hextent hpos, Nat.lt_of_lt_of_le halign (Nat.le_max_left _ _), ?_⟩
    intro field hfield
    rcases List.mem_append.1 hfield with hfield | hfield
    · exact hstands field hfield
    · obtain rfl := List.mem_singleton.1 hfield
      exact ⟨⟨extent, hextent, rfl⟩, ⟨declared, hdeclared, hresolves.map_name⟩,
        fun _ => hresolves.target⟩
  obtain ⟨hsound, halign, hstands⟩ := hall
  exact ⟨rfl, rfl, rfl, halign, ⟨placement, hsound, rfl, rfl, le_alignUp halign _⟩, hstands⟩

/-! ### The layouts of a plan -/

/-- **Every planned type is laid out** at its position in the plan, over the layouts after it. -/
theorem Registry.built_of_layAll {registry : Registry} {config : LayoutConfig} {schema : Schema}
    {id? : String → Option TypeId} (hconfig : 0 < config.recordAlign) {start : TypeId} {plan : Plan}
    {layouts : List RecordLayout} (h : layAll .ok config schema id? start plan = .ok layouts)
    (htypes : registry.types.drop start = layouts) :
    layouts.length = plan.length ∧ ∀ index layout, layouts[index]? = some layout →
      ∃ entry type, plan[index]? = some entry ∧ schema.type? entry.name = some type ∧
        layout.id = start + index ∧ layout.depth = entry.depth ∧
        layout.Built registry id? type := by
  -- the plan is laid out from its end, so the later layouts are known to be built
  induction plan generalizing start layouts with
  | nil =>
      cases h
      exact ⟨rfl, fun index layout hindex => by simp at hindex⟩
  | cons entry rest ih =>
      obtain ⟨later, type, layout, hlater, htype, hlayout, rfl⟩ :=
        Registry.layAll_cons_eq_ok_iff.1 h
      have htail : registry.types.drop (start + 1) = later := by
        rw [← List.drop_drop, htypes, List.drop_one, List.tail_cons]
      obtain ⟨hlength, hbuilt⟩ := ih hlater htail
      have hknown : ∀ other ∈ later,
          registry.layout? other.id = some other ∧ 0 < other.align := by
        intro other hother
        obtain ⟨index, hindex⟩ := List.mem_iff_getElem?.1 hother
        obtain ⟨_, _, _, _, hid, _, hother⟩ := hbuilt index other hindex
        refine ⟨?_, hother.align_pos⟩
        rw [Registry.layout?, hid, ← List.getElem?_drop, htail, hindex]
      obtain ⟨hid, hdepth, hlayout⟩ := built_of_ofType hknown hconfig hlayout
      refine ⟨by rw [List.length_cons, List.length_cons, hlength], ?_⟩
      intro index other hother
      cases index with
      | zero =>
          cases hother
          exact ⟨entry, type, rfl, htype, hid, hdepth, hlayout⟩
      | succ index =>
          obtain ⟨found, source, hfound, hsource, hid, hdepth, hbuilt⟩ :=
            hbuilt index other hother
          exact ⟨found, source, hfound, hsource,
            hid.trans (Nat.add_right_comm start 1 index), hdepth, hbuilt⟩

/-! ### Sound registries -/

/-- A layout whose fields lie in order inside the record, whose embedded types are known and
shallower, and whose pointers are those of its fields. -/
structure RecordLayout.Sound (registry : Registry) (layout : RecordLayout) : Prop where
  size_pos : 0 < layout.size
  align_pos : 0 < layout.align
  ordered : layout.fields.Pairwise fun a b => a.offset + a.size ≤ b.offset
  inside : ∀ field ∈ layout.fields, field.offset + field.size ≤ layout.size
  extent : ∀ field ∈ layout.fields, ∃ extent,
    registry.extent? field.kind = some extent ∧ field.size = extent.size
  slots_eq : layout.slots = layout.fields.flatMap registry.slotsOf
  target : ∀ field ∈ layout.fields, ∀ target, field.kind.target? = some target →
    ∃ inner, registry.layout? target.id = some inner ∧ inner.name = target.name
  depth_lt : ∀ field ∈ layout.fields, ∀ target inner, field.kind = .component target →
    registry.layout? target.id = some inner → inner.depth < layout.depth

/-- A registry is sound if every layout is, and stands at the position that identifies it. -/
def Registry.Sound (registry : Registry) : Prop :=
  ∀ position layout, registry.layout? position = some layout →
    layout.id = position ∧ layout.Sound registry

/-- A placement in which a built layout was placed is the layout up to its size. -/
theorem RecordLayout.Built.sound {registry : Registry} {id? : String → Option TypeId}
    {type : ComponentType} {layout : RecordLayout} (h : layout.Built registry id? type)
    (htarget : ∀ field ∈ layout.fields, ∀ target, field.kind.target? = some target →
      ∃ inner, registry.layout? target.id = some inner ∧ inner.name = target.name)
    (hdepth : ∀ field ∈ layout.fields, ∀ target inner, field.kind = .component target →
      registry.layout? target.id = some inner → inner.depth < layout.depth) :
    layout.Sound registry := by
  obtain ⟨placement, hsound, hfields, hslots, hsize⟩ := h.placed
  refine ⟨by omega, h.align_pos, ?_, ?_, fun field hfield => (h.stands field hfield).extent, ?_,
    htarget, hdepth⟩
  · rw [hfields]
    exact hsound.ordered
  · intro field hfield
    have := hsound.inside field (hfields ▸ hfield)
    omega
  · rw [hslots, hfields, hsound.slots_eq]

/-- A field that embeds a type makes its owner embed it. -/
theorem FieldLayout.Stands.mem_embedded {registry : Registry} {id? : String → Option TypeId}
    {type : ComponentType} {field : FieldLayout} (h : field.Stands registry id? type)
    {target : Target} (hkind : field.kind = .component target) : target.name ∈ type.embedded := by
  obtain ⟨declared, hdeclared, hsource⟩ := h.source
  refine List.mem_filterMap.2 ⟨declared, hdeclared, ?_⟩
  rw [← hsource, hkind]
  rfl

/-- **The registry of a schema on unbounded numbers is sound.** -/
theorem Registry.sound_of_buildWith {schema : Schema} {config : LayoutConfig} {registry : Registry}
    (hbuild : buildWith .ok schema config = .ok registry) : registry.Sound := by
  obtain ⟨hconfig, hvalid, plan, types, hplan, hall, rfl⟩ := buildWith_eq_ok_iff.1 hbuild
  have halign : 0 < config.recordAlign := by
    obtain ⟨exponent, -, hexponent⟩ := config.validate_eq_ok_iff.1 hconfig
    rw [hexponent]
    exact Nat.pow_pos (by decide)
  obtain ⟨hlength, hbuilt⟩ :=
    @built_of_layAll ⟨config, types⟩ _ _ _ halign _ _ _ hall List.drop_zero
  -- the position of a name leads to the layout of that name
  have hnamed : ∀ name position, plan.position? name = some position →
      ∃ inner entry, types[position]? = some inner ∧ plan[position]? = some entry ∧
        inner.name = name ∧ entry.name = name ∧ inner.depth = entry.depth := by
    intro name position hposition
    obtain ⟨hlt, hentry, -⟩ := List.findIdx?_eq_some_iff_getElem.1 hposition
    obtain ⟨inner, hinner⟩ : ∃ inner, types[position]? = some inner :=
      ⟨_, List.getElem?_eq_getElem (hlength ▸ hlt)⟩
    obtain ⟨entry, type, hplanned, htype, -, hdepth, hlayout⟩ := hbuilt position inner hinner
    rw [List.getElem?_eq_getElem hlt, Option.some_inj] at hplanned
    have hname : entry.name = name := by simpa [hplanned] using hentry
    have htypename : type.name = entry.name := by simpa using List.find?_some htype
    exact ⟨inner, entry, hinner, by rw [List.getElem?_eq_getElem hlt, hplanned],
      by rw [hlayout.name_eq, htypename, hname], hname, hdepth⟩
  intro position layout hposition
  obtain ⟨entry, type, hplanned, htype, hid, hdepth, hlayout⟩ := hbuilt position layout hposition
  refine ⟨hid.trans (Nat.zero_add position), hlayout.sound ?_ ?_⟩
  · intro field hfield target htarget
    obtain ⟨inner, _, hinner, _, hname, _, _⟩ :=
      hnamed target.name target.id ((hlayout.stands field hfield).target target htarget)
    exact ⟨inner, hinner, hname⟩
  · intro field hfield target inner hkind hinner
    obtain ⟨found, below, hfound, hbelow, _, hname, hfounddepth⟩ := hnamed target.name target.id
      ((hlayout.stands field hfield).target target (by rw [hkind]; rfl))
    have heq : found = inner := Option.some_inj.1 (hfound.symm.trans hinner)
    rw [← heq, hfounddepth, hdepth]
    refine Schema.depth_lt_of_plan hplan (List.mem_of_getElem? hplanned)
      (List.mem_of_getElem? hbelow) ?_
    rw [Schema.embeddedIn_eq (Schema.nodup_names_of_validate hvalid) htype, hname]
    exact (hlayout.stands field hfield).mem_embedded hkind

/-- **An exact registry is sound.** -/
theorem Registry.Exact.sound {registry : Registry} (h : registry.Exact) : registry.Sound := by
  obtain ⟨_, _, hbuild⟩ := h
  exact sound_of_buildWith (unbounded_of_build hbuild)

theorem RecordLayout.Sound.size_eq {registry : Registry} {layout : RecordLayout}
    (h : layout.Sound registry) {field : FieldLayout} (hfield : field ∈ layout.fields)
    {extent : Extent} (hextent : registry.extent? field.kind = some extent) :
    field.size = extent.size := by
  obtain ⟨other, hother, hsize⟩ := h.extent field hfield
  rw [hsize, Option.some_inj.1 (hother.symm.trans hextent)]

/-! ### Fields that hold positions -/

/-- What the word of a field of a kind leads to, if the field is one word that holds a position. -/
def FieldKind.slotKind? : FieldKind Target → Option SlotKind
  | .text => some .text
  | .ref target => some (.ref target.id)
  | _ => none

/-- A text or reference field brings one pointer into its record. -/
theorem Registry.slotsOf_of_slotKind? {registry : Registry} {field : FieldLayout} {kind : SlotKind}
    (h : field.kind.slotKind? = some kind) : registry.slotsOf field = [⟨field.offset, kind⟩] := by
  cases hkind : field.kind with
  | scalar type => simp [hkind, FieldKind.slotKind?] at h
  | component target => simp [hkind, FieldKind.slotKind?] at h
  | text =>
      rw [hkind] at h
      cases h
      simp [slotsOf, hkind, extent?, Extent.pointer, PointerSlot.shift]
  | ref target =>
      rw [hkind] at h
      cases h
      simp [slotsOf, hkind, extent?, Extent.pointer, PointerSlot.shift]

/-- **A pointer of a record** is one of its text and reference fields, or a pointer of a record that
is embedded in it. -/
theorem RecordLayout.Sound.slot_cases {registry : Registry} {layout : RecordLayout}
    (h : layout.Sound registry) {slot : PointerSlot} (hslot : slot ∈ layout.slots) :
    ∃ field ∈ layout.fields,
      (field.kind.slotKind? = some slot.kind ∧ slot.offset = field.offset) ∨
        ∃ target inner, field.kind = .component target ∧
          registry.layout? target.id = some inner ∧ inner.depth < layout.depth ∧
          ∃ own ∈ inner.slots, slot = own.shift field.offset := by
  rw [h.slots_eq] at hslot
  obtain ⟨field, hfield, hslot⟩ := List.mem_flatMap.1 hslot
  refine ⟨field, hfield, ?_⟩
  have hown : ∀ kind, field.kind.slotKind? = some kind →
      field.kind.slotKind? = some slot.kind ∧ slot.offset = field.offset := by
    intro kind hkind
    rw [Registry.slotsOf_of_slotKind? hkind, List.mem_singleton] at hslot
    rw [hkind, hslot]
    exact ⟨rfl, rfl⟩
  cases hkind : field.kind with
  | scalar type => simp [Registry.slotsOf, hkind, Registry.extent?, Extent.ofScalar] at hslot
  | text => exact Or.inl (hkind ▸ hown .text (by rw [hkind]; rfl))
  | ref target => exact Or.inl (hkind ▸ hown (.ref target.id) (by rw [hkind]; rfl))
  | component target =>
      obtain ⟨inner, hinner, -⟩ := h.target field hfield target (by rw [hkind]; rfl)
      rw [Registry.slotsOf_eq (Registry.extent?_of_component hkind hinner)] at hslot
      obtain ⟨own, hmem, rfl⟩ := List.mem_map.1 hslot
      exact Or.inr ⟨target, inner, rfl, hinner, h.depth_lt field hfield target inner hkind hinner,
        own, hmem, rfl⟩

/-! ### The pointers of a record -/

/-- Pointers in order, that do not overlap and end by `size`. -/
def PointerSlot.InOrder (size : Nat) (slots : List PointerSlot) : Prop :=
  (slots.Pairwise fun a b => a.offset + Address.width ≤ b.offset) ∧
    ∀ slot ∈ slots, slot.offset + Address.width ≤ size

theorem PointerSlot.InOrder.shift {size : Nat} {slots : List PointerSlot}
    (h : PointerSlot.InOrder size slots) (start : Nat) :
    PointerSlot.InOrder (start + size) (slots.map (PointerSlot.shift start)) := by
  constructor
  · refine List.pairwise_map.2 (h.1.imp fun hab => ?_)
    simp only [PointerSlot.shift]
    omega
  · intro slot hslot
    obtain ⟨inner, hinner, rfl⟩ := List.mem_map.1 hslot
    have := h.2 inner hinner
    simp only [PointerSlot.shift]
    omega

namespace RecordLayout.Sound

variable {registry : Registry} {layout : RecordLayout}

/-- The pointers of a record are in order if those of its fields are. -/
theorem inOrder_of_fields (h : layout.Sound registry)
    (hfields : ∀ field ∈ layout.fields, ∀ extent, registry.extent? field.kind = some extent →
      PointerSlot.InOrder extent.size extent.slots) :
    PointerSlot.InOrder layout.size layout.slots := by
  have hfield : ∀ field ∈ layout.fields,
      PointerSlot.InOrder (field.offset + field.size) (registry.slotsOf field) ∧
        ∀ slot ∈ registry.slotsOf field, field.offset ≤ slot.offset := by
    intro field hmem
    obtain ⟨extent, hextent, hsize⟩ := h.extent field hmem
    rw [Registry.slotsOf_eq hextent, hsize]
    refine ⟨(hfields field hmem extent hextent).shift field.offset, ?_⟩
    intro slot hslot
    obtain ⟨inner, _, rfl⟩ := List.mem_map.1 hslot
    exact Nat.le_add_right _ _
  rw [h.slots_eq]
  constructor
  · refine List.pairwise_flatMap.2 ⟨fun field hmem => (hfield field hmem).1.1, ?_⟩
    refine h.ordered.imp_of_mem fun {a b} ha hb hab => ?_
    intro x hx y hy
    have hend := (hfield a ha).1.2 x hx
    have hstart := (hfield b hb).2 y hy
    omega
  · intro slot hslot
    obtain ⟨field, hmem, hslot⟩ := List.mem_flatMap.1 hslot
    have hend := (hfield field hmem).1.2 slot hslot
    have hinside := h.inside field hmem
    omega

end RecordLayout.Sound

namespace Registry

variable {registry : Registry}

/-- The pointers of a field are in order if those of the embedded type are. -/
theorem inOrder_of_extent? {kind : FieldKind Target} {extent : Extent}
    (hextent : registry.extent? kind = some extent)
    (hembedded : ∀ target inner, kind = .component target →
      registry.layout? target.id = some inner → PointerSlot.InOrder inner.size inner.slots) :
    PointerSlot.InOrder extent.size extent.slots := by
  cases kind with
  | scalar type =>
      cases hextent
      exact ⟨List.Pairwise.nil, fun _ h => absurd h List.not_mem_nil⟩
  | text =>
      cases hextent
      exact ⟨List.pairwise_singleton _ _, by simp [Extent.pointer]⟩
  | ref target =>
      cases hextent
      exact ⟨List.pairwise_singleton _ _, by simp [Extent.pointer]⟩
  | component target =>
      obtain ⟨inner, hinner, rfl⟩ := Option.map_eq_some_iff.1 hextent
      exact hembedded target inner rfl hinner

/-- **The pointers of a record are in order**, those of embedded records included. -/
theorem Sound.inOrder (h : registry.Sound) {position : TypeId} {layout : RecordLayout}
    (hlayout : registry.layout? position = some layout) :
    PointerSlot.InOrder layout.size layout.slots := by
  -- the induction is on the depth, which embedded types have less of
  induction hdepth : layout.depth using Nat.strongRecOn generalizing position layout with
  | ind depth ih =>
      have hsound := (h position layout hlayout).2
      refine hsound.inOrder_of_fields ?_
      intro field hfield extent hextent
      refine inOrder_of_extent? hextent ?_
      intro target inner hkind hinner
      have hlt := hsound.depth_lt field hfield target inner hkind hinner
      exact ih inner.depth (hdepth ▸ hlt) hinner rfl

/-- The pointers that a field brings into a record lie inside the field. -/
theorem Sound.slotsOf_inside (h : registry.Sound) {position : TypeId} {layout : RecordLayout}
    (hlayout : registry.layout? position = some layout) {field : FieldLayout}
    (hfield : field ∈ layout.fields) {slot : PointerSlot} (hslot : slot ∈ registry.slotsOf field) :
    field.offset ≤ slot.offset ∧ slot.offset + Address.width ≤ field.offset + field.size := by
  obtain ⟨extent, hextent, hsize⟩ := (h position layout hlayout).2.extent field hfield
  rw [slotsOf_eq hextent] at hslot
  obtain ⟨inner, hinner, rfl⟩ := List.mem_map.1 hslot
  have hinside := (inOrder_of_extent? hextent fun target embedded _ hembedded =>
    h.inOrder hembedded).2 inner hinner
  simp only [PointerSlot.shift]
  omega

/-- **A pointer of a record that is not one of a field lies apart from that field.** -/
theorem Sound.slot_apart (h : registry.Sound) {position : TypeId} {layout : RecordLayout}
    (hlayout : registry.layout? position = some layout) {field : FieldLayout}
    (hfield : field ∈ layout.fields) {slot : PointerSlot} (hslot : slot ∈ layout.slots) :
    slot ∈ registry.slotsOf field ∨ slot.offset + Address.width ≤ field.offset ∨
      field.offset + field.size ≤ slot.offset := by
  have hsound := (h position layout hlayout).2
  rw [hsound.slots_eq] at hslot
  obtain ⟨other, hother, hslot⟩ := List.mem_flatMap.1 hslot
  by_cases heq : other = field
  · exact Or.inl (heq ▸ hslot)
  have hinside := h.slotsOf_inside hlayout hother hslot
  -- two different fields stand one before the other
  have hordered : other.offset + other.size ≤ field.offset ∨
      field.offset + field.size ≤ other.offset := by
    have heither : layout.fields.Pairwise fun a b =>
        a.offset + a.size ≤ b.offset ∨ b.offset + b.size ≤ a.offset :=
      hsound.ordered.imp Or.inl
    have hsymm : Std.Symm fun a b : FieldLayout =>
        a.offset + a.size ≤ b.offset ∨ b.offset + b.size ≤ a.offset := ⟨fun _ _ hab => hab.symm⟩
    exact heither.forall hother hfield heq
  omega

end Registry

end ScenePack
