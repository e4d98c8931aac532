/-
**The construction of a registry.**

A schema has a registry if the configuration and its names are sound and no type embeds itself.
Then every step succeeds: the target of every field has a position in the plan, and an embedded type
stands after its owner, so its layout is there when it is needed.  The registry lists the types of
the schema in the order of the plan, and a type is identified by its position.

Main definitions:

* `LayoutConfig.Aligned` — the alignments that may be asked for;
* `RecordLayout.declares`, `RecordLayout.planned` — the type and the entry of the plan that a layout
  was made for;
* `Registry.Lists` — a registry that lists the types of a schema in order.

Main results:

* `Registry.exists_layAll` — **the types of a plan can be laid out**;
* `Registry.exists_buildWith_iff` — **when a schema has a registry on unbounded numbers**;
* `Registry.lists_of_buildWith`, `Registry.lists_of_build` — **a registry lists the types
  of its schema in order**.
-/

import ScenePack.Proofs.Layout.Faithful
import ScenePack.Proofs.Schema.Order

set_option relaxedAutoImplicit false
set_option autoImplicit false

namespace ScenePack

/-- The alignments that may be asked for: the powers of two up to 64. -/
def LayoutConfig.Aligned (config : LayoutConfig) : Prop :=
  (∃ exponent, config.recordAlign = 2 ^ exponent) ∧ config.recordAlign ≤ 64

/-- The check of a configuration passes exactly on the proper alignments. -/
theorem LayoutConfig.validate_eq_ok_iff_aligned {config : LayoutConfig} :
    config.validate = .ok () ↔ config.Aligned := by
  rw [validate_eq_ok_iff]
  constructor
  · rintro ⟨exponent, hexponent, hrecord⟩
    refine ⟨⟨exponent, hrecord⟩, ?_⟩
    rw [hrecord]
    exact Nat.pow_le_pow_right (by decide) hexponent
  · rintro ⟨⟨exponent, hrecord⟩, hle⟩
    rw [hrecord] at hle
    exact ⟨exponent, (Nat.pow_le_pow_iff_right (by decide)).1 hle, hrecord⟩

namespace RecordLayout

/-- The type that a layout was made for. -/
def declares (layout : RecordLayout) : ComponentType :=
  ⟨layout.name, layout.fields.map FieldLayout.declared⟩

/-- The entry of the plan that a layout was made for. -/
def planned (layout : RecordLayout) : PlannedType := ⟨layout.name, layout.depth⟩

end RecordLayout

/-! ### Fields with their targets -/

namespace LayoutContext

variable {context : LayoutContext} {owner : String} {field : Field}

/-- The targets of a field in a layout have been found, and an embedded type has been laid out. -/
def Finds (context : LayoutContext) (kind : FieldKind Target) : Prop :=
  (∀ target, kind.target? = some target → context.id? target.name = some target.id) ∧
    ∀ target, kind = .component target → ∃ inner ∈ context.later, inner.id = target.id

/-- A field that is resolved has its targets. -/
theorem Resolves.finds {declared : FieldKind String} {kind : FieldKind Target} {extent : Extent}
    (h : context.Resolves declared kind extent) : context.Finds kind := by
  refine ⟨fun _ => h.target, ?_⟩
  cases h with
  | scalar => exact nofun
  | text => exact nofun
  | ref => exact nofun
  | @component _ layout _ hmem hid =>
      rintro _ ⟨⟩
      exact ⟨layout, hmem, hid⟩

/-- **A field is resolved** if its target has a position, and an embedded type has been laid out. -/
theorem exists_resolve
    (htarget : ∀ name, field.kind.target? = some name → ∃ id, context.id? name = some id)
    (hlater : ∀ name id, field.kind = .component name → context.id? name = some id →
      ∃ inner ∈ context.later, inner.id = id) :
    ∃ kind extent, context.resolve owner field = .ok (kind, extent) := by
  have hfound : ∀ {name id}, context.id? name = some id →
      context.target owner field.name name = .ok ⟨name, id⟩ := by
    intro name id hid
    rw [LayoutContext.target, hid]
  unfold resolve
  split
  · exact ⟨_, _, rfl⟩
  · exact ⟨_, _, rfl⟩
  · next name hkind =>
      obtain ⟨id, hid⟩ := htarget name (by rw [hkind]; rfl)
      rw [hfound hid]
      exact ⟨_, _, rfl⟩
  · next name hkind =>
      obtain ⟨id, hid⟩ := htarget name (by rw [hkind]; rfl)
      obtain ⟨inner, hinner, rfl⟩ := hlater name id hkind hid
      rw [hfound hid]
      cases hfind : context.later.find? fun layout => layout.id = inner.id with
      | some found =>
          refine ⟨.component ⟨name, inner.id⟩, .ofRecord found, bind_eq_ok_iff.2 ⟨_, rfl, ?_⟩⟩
          dsimp only
          rw [hfind]
      | none => simpa using List.find?_eq_none.1 hfind inner hinner

end LayoutContext

/-! ### The layout of a type -/

namespace RecordLayout

variable {config : LayoutConfig} {context : LayoutContext} {position : TypeId}
  {depth : Nat} {type : ComponentType}

/-- A layout was made for its type: it has the name and the fields of the type, and the targets of
its fields have been found. -/
theorem declares_of_ofType {layout : RecordLayout}
    (h : ofType .ok config context position depth type = .ok layout) :
    layout.id = position ∧ layout.depth = depth ∧ layout.declares = type ∧
      ∀ field ∈ layout.fields, context.Finds field.kind := by
  obtain ⟨parts, hparts, hlayout⟩ := ofType_eq_ok_iff.1 h
  obtain ⟨fields, hfields, hplaced⟩ :=
    @Placement.exists_fields_putAll (.start config.recordAlign) parts
  have hall : layout.fields = fields := by
    rw [← hlayout]
    exact hfields
  have hpart : ∀ field part, context.part type.name field = .ok part →
      field = ⟨part.name, part.kind.map Target.name⟩ ∧ context.Finds part.kind := by
    intro field part hfield
    obtain ⟨hname, hresolves⟩ := context.resolves_of_part hfield
    refine ⟨?_, hresolves.finds⟩
    rw [hname, hresolves.map_name]
  have hsteps := mapM_eq_ok_iff.1 hparts
  have hname : layout.name = type.name := by rw [← hlayout]; rfl
  refine ⟨by rw [← hlayout]; rfl, by rw [← hlayout]; rfl, ?_, ?_⟩
  · have hdeclared : fields.map FieldLayout.declared = type.fields := by
      rw [forall₂_eq_map_iff.1 ((List.Forall₂.flip hsteps).imp
        fun part field hfield => (hpart field part hfield).1)]
      rw [← forall₂_eq_map_iff, List.forall₂_map_right_iff]
      refine hplaced.imp ?_
      rintro part field ⟨offset, -, rfl⟩
      rfl
    rw [declares, hname, hall, hdeclared]
  · intro field hfield
    obtain ⟨part, hmem, offset, -, rfl⟩ := exists_mem_of_forall₂ hplaced (hall ▸ hfield)
    obtain ⟨source, -, hsource⟩ := exists_mem_of_forall₂ hsteps hmem
    exact (hpart source part hsource).2

end RecordLayout

namespace Registry

variable {config : LayoutConfig} {schema : Schema}

/-! ### Laying out a plan -/

theorem type?_of_mem (hnodup : schema.names.Nodup) {type : ComponentType} (h : type ∈ schema) :
    schema.type? type.name = some type := by
  cases hfind : schema.type? type.name with
  | none => simpa using List.find?_eq_none.1 hfind type h
  | some found =>
      have hname : found.name = type.name := by simpa using List.find?_some hfind
      rw [List.inj_on_of_nodup_map hnodup (List.mem_of_find?_eq_some hfind) h hname]

/-- **The fields of a planned type are resolved**, if the types behind it in the plan have been laid
out: every target has a position in the plan, and an embedded type stands behind its owner. -/
theorem exists_part (hnamed : schema.WellNamed) {plan : Plan} (hplan : schema.plan = .ok plan)
    {position : TypeId} {entry : PlannedType} (hentry : plan[position]? = some entry)
    {type : ComponentType} (htype : schema.type? entry.name = some type)
    {later : List RecordLayout}
    (hlater : ∀ id, position < id → id < plan.length → ∃ layout ∈ later, layout.id = id)
    {field : Field} (hfield : field ∈ type.fields) :
    ∃ part, (LayoutContext.mk plan.position? later).part type.name field = .ok part := by
  have htarget : ∀ name, field.kind.target? = some name → ∃ id, plan.position? name = some id :=
    fun name htarget => Schema.exists_position hplan
      (hnamed.targets type (List.mem_of_find?_eq_some htype) field hfield name htarget)
  have hstands : ∀ name id, field.kind = .component name → plan.position? name = some id →
      ∃ layout ∈ later, layout.id = id := by
    intro name id hkind hid
    obtain ⟨inner, hinner, rfl⟩ := (Schema.position?_eq_some_iff hplan).1 hid
    have hembedded : inner.name ∈ schema.embeddedIn entry.name := by
      rw [Schema.embeddedIn_eq hnamed.types htype]
      exact Schema.mem_embedded_iff.2 ⟨field, hfield, hkind⟩
    exact hlater id (Schema.position_lt hplan hentry hinner hembedded)
      (List.getElem?_eq_some_iff.1 hinner).1
  obtain ⟨kind, extent, hresolve⟩ :=
    @LayoutContext.exists_resolve ⟨plan.position?, later⟩ type.name field htarget hstands
  exact ⟨_, bind_eq_ok_iff.2 ⟨_, hresolve, rfl⟩⟩

/-- **The types of a plan can be laid out.** -/
theorem exists_layAll (config : LayoutConfig) (hnamed : schema.WellNamed)
    {plan : Plan} (hplan : schema.plan = .ok plan) :
    ∃ types, layAll .ok config schema plan.position? 0 plan = .ok types := by
  -- the plan is laid out from its end
  suffices hall : ∀ (rest : Plan) (start : Nat), plan.drop start = rest →
      ∃ types, layAll .ok config schema plan.position? start rest = .ok types from
    hall plan 0 List.drop_zero
  intro rest
  induction rest with
  | nil => exact fun _ _ => ⟨[], rfl⟩
  | cons entry rest ih =>
      intro start hrest
      have hentry : plan[start]? = some entry := by
        rw [← List.head?_drop, hrest, List.head?_cons]
      have htail : plan.drop (start + 1) = rest := by
        rw [← List.drop_drop, hrest, List.drop_one, List.tail_cons]
      obtain ⟨later, hlater⟩ := ih (start + 1) htail
      have hbehind : ∀ id, start < id → id < plan.length → ∃ layout ∈ later, layout.id = id := by
        intro id hstart hbound
        have hmem : id ∈ later.map RecordLayout.id := by
          rw [map_id_of_layAll hlater, ← htail, List.mem_range'_1, List.length_drop]
          omega
        exact List.mem_map.1 hmem
      obtain ⟨hdefined, -⟩ := (Schema.mem_plan_iff_longest hplan).1 (List.mem_of_getElem? hentry)
      obtain ⟨type, htype, hname⟩ := List.mem_map.1 hdefined
      have hfirst : schema.type? entry.name = some type :=
        hname ▸ type?_of_mem hnamed.types htype
      obtain ⟨parts, hparts⟩ := exists_mapM_eq_ok fun field (hfield : field ∈ type.fields) =>
        exists_part hnamed hplan hentry hfirst hbehind hfield
      exact ⟨_, layAll_cons_eq_ok_iff.2 ⟨later, type, _, hlater, hfirst,
        RecordLayout.ofType_eq_ok_iff.2 ⟨parts, hparts, rfl⟩, rfl⟩⟩

theorem map_planned_of_layAll {id? : String → Option TypeId} {start : TypeId} {plan : Plan}
    {layouts : List RecordLayout} (h : layAll .ok config schema id? start plan = .ok layouts) :
    layouts.map RecordLayout.planned = plan := by
  induction plan generalizing start layouts with
  | nil =>
      cases h
      rfl
  | cons entry rest ih =>
      obtain ⟨later, type, layout, hlater, htype, hlayout, rfl⟩ := layAll_cons_eq_ok_iff.1 h
      obtain ⟨-, hdepth, hdeclares, -⟩ := RecordLayout.declares_of_ofType hlayout
      have hname : type.name = entry.name := by simpa using List.find?_some htype
      have hlayoutname : layout.name = entry.name :=
        (congrArg ComponentType.name hdeclares).trans hname
      rw [List.map_cons, ih hlater, RecordLayout.planned, hlayoutname, hdepth]

/-- **What is known of a layout when it is made**: the type it was made for, the targets of its
fields, and that the types it embeds come later. -/
theorem known_of_layAll {id? : String → Option TypeId} {start : TypeId} {plan : Plan}
    {layouts : List RecordLayout} (h : layAll .ok config schema id? start plan = .ok layouts) :
    ∀ layout ∈ layouts, schema.type? layout.name = some layout.declares ∧
      ∀ field ∈ layout.fields,
        (∀ target, field.kind.target? = some target → id? target.name = some target.id) ∧
        ∀ target, field.kind = .component target → layout.id < target.id := by
  have hincreasing : layouts.Pairwise fun a b => a.id < b.id := by
    rw [← List.pairwise_map, map_id_of_layAll h]
    exact List.pairwise_lt_range'
  refine forall_of_layAll ?_ h
  intro layout later type depth hsuffix _ htype hlayout
  obtain ⟨-, -, hdeclares, hfinds⟩ := RecordLayout.declares_of_ofType hlayout
  refine ⟨?_, fun field hfield => ⟨(hfinds field hfield).1, ?_⟩⟩
  · rw [← hdeclares] at htype
    exact htype
  · intro target hkind
    obtain ⟨inner, hinner, hid⟩ := (hfinds field hfield).2 target hkind
    have hpairs := hincreasing.sublist hsuffix.sublist
    exact hid ▸ (List.pairwise_cons.1 hpairs).1 inner hinner

/-- **The layouts of a plan are those of the types of the schema**, once each. -/
theorem perm_declares_of_layAll (hnodup : schema.names.Nodup) {id? : String → Option TypeId}
    {start : TypeId} {plan : Plan} (hplan : schema.plan = .ok plan) {layouts : List RecordLayout}
    (h : layAll .ok config schema id? start plan = .ok layouts) :
    (layouts.map RecordLayout.declares).Perm schema := by
  have hnames : layouts.map RecordLayout.name = plan.names := by
    rw [← map_planned_of_layAll h, Plan.names, List.map_map]
    rfl
  have hmapnames : (layouts.map RecordLayout.declares).map ComponentType.name = plan.names := by
    rw [List.map_map, ← hnames]
    rfl
  have hdistinct : (layouts.map RecordLayout.declares).Nodup :=
    List.Nodup.of_map ComponentType.name (hmapnames ▸ Schema.nodup_plan_names hplan)
  have hfirst : ∀ layout ∈ layouts, schema.type? layout.name = some layout.declares :=
    fun layout hlayout => (known_of_layAll h layout hlayout).1
  refine (List.perm_ext_iff_of_nodup hdistinct (List.Nodup.of_map _ hnodup)).2 fun type => ?_
  constructor
  · intro hmem
    obtain ⟨layout, hlayout, rfl⟩ := List.mem_map.1 hmem
    exact List.mem_of_find?_eq_some (hfirst layout hlayout)
  · intro hmem
    have hname : type.name ∈ layouts.map RecordLayout.name := by
      rw [hnames, (Schema.perm_plan_names hplan hnodup).mem_iff]
      exact List.mem_map_of_mem hmem
    obtain ⟨layout, hlayout, hsame⟩ := List.mem_map.1 hname
    have hdeclares := hfirst layout hlayout
    rw [hsame, type?_of_mem hnodup hmem, Option.some_inj] at hdeclares
    exact hdeclares ▸ List.mem_map_of_mem hlayout

/-- **When a schema has a registry on unbounded numbers**: the checks pass and there is a plan. -/
theorem exists_buildWith_iff :
    (∃ registry, buildWith .ok schema config = .ok registry) ↔
      config.validate = .ok () ∧ schema.validate = .ok () ∧ ∃ plan, schema.plan = .ok plan := by
  constructor
  · rintro ⟨registry, h⟩
    obtain ⟨hconfig, hvalid, plan, _, hplan, -⟩ := buildWith_eq_ok_iff.1 h
    exact ⟨hconfig, hvalid, plan, hplan⟩
  · rintro ⟨hconfig, hvalid, plan, hplan⟩
    obtain ⟨types, htypes⟩ := exists_layAll config (Schema.validate_eq_ok_iff.1 hvalid) hplan
    exact ⟨_, buildWith_eq_ok_iff.2 ⟨hconfig, hvalid, plan, types, hplan, htypes, rfl⟩⟩

/-! ### Registries in order -/

/-- A registry that lists the types of a schema in order, each identified by its position. -/
structure Lists (registry : Registry) (schema : Schema) : Prop where
  /-- The layouts are those of the types of the schema, once each. -/
  perm : (registry.types.map RecordLayout.declares).Perm schema
  /-- The depth of a type is the length of its longest embedding path. -/
  depth : ∀ layout ∈ registry.types, schema.Longest layout.name layout.depth
  /-- Deeper types come first, equally deep ones by name. -/
  ordered : registry.types.Pairwise fun a b =>
    b.depth < a.depth ∨ a.depth = b.depth ∧ a.name < b.name
  id_eq : ∀ position layout, registry.layout? position = some layout → layout.id = position
  lookup_iff : ∀ name position, registry.lookup? name = some position ↔
    ∃ layout, registry.layout? position = some layout ∧ layout.name = name
  /-- The target of a field is the type of its name. -/
  target : ∀ layout ∈ registry.types, ∀ field ∈ layout.fields, ∀ target,
    field.kind.target? = some target → registry.lookup? target.name = some target.id
  /-- An embedded type comes after its owner. -/
  later : ∀ layout ∈ registry.types, ∀ field ∈ layout.fields, ∀ target,
    field.kind = .component target → layout.id < target.id

/-- **A registry lists the types of its schema in order.** -/
theorem lists_of_buildWith {registry : Registry}
    (h : buildWith .ok schema config = .ok registry) : registry.Lists schema := by
  obtain ⟨-, hvalid, plan, types, hplan, htypes, rfl⟩ := buildWith_eq_ok_iff.1 h
  have hplanned := map_planned_of_layAll htypes
  have hknown := known_of_layAll htypes
  have hlookup : (Registry.mk config types).lookup? = plan.position? := by
    funext name
    rw [Registry.lookup?, Plan.position?, ← hplanned, List.findIdx?_map]
    rfl
  constructor
  · exact perm_declares_of_layAll (Schema.nodup_names_of_validate hvalid) hplan htypes
  · intro layout hlayout
    have hentry : layout.planned ∈ plan := hplanned ▸ List.mem_map_of_mem hlayout
    exact ((Schema.mem_plan_iff_longest hplan).1 hentry).2
  · have hprecedes := Schema.pairwise_plan hplan
    rw [← hplanned, List.pairwise_map] at hprecedes
    exact hprecedes
  · exact fun position layout hlayout => id_eq_of_layAll htypes hlayout
  · intro name position
    rw [hlookup, Schema.position?_eq_some_iff hplan, ← hplanned, List.getElem?_map]
    constructor
    · rintro ⟨entry, hentry, rfl⟩
      obtain ⟨layout, hlayout, rfl⟩ := Option.map_eq_some_iff.1 hentry
      exact ⟨layout, hlayout, rfl⟩
    · rintro ⟨layout, hlayout, rfl⟩
      exact ⟨layout.planned, Option.map_eq_some_iff.2 ⟨layout, hlayout, rfl⟩, rfl⟩
  · intro layout hlayout field hfield target htarget
    rw [hlookup]
    exact ((hknown layout hlayout).2 field hfield).1 target htarget
  · intro layout hlayout field hfield
    exact ((hknown layout hlayout).2 field hfield).2

theorem lists_of_build {registry : Registry} (h : build schema config = .ok registry) :
    registry.Lists schema :=
  lists_of_buildWith (unbounded_of_build h)

/-- The layout of a name is the one of the registry that has the name. -/
theorem Lists.named?_eq_some_iff {registry : Registry} (h : registry.Lists schema) {name : String}
    {layout : RecordLayout} :
    registry.named? name = some layout ↔ layout ∈ registry.types ∧ layout.name = name := by
  rw [named?, Option.bind_eq_some_iff]
  constructor
  · rintro ⟨position, hposition, hlayout⟩
    obtain ⟨other, hother, rfl⟩ := (h.lookup_iff _ _).1 hposition
    obtain rfl := Option.some.inj (hother.symm.trans hlayout)
    exact ⟨List.mem_of_getElem? hlayout, rfl⟩
  · rintro ⟨hlayout, rfl⟩
    obtain ⟨position, hposition⟩ := List.mem_iff_getElem?.1 hlayout
    exact ⟨position, (h.lookup_iff _ _).2 ⟨layout, hposition, rfl⟩, hposition⟩

theorem Lists.nodup_fields {registry : Registry} (h : registry.Lists schema)
    (hnamed : schema.WellNamed) {layout : RecordLayout} (hlayout : layout ∈ registry.types) :
    (layout.fields.map FieldLayout.name).Nodup := by
  have hnodup := hnamed.fields layout.declares (h.perm.subset (List.mem_map_of_mem hlayout))
  rwa [RecordLayout.declares, List.map_map] at hnodup

end Registry

end ScenePack
