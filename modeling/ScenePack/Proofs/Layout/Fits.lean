/-
**Layouts that fit the address space.**

A schema that has a registry on unbounded numbers has one in the address space if all sums of its
layouts are addresses, and otherwise the program stops.  The sums of a layout are bounded by the
last of them: records are regular, so a field ends behind every sum that its placing takes, and the
rounding of the record starts from the end of the last field.

Main definitions:

* `RecordLayout.Fits`, `Registry.Fits`, `Schema.SumsFit` — layouts whose sums are all addresses;
* `Extent.Regular` — an extent that has an alignment, takes at least as much, and holds its
  pointers;
* `Sample.tower` — types that each embed the next one eight times.

Main results:

* `Placement.place_sum` — **a field is placed exactly if it ends at an address**, and otherwise the
  program stops;
* `Registry.build_of_buildWith` — **which registries are built in the address space**;
* `Registry.build_unwrapped` — **no layout wraps around**, and a record that has more bytes than
  there are addresses stops the program;
* `Registry.build_outcome` — **when a schema has a registry**, and how it fails to have one.
-/

import ScenePack.Proofs.Layout.Construction

set_option relaxedAutoImplicit false
set_option autoImplicit false

namespace ScenePack

/-- A layout whose sums are all addresses: no field ends so late that rounding its end to the
alignment of the record leaves the address space. -/
def RecordLayout.Fits (layout : RecordLayout) : Prop :=
  ∀ field ∈ layout.fields, field.offset + field.size + layout.align < Address.space

instance (layout : RecordLayout) : Decidable layout.Fits :=
  inferInstanceAs (Decidable (∀ field ∈ layout.fields, _))

/-- A registry all of whose layouts fit. -/
def Registry.Fits (registry : Registry) : Prop := ∀ layout ∈ registry.types, layout.Fits

instance (registry : Registry) : Decidable registry.Fits :=
  inferInstanceAs (Decidable (∀ layout ∈ registry.types, _))

/-- The layouts of a schema on unbounded numbers fit. -/
def Schema.SumsFit (schema : Schema) (config : LayoutConfig) : Prop :=
  ∀ exact, Registry.buildWith .ok schema config = .ok exact → exact.Fits

/-! ### Regular extents -/

/-- An extent with a proper alignment, which is at least as large, and whose pointers lie in it. -/
structure Extent.Regular (extent : Extent) : Prop where
  align : IsAlignment extent.align
  align_le : extent.align ≤ extent.size
  slots : ∀ slot ∈ extent.slots, slot.offset ≤ extent.size

theorem Extent.Regular.ofScalar (type : ScalarType) : (Extent.ofScalar type).Regular where
  align := .ofScalar type
  align_le := by cases type <;> decide
  slots := fun _ hslot => absurd hslot List.not_mem_nil

theorem Extent.Regular.pointer (kind : SlotKind) : (Extent.pointer kind).Regular where
  align := .width
  align_le := Nat.le_refl _
  slots := by simp [Extent.pointer]

/-- What a field needs is regular if the layouts of the later types are. -/
theorem LayoutContext.Resolves.regular {context : LayoutContext} {declared : FieldKind String}
    {kind : FieldKind Target} {extent : Extent} (h : context.Resolves declared kind extent)
    (hlater : ∀ layout ∈ context.later, (Extent.ofRecord layout).Regular) : extent.Regular := by
  cases h with
  | scalar type => exact .ofScalar type
  | text => exact .pointer _
  | ref => exact .pointer _
  | @component _ layout _ hmem => exact hlater layout hmem

theorem LayoutContext.regular_of_parts {context : LayoutContext} {owner : String}
    {fields : List Field} {parts : List Part}
    (hlater : ∀ layout ∈ context.later, (Extent.ofRecord layout).Regular)
    (h : fields.mapM (context.part owner) = .ok parts) : ∀ part ∈ parts, part.extent.Regular := by
  intro part hpart
  obtain ⟨field, -, hfield⟩ := exists_mem_of_forall₂ (mapM_eq_ok_iff.1 h) hpart
  exact (resolves_of_part hfield).2.regular hlater

/-- **The layouts on unbounded numbers are regular.** -/
theorem Registry.regular_of_buildWith {schema : Schema} {config : LayoutConfig}
    {registry : Registry} (h : buildWith .ok schema config = .ok registry) :
    ∀ layout ∈ registry.types, (Extent.ofRecord layout).Regular := by
  intro layout hlayout
  obtain ⟨position, hposition⟩ := List.mem_iff_getElem?.1 hlayout
  have hsound := sound_of_buildWith h
  obtain ⟨-, hself⟩ := hsound position layout hposition
  obtain ⟨type, -, hdeclared⟩ := declared_of_buildWith h layout hlayout
  refine ⟨hdeclared.align, Nat.le_of_dvd hself.size_pos hdeclared.align_dvd_size, ?_⟩
  intro slot hslot
  exact Nat.le_trans (Nat.le_add_right _ _) ((hsound.inOrder hposition).2 slot hslot)

/-! ### Placing -/

theorem Address.sum_ne_reported {ε : Type} {total : Nat} {error : ε} :
    (Address.sum total : Except (Failure ε) Nat) ≠ .error (.reported error) := by
  unfold Address.sum
  split <;> simp

theorem alignUpBy_sum_of_lt {ε : Type} {align position : Nat}
    (h : position + align < Address.space) :
    alignUpBy (@Address.sum ε) align position = .ok (alignUp align position) := by
  rw [alignUpBy, Address.sum_of_lt h]
  exact congrArg Except.ok (alignUp_eq align position)

theorem alignUpBy_sum_of_le {ε : Type} {align position : Nat}
    (h : Address.space ≤ position + align) :
    alignUpBy (@Address.sum ε) align position = .error .stopped := by
  rw [alignUpBy, Address.sum_of_le h]
  rfl

namespace Placement

variable {placement : Placement} {name : String} {kind : FieldKind Target} {extent : Extent}

theorem le_endsAt_put (h : extent.Regular) :
    placement.endsAt + extent.align ≤ (placement.put name kind extent).endsAt := by
  have := le_alignUp h.align.pos placement.endsAt
  have := h.align_le
  simp only [put]
  omega

theorem place_ne_reported {error : SchemaError} :
    placement.place Address.sum name kind extent ≠ .error (.reported error) := by
  intro h
  rcases bind_eq_error_iff.1 h with halign | ⟨offset, -, h⟩
  · rcases bind_eq_error_iff.1 halign with hsum | ⟨_, -, hok⟩
    · exact Address.sum_ne_reported hsum
    · cases hok
  rcases bind_eq_error_iff.1 h with hslots | ⟨slots, -, h⟩
  · obtain ⟨slot, -, hslot⟩ := exists_of_mapM_eq_error hslots
    rcases bind_eq_error_iff.1 hslot with hsum | ⟨_, -, hok⟩
    · exact Address.sum_ne_reported hsum
    · cases hok
  rcases bind_eq_error_iff.1 h with hsum | ⟨_, -, hok⟩
  · exact Address.sum_ne_reported hsum
  · cases hok

/-- **A field is placed exactly if it ends at an address**, and otherwise the program stops. -/
theorem place_sum (h : extent.Regular) :
    placement.place Address.sum name kind extent =
      if (placement.put name kind extent).endsAt < Address.space then
        .ok (placement.put name kind extent)
      else .error .stopped := by
  split
  · next hfits =>
      have hend := @le_endsAt_put placement name kind extent h
      simp only [put] at hfits hend
      have hslots : (extent.slots.mapM fun slot => (do
          let position ← Address.sum (alignUp extent.align placement.endsAt + slot.offset)
          .ok (PointerSlot.mk position slot.kind) : Except (Failure SchemaError) PointerSlot)) =
          .ok (extent.slots.map (PointerSlot.shift (alignUp extent.align placement.endsAt))) := by
        refine mapM_eq_ok_iff.2 (forall₂_imp_of_mem ?_ (forall₂_eq_map_iff.2 rfl))
        rintro slot hslot _ rfl
        have := h.slots slot hslot
        exact bind_eq_ok_iff.2 ⟨_, Address.sum_of_lt (by omega), rfl⟩
      rw [place, alignUpBy_sum_of_lt (by omega)]
      exact bind_eq_ok_iff.2 ⟨_, rfl, bind_eq_ok_iff.2 ⟨_, hslots,
        bind_eq_ok_iff.2 ⟨_, Address.sum_of_lt hfits, rfl⟩⟩⟩
  · next hlarge =>
      cases hplace : placement.place Address.sum name kind extent with
      | error failure =>
          cases failure with
          | stopped => rfl
          | reported error => exact absurd hplace place_ne_reported
      | ok next =>
          obtain rfl := put_of_place hplace
          obtain ⟨offset, -, hplace⟩ := bind_eq_ok_iff.1 hplace
          obtain ⟨slots, -, hplace⟩ := bind_eq_ok_iff.1 hplace
          obtain ⟨endsAt, hsum, hok⟩ := bind_eq_ok_iff.1 hplace
          obtain ⟨hlt, rfl⟩ := Address.sum_eq_ok_iff.1 hsum
          rw [← Except.ok.inj hok] at hlarge
          exact absurd hlt hlarge

theorem le_endsAt_putAll {parts : List Part} (h : ∀ part ∈ parts, part.extent.Regular) :
    placement.endsAt ≤ (placement.putAll parts).endsAt := by
  induction parts generalizing placement with
  | nil => exact Nat.le_refl _
  | cons part rest ih =>
      obtain ⟨hpart, hrest⟩ := List.forall_mem_cons.1 h
      have hfirst := @le_endsAt_put placement part.name part.kind part.extent hpart
      exact Nat.le_trans (Nat.le_trans (Nat.le_add_right _ _) hfirst) (ih hrest)

/-- A placement that ends where its last field does. -/
structure Ends (placement : Placement) : Prop where
  inside : ∀ field ∈ placement.fields, field.offset + field.size ≤ placement.endsAt
  reached : placement.endsAt = 0 ∨
    ∃ field ∈ placement.fields, field.offset + field.size = placement.endsAt

theorem Ends.start (align : Nat) : (start align).Ends :=
  ⟨fun _ hfield => absurd hfield List.not_mem_nil, .inl rfl⟩

theorem Ends.put (h : placement.Ends) (hextent : extent.Regular) :
    (placement.put name kind extent).Ends := by
  have hend := @le_endsAt_put placement name kind extent hextent
  refine ⟨fun field hfield => ?_,
    .inr ⟨_, List.mem_append_right _ (List.mem_singleton_self _), rfl⟩⟩
  rcases List.mem_append.1 hfield with hfield | hfield
  · have := h.inside field hfield
    omega
  · obtain rfl := List.mem_singleton.1 hfield
    exact Nat.le_refl _

theorem Ends.putAll (h : placement.Ends) {parts : List Part}
    (hparts : ∀ part ∈ parts, part.extent.Regular) : (placement.putAll parts).Ends := by
  induction parts generalizing placement with
  | nil => exact h
  | cons part rest ih =>
      obtain ⟨hpart, hrest⟩ := List.forall_mem_cons.1 hparts
      exact ih (h.put hpart) hrest

/-- The last field decides whether every field ends below a bound. -/
theorem Ends.forall_lt_iff (h : placement.Ends) {room bound : Nat} (hroom : 1 + room < bound) :
    (∀ field ∈ placement.fields, field.offset + field.size + room < bound) ↔
      max placement.endsAt 1 + room < bound := by
  constructor
  · intro hall
    rcases h.reached with hzero | ⟨field, hfield, hend⟩
    · rwa [hzero]
    · have := hall field hfield
      omega
  · intro hlast field hfield
    have := h.inside field hfield
    omega

/-- **Fields are placed exactly if the last of them ends at an address**, and otherwise the program
stops. -/
theorem foldlM_place_sum {context : LayoutContext} {owner : String} {fields : List Field}
    {parts : List Part} (hparts : fields.mapM (context.part owner) = .ok parts)
    (hregular : ∀ part ∈ parts, part.extent.Regular) (hstart : placement.endsAt < Address.space) :
    fields.foldlM (fun placement field => do
        let (kind, extent) ← Failure.lift (context.resolve owner field)
        placement.place Address.sum field.name kind extent) placement =
      if (placement.putAll parts).endsAt < Address.space then .ok (placement.putAll parts)
      else .error .stopped := by
  have hsteps := mapM_eq_ok_iff.1 hparts
  clear hparts
  induction hsteps generalizing placement with
  | nil => rw [putAll_nil, if_pos hstart]; rfl
  | @cons field part _ rest hpart _ ih =>
      obtain ⟨hfirst, hrest⟩ := List.forall_mem_cons.1 hregular
      obtain ⟨⟨kind, extent⟩, hresolve, hok⟩ := bind_eq_ok_iff.1 hpart
      cases hok
      have hstep : (do
          let (kind, extent) ← Failure.lift (context.resolve owner field)
          placement.place Address.sum field.name kind extent :
            Except (Failure SchemaError) Placement) =
          placement.place Address.sum field.name kind extent := by
        rw [hresolve]
        rfl
      have hgrows := @le_endsAt_putAll (placement.put field.name kind extent) rest hrest
      rw [List.foldlM_cons, hstep, place_sum hfirst, putAll_cons]
      dsimp only
      by_cases hfits : (placement.put field.name kind extent).endsAt < Address.space
      · rw [if_pos hfits]
        exact ih hrest hfits
      · rw [if_neg hfits, if_neg (by omega)]
        rfl

end Placement

/-! ### Layouts -/

namespace RecordLayout

variable {config : LayoutConfig} {context : LayoutContext} {id : TypeId} {depth : Nat}
  {type : ComponentType} {parts : List Part}

/-- The layout of parts fits if the sum that rounds its end is an address. -/
theorem fits_ofParts_iff (hconfig : config.validate = .ok ())
    (hregular : ∀ part ∈ parts, part.extent.Regular) {name : String} :
    (ofParts config id depth name parts).Fits ↔
      max ((Placement.start config.recordAlign).putAll parts).endsAt 1 +
        ((Placement.start config.recordAlign).putAll parts).align < Address.space := by
  have halign : IsAlignment ((Placement.start config.recordAlign).putAll parts).align :=
    Placement.isAlignment_putAll (fun part hpart => (hregular part hpart).align)
      (config.validate_eq_ok_iff.1 hconfig)
  have hroom : 1 + LayoutConfig.greatestAlign < Address.space := by decide
  exact ((Placement.Ends.start _).putAll hregular).forall_lt_iff
    (Nat.lt_of_le_of_lt (Nat.add_le_add_left halign.le_greatest 1) hroom)

/-- **A type whose layout fits is laid out exactly**, and otherwise the program stops. -/
theorem ofType_sum (id : TypeId) (depth : Nat) (hconfig : config.validate = .ok ())
    (hparts : type.fields.mapM (context.part type.name) = .ok parts)
    (hregular : ∀ part ∈ parts, part.extent.Regular) :
    ofType Address.sum config context id depth type =
      if (ofParts config id depth type.name parts).Fits then
        .ok (ofParts config id depth type.name parts)
      else .error .stopped := by
  have hplaced := @Placement.foldlM_place_sum (.start config.recordAlign) context type.name
    type.fields parts hparts hregular (by decide : 0 < Address.space)
  rw [ofType, hplaced]
  by_cases hfits : (ofParts config id depth type.name parts).Fits
  · have hlast := (fits_ofParts_iff hconfig hregular).1 hfits
    rw [if_pos hfits, if_pos (by omega)]
    exact bind_eq_ok_iff.2 ⟨_, rfl, bind_eq_ok_iff.2 ⟨_, alignUpBy_sum_of_lt hlast, rfl⟩⟩
  · rw [if_neg hfits]
    rw [fits_ofParts_iff hconfig hregular, Nat.not_lt] at hfits
    split
    · exact bind_eq_error_iff.2 (.inr ⟨_, rfl,
        bind_eq_error_iff.2 (.inl (alignUpBy_sum_of_le hfits))⟩)
    · rfl

end RecordLayout

/-! ### Registries -/

namespace Registry

variable {config : LayoutConfig} {schema : Schema} {id? : String → Option TypeId}

/-- **The types of a plan are laid out exactly if all of them fit**, and otherwise the program
stops. -/
theorem layAll_sum (hconfig : config.validate = .ok ()) {start : TypeId} {plan : Plan}
    {layouts : List RecordLayout} (h : layAll .ok config schema id? start plan = .ok layouts)
    (hregular : ∀ layout ∈ layouts, (Extent.ofRecord layout).Regular) :
    layAll Address.sum config schema id? start plan =
      if ∀ layout ∈ layouts, layout.Fits then .ok layouts else .error .stopped := by
  induction plan generalizing start layouts with
  | nil =>
      cases h
      rfl
  | cons entry rest ih =>
      obtain ⟨later, type, layout, hlater, htype, hlayout, rfl⟩ := layAll_cons_eq_ok_iff.1 h
      obtain ⟨hself, hrest⟩ := List.forall_mem_cons.1 hregular
      obtain ⟨parts, hparts, rfl⟩ := RecordLayout.ofType_eq_ok_iff.1 hlayout
      have hfirst := RecordLayout.ofType_sum start entry.depth hconfig hparts
        (LayoutContext.regular_of_parts hrest hparts)
      rw [layAll, ih hlater hrest, htype]
      by_cases hfits : ∀ layout ∈ later, layout.Fits
      · rw [if_pos hfits]
        change (RecordLayout.ofType Address.sum config ⟨id?, later⟩ start entry.depth type >>=
          fun layout => .ok (layout :: later)) = _
        rw [hfirst]
        by_cases hown : (RecordLayout.ofParts config start entry.depth type.name parts).Fits
        · rw [if_pos hown, if_pos (List.forall_mem_cons.2 ⟨hown, hfits⟩)]
          rfl
        · rw [if_neg hown, if_neg fun hall => hown (List.forall_mem_cons.1 hall).1]
          rfl
      · rw [if_neg hfits, if_neg fun hall => hfits (List.forall_mem_cons.1 hall).2]
        rfl

/-- **Which registries are built in the address space**: those on unbounded numbers that fit.  For
any other the program stops. -/
theorem build_of_buildWith {exact : Registry} (h : buildWith .ok schema config = .ok exact) :
    build schema config = if exact.Fits then .ok exact else .error .stopped := by
  have hregular := regular_of_buildWith h
  obtain ⟨hconfig, hschema, plan, types, hplan, htypes, rfl⟩ := buildWith_eq_ok_iff.1 h
  rw [build, buildWith, hconfig, hschema, hplan]
  change (layAll Address.sum config schema plan.position? 0 plan >>=
    fun types => .ok (Registry.mk config types)) = _
  rw [layAll_sum hconfig htypes hregular]
  by_cases hfits : ∀ layout ∈ types, layout.Fits
  · rw [if_pos hfits]
    exact (if_pos hfits).symm
  · rw [if_neg hfits]
    exact (if_neg hfits).symm

theorem fits_of_build {registry : Registry} (h : build schema config = .ok registry) :
    registry.Fits := by
  have hbuild := build_of_buildWith (unbounded_of_build h)
  by_contra hlarge
  rw [if_neg hlarge, h] at hbuild
  cases hbuild

theorem regular_of_extent? {registry : Registry}
    (hregular : ∀ layout ∈ registry.types, (Extent.ofRecord layout).Regular)
    {kind : FieldKind Target} {extent : Extent} (h : registry.extent? kind = some extent) :
    extent.Regular := by
  cases kind with
  | scalar type => exact Option.some.inj h ▸ .ofScalar type
  | text => exact Option.some.inj h ▸ .pointer _
  | ref target => exact Option.some.inj h ▸ .pointer _
  | component target =>
      obtain ⟨inner, hinner, rfl⟩ := Option.map_eq_some_iff.1 h
      exact hregular inner (List.mem_of_getElem? hinner)

theorem size_lt_of_fits {exact : Registry} (h : buildWith .ok schema config = .ok exact)
    {layout : RecordLayout} (hlayout : layout ∈ exact.types) (hfits : layout.Fits) :
    layout.size < Address.space := by
  obtain ⟨type, parts, -, hofParts, hparts, -⟩ := parts_of_buildWith h layout hlayout
  have hregular : ∀ part ∈ parts, part.extent.Regular :=
    fun part hpart => regular_of_extent? (regular_of_buildWith h) (hparts part hpart).1
  obtain ⟨hconfig, -, plan, types, -, -, rfl⟩ := buildWith_eq_ok_iff.1 h
  rw [← hofParts] at hfits ⊢
  have hlast := (RecordLayout.fits_ofParts_iff hconfig hregular).1 hfits
  have halign : IsAlignment ((Placement.start config.recordAlign).putAll parts).align :=
    Placement.isAlignment_putAll (fun part hpart => (hregular part hpart).align)
      (config.validate_eq_ok_iff.1 hconfig)
  exact Nat.lt_trans (alignUp_lt halign.pos _) hlast

theorem size_lt_of_build {registry : Registry} (h : build schema config = .ok registry) :
    ∀ layout ∈ registry.types, layout.size < Address.space :=
  fun layout hlayout =>
    size_lt_of_fits (unbounded_of_build h) hlayout (fits_of_build h layout hlayout)

/-- **A record with more bytes than there are addresses stops the program.** -/
theorem stops_of_size {exact : Registry} (h : buildWith .ok schema config = .ok exact)
    {layout : RecordLayout} (hlayout : layout ∈ exact.types)
    (hlarge : Address.space ≤ layout.size) : build schema config = .error .stopped := by
  rw [build_of_buildWith h, if_neg fun hfits => ?_]
  exact Nat.not_lt.2 hlarge (size_lt_of_fits h hlayout (hfits layout hlayout))

/-- A layout fits if rounding its size once more stays in the address space. -/
theorem fits_of_size {exact : Registry} (h : buildWith .ok schema config = .ok exact)
    {layout : RecordLayout} (hlayout : layout ∈ exact.types)
    (hsize : layout.size + layout.align < Address.space) : layout.Fits := by
  intro field hfield
  obtain ⟨position, hposition⟩ := List.mem_iff_getElem?.1 hlayout
  have := (sound_of_buildWith h position layout hposition).2.inside field hfield
  omega

/-- A schema without a registry on unbounded numbers fails in the address space as it does there. -/
theorem build_eq_of_unbuildable (h : ¬∃ exact, buildWith .ok schema config = .ok exact) :
    build schema config = buildWith .ok schema config := by
  rw [exists_buildWith_iff] at h
  rw [build, buildWith, buildWith]
  cases hconfig : config.validate with
  | error error => rfl
  | ok =>
      cases hvalid : schema.validate with
      | error error => rfl
      | ok =>
          cases hplan : schema.plan with
          | error cycle => rfl
          | ok plan => exact absurd ⟨hconfig, hvalid, plan, hplan⟩ h

/-- **No layout wraps around.**  A registry that is built has the offsets, sizes and pointers that
it has on unbounded numbers, and its sizes are addresses.  A schema with such a registry is built
exactly if all layouts fit, and otherwise the program stops: it does so if the exact size of a
record is not an address, and does not if all sizes leave room for rounding.  A schema without one
fails in the same way. -/
theorem build_unwrapped (schema : Schema) (config : LayoutConfig) :
    (∀ registry, build schema config = .ok registry →
      buildWith .ok schema config = .ok registry ∧
        ∀ layout ∈ registry.types, layout.size < Address.space) ∧
    (∀ exact, buildWith .ok schema config = .ok exact →
      build schema config = (if exact.Fits then .ok exact else .error .stopped) ∧
      ((∃ layout ∈ exact.types, Address.space ≤ layout.size) →
        build schema config = .error .stopped) ∧
      ((∀ layout ∈ exact.types, layout.size + layout.align < Address.space) →
        build schema config = .ok exact)) ∧
    ∀ failure, buildWith .ok schema config = .error failure →
      build schema config = .error failure := by
  refine ⟨fun registry h => ⟨unbounded_of_build h, size_lt_of_build h⟩, fun exact h => ?_,
    fun failure h => ?_⟩
  · refine ⟨build_of_buildWith h, ?_, fun hroom => ?_⟩
    · rintro ⟨layout, hlayout, hlarge⟩
      exact stops_of_size h hlayout hlarge
    · have hfits : exact.Fits := fun layout hlayout => fits_of_size h hlayout (hroom layout hlayout)
      rw [build_of_buildWith h, if_pos hfits]
  · rw [build_eq_of_unbuildable, h]
    rintro ⟨exact, hexact⟩
    cases h.symm.trans hexact

/-! ### The outcome of a construction -/

/-- **When a schema has a registry.**  It has one exactly if the alignment is proper, the names are
in order, no type embeds itself and all layout sums are addresses.  Otherwise the first of these
that fails decides: the alignment, a fault in the names or a circle of embeddings is reported, and
the program stops at a sum.  A registry that is built lists the types of the schema in order. -/
theorem build_outcome (schema : Schema) (config : LayoutConfig) :
    ((∃ registry, build schema config = .ok registry) ↔
      config.Aligned ∧ schema.WellNamed ∧ schema.Acyclic ∧ schema.SumsFit config) ∧
    (¬config.Aligned →
      build schema config = .error (.reported (.invalidAlignment config.recordAlign 64))) ∧
    (config.Aligned → ¬schema.WellNamed → ∃ error, schema.validate = .error error ∧
      error.Shows schema ∧ build schema config = .error (.reported error)) ∧
    (config.Aligned → schema.WellNamed → ¬schema.Acyclic → ∃ cycle,
      schema.plan = .error cycle ∧ cycle.Genuine schema ∧
      build schema config = .error (.reported (.cyclic cycle))) ∧
    (config.Aligned → schema.WellNamed → schema.Acyclic → ¬schema.SumsFit config →
      build schema config = .error .stopped) ∧
    ∀ registry, build schema config = .ok registry →
      registry.config = config ∧ registry.Lists schema := by
  rw [← config.validate_eq_ok_iff_aligned, ← Schema.validate_eq_ok_iff, ← Schema.exists_plan_iff]
  refine ⟨?_, ?_, ?_, ?_, ?_, ?_⟩
  · constructor
    · rintro ⟨registry, h⟩
      have hunbounded := unbounded_of_build h
      obtain ⟨hconfig, hvalid, hplan⟩ := exists_buildWith_iff.1 ⟨registry, hunbounded⟩
      refine ⟨hconfig, hvalid, hplan, fun exact hexact => ?_⟩
      rw [← Except.ok.inj (hunbounded.symm.trans hexact)]
      exact fits_of_build h
    · rintro ⟨hconfig, hvalid, hplan, hfits⟩
      obtain ⟨exact, hexact⟩ := exists_buildWith_iff.2 ⟨hconfig, hvalid, hplan⟩
      exact ⟨exact, by rw [build_of_buildWith hexact, if_pos (hfits exact hexact)]⟩
  · intro hconfig
    have herror : config.validate = .error (.invalidAlignment config.recordAlign 64) := by
      rw [LayoutConfig.validate] at hconfig ⊢
      split at hconfig
      · exact absurd rfl hconfig
      · next hmem => rw [if_neg hmem]; rfl
    rw [build, buildWith, herror]
    rfl
  · intro hconfig hinvalid
    cases hvalidate : schema.validate with
    | ok => exact absurd hvalidate hinvalid
    | error error =>
        refine ⟨error, rfl, Schema.shows_of_validate hvalidate, ?_⟩
        rw [build, buildWith, hconfig, hvalidate]
        rfl
  · intro hconfig hvalid hcyclic
    cases hplan : schema.plan with
    | ok plan => exact absurd ⟨plan, hplan⟩ hcyclic
    | error cycle =>
        refine ⟨cycle, rfl, Schema.genuine_of_plan hplan, ?_⟩
        rw [build, buildWith, hconfig, hvalid, hplan]
        rfl
  · intro hconfig hvalid hplan hlarge
    obtain ⟨exact, hexact⟩ := exists_buildWith_iff.2 ⟨hconfig, hvalid, hplan⟩
    rw [build_of_buildWith hexact, if_neg fun hfits => hlarge fun other hother => ?_]
    rwa [← Except.ok.inj (hexact.symm.trans hother)]
  · intro registry h
    have hunbounded := unbounded_of_build h
    refine ⟨?_, lists_of_buildWith hunbounded⟩
    obtain ⟨-, -, plan, types, -, -, rfl⟩ := buildWith_eq_ok_iff.1 hunbounded
    rfl

end Registry

/-! ### Sizes that outgrow the addresses -/

namespace Sample

/-- A type of the tower: it embeds the next type eight times, behind the last type of all. -/
def towerType (level : Nat) : ComponentType :=
  ⟨toString level, ⟨"x", .component "20"⟩ ::
    ["a", "b", "c", "d", "e", "f", "g", "h"].map fun name =>
      ⟨name, .component (toString (level + 1))⟩⟩

/-- Records of the last type take 112 bytes, so those of a type `k` levels above it take
`128 * 8 ^ k - 16`.  A record of the first type takes one byte more than one of the next. -/
def tower : Schema :=
  ⟨"0", [⟨"a", .component "1"⟩, ⟨"x", .scalar .u8⟩]⟩ :: (List.range' 1 19).map towerType ++
    [⟨"20", ["a", "b", "c", "d", "e", "f", "g", "h", "i", "j", "k", "l", "m", "n"].map fun name =>
      ⟨name, .scalar .u64⟩⟩]

set_option maxRecDepth 10000 in
/-- **A schema whose records are too large is not refused with an error**: the records of the first
type of the tower take as many bytes as there are addresses, and the program stops. -/
theorem tower_stops : ∃ exact outer,
    Registry.buildWith .ok tower ⟨16⟩ = .ok exact ∧ exact.layout? 0 = some outer ∧
    outer.size = Address.space ∧ Registry.build tower ⟨16⟩ = .error .stopped := by
  have hexact : (Registry.buildWith .ok tower ⟨16⟩ >>= fun registry =>
      .ok ((registry.layout? 0).map RecordLayout.size)) = .ok (some Address.space) := by cbv
  obtain ⟨exact, hexact, houter⟩ := bind_eq_ok_iff.1 hexact
  obtain ⟨outer, houter, hsize⟩ := Option.map_eq_some_iff.1 (Except.ok.inj houter)
  exact ⟨exact, outer, hexact, houter, hsize,
    Registry.stops_of_size hexact (List.mem_of_getElem? houter) (Nat.le_of_eq hsize.symm)⟩

end Sample

end ScenePack
