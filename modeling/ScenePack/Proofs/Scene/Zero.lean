/-
**Zero records.**

A new record is filled by a recursion that goes down into embedded types.  It ends because a type
embeds only types of less depth.  This holds of every registry of a schema, also if sums of
positions were reduced in it.

Main definitions:

* `Registry.Shallow` — fields embed known types of less depth than a level;
* `Registry.Grounded` — types stand at their positions, and embed known types of less depth;
* `Registry.Zeros` — the recursion that fills a record, by its calls.

Main results:

* `Registry.grounded_of_build` — **the registry of a schema is grounded**;
* `Registry.zeros_iff` — **the recursion ends for every type**, in its zero record;
* `Registry.Zeros.allStorable` — **zeros can be stored**, in any scene;
* `Registry.formed_zeroRecord` — **zero records are well formed**.
-/

import ScenePack.Proofs.Layout.Determined
import ScenePack.Proofs.Scene.Formed

set_option relaxedAutoImplicit false
set_option autoImplicit false

namespace ScenePack

/-! ### Grounded registries -/

namespace Registry

/-- Fields embed known types, of less depth than `nesting`. -/
def Shallow (registry : Registry) (nesting : Nat) (fields : List FieldLayout) : Prop :=
  ∀ field ∈ fields, ∀ {target}, field.kind = .component target →
    ∃ inner, registry.layout? target.id = some inner ∧ inner.depth < nesting

/-- Each type stands at the position that identifies it, and the types that it embeds are known and
less deep. -/
structure Grounded (registry : Registry) : Prop where
  id_eq : ∀ {position layout}, registry.layout? position = some layout → layout.id = position
  embedded : ∀ {layout}, layout ∈ registry.types → registry.Shallow layout.depth layout.fields

theorem mem_types_of_layout? {registry : Registry} {position : TypeId} {layout : RecordLayout}
    (h : registry.layout? position = some layout) : layout ∈ registry.types :=
  List.mem_of_getElem? h

/-- A type that is less deep than a level embeds types that are less deep than the level below. -/
theorem Grounded.shallow_of_lt {registry : Registry} (h : registry.Grounded) {position : TypeId}
    {layout : RecordLayout} (hlayout : registry.layout? position = some layout) {nesting : Nat}
    (hlt : layout.depth < nesting + 1) : registry.Shallow nesting layout.fields := by
  intro field hfield target hkind
  obtain ⟨inner, hinner, hdepth⟩ := h.embedded (mem_types_of_layout? hlayout) field hfield hkind
  exact ⟨inner, hinner, by omega⟩

theorem exists_layout?_of_named? {registry : Registry} {name : String} {layout : RecordLayout}
    (h : registry.named? name = some layout) :
    ∃ position, registry.layout? position = some layout := by
  obtain ⟨position, -, hlayout⟩ := Option.bind_eq_some_iff.1 h
  exact ⟨position, hlayout⟩

/-- **The registry of a schema is grounded.** -/
theorem grounded_of_build {schema : Schema} {config : LayoutConfig} {registry : Registry}
    (h : build schema config = .ok registry) : registry.Grounded := by
  have hlists := lists_of_build h
  obtain ⟨-, hvalid, -⟩ := buildWith_eq_ok_iff.1 h
  refine ⟨fun hlayout => hlists.id_eq _ _ hlayout, ?_⟩
  intro layout hlayout field hfield target hkind
  have hlookup := hlists.target layout hlayout field hfield target (by rw [hkind]; rfl)
  obtain ⟨inner, hinner, hname⟩ := (hlists.lookup_iff _ _).1 hlookup
  refine ⟨inner, hinner, ?_⟩
  -- the field is a component field of the type that the layout was made for
  have hembeds : schema.Embeds layout.name inner.name := by
    refine (Schema.embeds_iff_of_nodup (Schema.nodup_names_of_validate hvalid)).2
      ⟨layout.declares, hlists.perm.subset (List.mem_map_of_mem hlayout), rfl,
        field.declared, List.mem_map_of_mem hfield, ?_⟩
    rw [FieldLayout.declared, hkind, hname]
    rfl
  exact (hlists.depth layout hlayout).lt (hlists.depth inner (mem_types_of_layout? hinner)) hembeds

theorem Sound.grounded {registry : Registry} (h : registry.Sound) : registry.Grounded := by
  refine ⟨fun hlayout => (h _ _ hlayout).1, ?_⟩
  intro layout hlayout field hfield target hkind
  obtain ⟨position, hposition⟩ := List.mem_iff_getElem?.1 hlayout
  have hsound := (h position layout hposition).2
  obtain ⟨inner, hinner, -⟩ := hsound.target field hfield target (by rw [hkind]; rfl)
  exact ⟨inner, hinner, hsound.depth_lt field hfield target inner hkind hinner⟩

/-! ### The recursion that fills a record -/

/-- The zeros that the recursion fills fields with, by its calls: each field gets the zero of its
kind, and an embedded record is filled by the same recursion.  Nothing bounds how deep it goes. -/
inductive Zeros (registry : Registry) : List FieldLayout → List Value → Prop where
  | nil : Zeros registry [] []
  | scalar {field : FieldLayout} {fields : List FieldLayout} {values : List Value}
      {type : ScalarType} (hkind : field.kind = .scalar type)
      (hrest : Zeros registry fields values) :
      Zeros registry (field :: fields) (.scalar (.zero type) :: values)
  | text {field : FieldLayout} {fields : List FieldLayout} {values : List Value}
      (hkind : field.kind = .text) (hrest : Zeros registry fields values) :
      Zeros registry (field :: fields) (.text none :: values)
  | ref {field : FieldLayout} {fields : List FieldLayout} {values : List Value} {target : Target}
      (hkind : field.kind = .ref target) (hrest : Zeros registry fields values) :
      Zeros registry (field :: fields) (.ref none :: values)
  | unknown {field : FieldLayout} {fields : List FieldLayout} {values : List Value}
      {target : Target} (hkind : field.kind = .component target)
      (hinner : registry.layout? target.id = none) (hrest : Zeros registry fields values) :
      Zeros registry (field :: fields) (.ref none :: values)
  | component {field : FieldLayout} {fields : List FieldLayout} {values embedded : List Value}
      {target : Target} {inner : RecordLayout} (hkind : field.kind = .component target)
      (hinner : registry.layout? target.id = some inner)
      (hembedded : Zeros registry inner.fields embedded) (hrest : Zeros registry fields values) :
      Zeros registry (field :: fields) (.component inner.id embedded :: values)

variable {registry : Registry}

/-- Fields whose embedded types are less deep than `nesting` get the zeros that `zeroValue` builds
down to that level. -/
theorem zeros_zeroValue (hgrounded : registry.Grounded) {nesting : Nat} {fields : List FieldLayout}
    (hshallow : registry.Shallow nesting fields) :
    registry.Zeros fields (fields.map fun field => registry.zeroValue nesting field.kind) := by
  induction nesting generalizing fields with
  | zero =>
      induction fields with
      | nil => exact .nil
      | cons field fields ih =>
          obtain ⟨hfield, hfields⟩ := List.forall_mem_cons.1 hshallow
          have hrest := ih hfields
          rw [List.map_cons]
          cases hkind : field.kind with
          | scalar type => exact .scalar hkind hrest
          | text => exact .text hkind hrest
          | ref target => exact .ref hkind hrest
          | component target =>
              obtain ⟨_, -, hlt⟩ := hfield hkind
              exact absurd hlt (Nat.not_lt_zero _)
  | succ nesting ihnesting =>
      induction fields with
      | nil => exact .nil
      | cons field fields ih =>
          obtain ⟨hfield, hfields⟩ := List.forall_mem_cons.1 hshallow
          have hrest := ih hfields
          rw [List.map_cons]
          cases hkind : field.kind with
          | scalar type => exact .scalar hkind hrest
          | text => exact .text hkind hrest
          | ref target => exact .ref hkind hrest
          | component target =>
              obtain ⟨inner, hinner, hlt⟩ := hfield hkind
              rw [zeroValue, hinner]
              exact .component hkind hinner (ihnesting (hgrounded.shallow_of_lt hinner hlt)) hrest

/-- They get nothing else. -/
theorem Zeros.eq_zeroValue (hgrounded : registry.Grounded) {nesting : Nat}
    {fields : List FieldLayout} {values : List Value} (h : registry.Zeros fields values)
    (hshallow : registry.Shallow nesting fields) :
    values = fields.map fun field => registry.zeroValue nesting field.kind := by
  induction h generalizing nesting with
  | nil => rfl
  | scalar hkind _ ih =>
      rw [List.map_cons, ← ih (List.forall_mem_cons.1 hshallow).2, hkind, zeroValue]
  | text hkind _ ih =>
      rw [List.map_cons, ← ih (List.forall_mem_cons.1 hshallow).2, hkind, zeroValue]
  | ref hkind _ ih =>
      rw [List.map_cons, ← ih (List.forall_mem_cons.1 hshallow).2, hkind, zeroValue]
  | unknown hkind hnone _ _ =>
      obtain ⟨inner, hinner, -⟩ := (List.forall_mem_cons.1 hshallow).1 hkind
      cases hnone.symm.trans hinner
  | component hkind hinner _ _ ihembedded ihrest =>
      obtain ⟨found, hfound, hlt⟩ := (List.forall_mem_cons.1 hshallow).1 hkind
      cases hfound.symm.trans hinner
      rw [List.map_cons, ← ihrest (List.forall_mem_cons.1 hshallow).2, hkind]
      cases nesting with
      | zero => exact absurd hlt (Nat.not_lt_zero _)
      | succ nesting =>
          rw [zeroValue, hinner]
          dsimp only
          rw [← ihembedded (hgrounded.shallow_of_lt hinner hlt)]

/-- **The recursion ends for every type**: it has an outcome, and the zero record holds it. -/
theorem zeros_iff (hgrounded : registry.Grounded) {layout : RecordLayout}
    (hlayout : layout ∈ registry.types) {values : List Value} :
    registry.Zeros layout.fields values ↔ values = (registry.zeroRecord layout).values := by
  constructor
  · exact fun h => h.eq_zeroValue hgrounded (hgrounded.embedded hlayout)
  · rintro rfl
    exact zeros_zeroValue hgrounded (hgrounded.embedded hlayout)

/-! ### Zeros can be stored -/

/-- The zeros of fields whose embedded types are known can be stored, in any scene. -/
theorem Zeros.allStorable (hgrounded : registry.Grounded) {nesting : Nat}
    {fields : List FieldLayout} {values : List Value} (h : registry.Zeros fields values)
    (hshallow : registry.Shallow nesting fields) (scene : Scene) :
    Value.AllStorable registry scene fields values := by
  rw [Value.allStorable_iff]
  induction h generalizing nesting with
  | nil => exact .nil
  | scalar hkind _ ih =>
      refine .cons ?_ (ih (List.forall_mem_cons.1 hshallow).2)
      rw [hkind]
      exact Value.storable_scalar_iff.2 ⟨_, rfl, rfl⟩
  | text hkind _ ih =>
      refine .cons ?_ (ih (List.forall_mem_cons.1 hshallow).2)
      rw [hkind]
      exact Value.storable_text_iff.2 ⟨none, rfl, nofun⟩
  | ref hkind _ ih =>
      refine .cons ?_ (ih (List.forall_mem_cons.1 hshallow).2)
      rw [hkind]
      exact Value.storable_ref_iff.2 ⟨none, rfl, nofun⟩
  | unknown hkind hnone _ _ =>
      obtain ⟨inner, hinner, -⟩ := (List.forall_mem_cons.1 hshallow).1 hkind
      cases hnone.symm.trans hinner
  | component hkind hinner _ _ ihembedded ihrest =>
      refine .cons ?_ (ihrest (List.forall_mem_cons.1 hshallow).2)
      rw [hkind, hgrounded.id_eq hinner]
      have hembedded := ihembedded (hgrounded.embedded (mem_types_of_layout? hinner))
      exact Value.storable_component_iff.2
        ⟨_, _, rfl, hinner, Value.allStorable_iff.2 hembedded⟩

theorem allFormed_zeroRecord (hgrounded : registry.Grounded) {layout : RecordLayout}
    (hlayout : layout ∈ registry.types) :
    Value.AllFormed registry layout.fields (registry.zeroRecord layout).values :=
  Value.AllStorable.allFormed _
    (((zeros_iff hgrounded hlayout).2 rfl).allStorable hgrounded (hgrounded.embedded hlayout) [])

/-- **Zero records are well formed.** -/
theorem formed_zeroRecord (hgrounded : registry.Grounded) {position : TypeId}
    {layout : RecordLayout} (hlayout : registry.layout? position = some layout) :
    (registry.zeroRecord layout).Formed registry := by
  have hid : (registry.zeroRecord layout).typeId = position := hgrounded.id_eq hlayout
  exact ⟨layout, hid.symm ▸ hlayout,
    allFormed_zeroRecord hgrounded (mem_types_of_layout? hlayout)⟩

end Registry

end ScenePack
