/-
**Sums of layouts.**

A layout in the address space is made of sums that are checked, each of which stops the program if
it is not an address.  A sum that passes is the sum on unbounded numbers, so a registry that is
built in the address space is the one on unbounded numbers: **no layout wraps around**.

Main definitions:

* `Placement.put` — the placing of one field on unbounded numbers.

Main results:

* `Placement.place_ok` — sums that never fail place a field as unbounded numbers do;
* `Placement.put_of_place` — **a field that is placed in the address space is placed exactly**;
* `Registry.layAll_cons_eq_ok_iff`, `Registry.buildWith_eq_ok_iff` — when the types of a plan are
  laid out, and when a schema has a registry;
* `Registry.unbounded_of_build` — **a registry that is built is the one on unbounded numbers**.
-/

import ScenePack.Layout.Registry
import ScenePack.Proofs.Outcome

set_option relaxedAutoImplicit false
set_option autoImplicit false

namespace ScenePack

theorem eq_alignUp_of_checked {align position address : Nat}
    (h : alignUpBy (@Address.sum SchemaError) align position = .ok address) :
    address = alignUp align position := by
  obtain ⟨total, hsum, hok⟩ := bind_eq_ok_iff.1 h
  obtain ⟨-, rfl⟩ := Address.sum_eq_ok_iff.1 hsum
  cases hok
  exact alignUp_eq align position

/-! ### Placing -/

/-- A pointer of a part that starts at `start`. -/
def PointerSlot.shift (start : Nat) (slot : PointerSlot) : PointerSlot :=
  ⟨start + slot.offset, slot.kind⟩

namespace Placement

variable {placement next : Placement} {name : String} {kind : FieldKind Target} {extent : Extent}

/-- The placement with one more field, on unbounded numbers. -/
def put (placement : Placement) (name : String) (kind : FieldKind Target) (extent : Extent) :
    Placement :=
  let offset := alignUp extent.align placement.endsAt
  { endsAt := offset + extent.size
    align := max placement.align extent.align
    fields := placement.fields ++ [⟨name, kind, offset, extent.size, extent.align⟩]
    slots := placement.slots ++ extent.slots.map (PointerSlot.shift offset) }

@[simp] theorem place_ok :
    placement.place .ok name kind extent = .ok (placement.put name kind extent) := by
  have hslots : (extent.slots.mapM fun slot => (do
      let position ← .ok (alignUp extent.align placement.endsAt + slot.offset)
      .ok (PointerSlot.mk position slot.kind) : Except (Failure SchemaError) PointerSlot)) =
      .ok (extent.slots.map (PointerSlot.shift (alignUp extent.align placement.endsAt))) :=
    List.mapM_pure
  rw [place, alignUpBy_ok]
  refine bind_eq_ok_iff.2 ⟨_, rfl, bind_eq_ok_iff.2 ⟨_, hslots, rfl⟩⟩

/-- **A field that is placed in the address space is placed exactly.** -/
theorem put_of_place (h : placement.place Address.sum name kind extent = .ok next) :
    next = placement.put name kind extent := by
  obtain ⟨offset, hoffset, h⟩ := bind_eq_ok_iff.1 h
  obtain ⟨slots, hslots, h⟩ := bind_eq_ok_iff.1 h
  obtain ⟨endsAt, hend, h⟩ := bind_eq_ok_iff.1 h
  obtain rfl := eq_alignUp_of_checked hoffset
  obtain ⟨-, rfl⟩ := Address.sum_eq_ok_iff.1 hend
  have hshifted : slots =
      extent.slots.map (PointerSlot.shift (alignUp extent.align placement.endsAt)) := by
    refine forall₂_eq_map_iff.1 ((mapM_eq_ok_iff.1 hslots).imp fun slot placed hplaced => ?_)
    obtain ⟨position, hposition, hok⟩ := bind_eq_ok_iff.1 hplaced
    obtain ⟨-, rfl⟩ := Address.sum_eq_ok_iff.1 hposition
    exact (Except.ok.inj hok).symm
  rw [hshifted] at h
  exact (Except.ok.inj h).symm

end Placement

/-! ### Layouts -/

/-- **A layout in the address space is exact.** -/
theorem RecordLayout.unbounded_of_ofType {config : LayoutConfig} {context : LayoutContext}
    {id : TypeId} {depth : Nat} {type : ComponentType} {layout : RecordLayout}
    (h : ofType Address.sum config context id depth type = .ok layout) :
    ofType .ok config context id depth type = .ok layout := by
  obtain ⟨placement, hfold, h⟩ := bind_eq_ok_iff.1 h
  obtain ⟨size, hsize, hok⟩ := bind_eq_ok_iff.1 h
  obtain rfl := eq_alignUp_of_checked hsize
  refine bind_eq_ok_iff.2 ⟨placement, foldlM_imp ?_ hfold,
    bind_eq_ok_iff.2 ⟨_, alignUpBy_ok _ _, hok⟩⟩
  intro state field next hstep
  obtain ⟨found, hfound, hplace⟩ := bind_eq_ok_iff.1 hstep
  refine bind_eq_ok_iff.2 ⟨found, hfound, ?_⟩
  rw [Placement.put_of_place hplace]
  exact Placement.place_ok

namespace Registry

variable {sum : Nat → Except (Failure SchemaError) Nat} {config : LayoutConfig} {schema : Schema}
  {id? : String → Option TypeId} {start : TypeId}

/-- A planned type is laid out over the layouts of the types after it. -/
theorem layAll_cons_eq_ok_iff {entry : PlannedType} {rest : Plan} {layouts : List RecordLayout} :
    layAll sum config schema id? start (entry :: rest) = .ok layouts ↔
      ∃ later type layout, layAll sum config schema id? (start + 1) rest = .ok later ∧
        schema.type? entry.name = some type ∧
        RecordLayout.ofType sum config ⟨id?, later⟩ start entry.depth type = .ok layout ∧
        layouts = layout :: later := by
  rw [layAll, bind_eq_ok_iff]
  constructor
  · rintro ⟨later, hlater, h⟩
    split at h
    · cases h
    · next type htype =>
        obtain ⟨layout, hlayout, hok⟩ := bind_eq_ok_iff.1 h
        exact ⟨later, type, layout, hlater, htype, hlayout, (Except.ok.inj hok).symm⟩
  · rintro ⟨later, type, layout, hlater, htype, hlayout, rfl⟩
    refine ⟨later, hlater, ?_⟩
    rw [htype]
    exact bind_eq_ok_iff.2 ⟨layout, hlayout, rfl⟩

/-- When a schema has a registry: the configuration and the schema are sound, the types have an
order, and all of them can be laid out. -/
theorem buildWith_eq_ok_iff {registry : Registry} :
    buildWith sum schema config = .ok registry ↔
      config.validate = .ok () ∧ schema.validate = .ok () ∧ ∃ plan types,
        schema.plan = .ok plan ∧ layAll sum config schema plan.position? 0 plan = .ok types ∧
        registry = ⟨config, types⟩ := by
  simp only [buildWith, bind_eq_ok_iff, Failure.lift_eq_ok_iff]
  constructor
  · rintro ⟨⟨⟩, hconfig, ⟨⟩, hschema, h⟩
    refine ⟨hconfig, hschema, ?_⟩
    split at h
    · cases h
    · next plan hplan =>
        obtain ⟨types, htypes, hok⟩ := bind_eq_ok_iff.1 h
        exact ⟨plan, types, hplan, htypes, (Except.ok.inj hok).symm⟩
  · rintro ⟨hconfig, hschema, plan, types, hplan, htypes, rfl⟩
    refine ⟨(), hconfig, (), hschema, ?_⟩
    rw [hplan]
    exact bind_eq_ok_iff.2 ⟨types, htypes, rfl⟩

theorem unbounded_of_layAll {plan : Plan} {layouts : List RecordLayout}
    (h : layAll Address.sum config schema id? start plan = .ok layouts) :
    layAll .ok config schema id? start plan = .ok layouts := by
  induction plan generalizing start layouts with
  | nil => exact h
  | cons entry rest ih =>
      obtain ⟨later, type, layout, hlater, htype, hlayout, rfl⟩ := layAll_cons_eq_ok_iff.1 h
      exact layAll_cons_eq_ok_iff.2 ⟨later, type, layout, ih hlater, htype,
        RecordLayout.unbounded_of_ofType hlayout, rfl⟩

/-- **A registry that is built in the address space is the one on unbounded numbers.** -/
theorem unbounded_of_build {registry : Registry} (h : build schema config = .ok registry) :
    buildWith .ok schema config = .ok registry := by
  obtain ⟨hconfig, hschema, plan, types, hplan, htypes, rfl⟩ := buildWith_eq_ok_iff.1 h
  exact buildWith_eq_ok_iff.2
    ⟨hconfig, hschema, plan, types, hplan, unbounded_of_layAll htypes, rfl⟩

end Registry

end ScenePack
