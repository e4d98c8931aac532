/-
**The order of types in a schema.**

A schema lists its types in some order.  Nothing that is made of it depends on this order, if its
names are in order: types are looked up by name, the search for depths starts from the names in
ascending order, and it goes along embeddings in the order of fields.  So the search reaches the
same types in the same order whatever the order of the schema is, and it fails at the same circle.

Main results:

* `Schema.plan_eq_of_perm` — **the plan, or the circle that is found instead**;
* `Registry.build_eq_of_perm` — **the registry of a schema does not depend on the order of its
  types**, and neither does what is made of the registry.
-/

import ScenePack.Bindings.Text
import ScenePack.Proofs.Layout.Fits
import ScenePack.Proofs.Schema.Traversal

set_option relaxedAutoImplicit false
set_option autoImplicit false

namespace ScenePack

namespace Schema

variable {schema other : Schema}

/-! ### Names -/

theorem names_perm (h : schema.Perm other) : schema.names.Perm other.names :=
  h.map ComponentType.name

theorem WellNamed.perm (hnamed : schema.WellNamed) (h : schema.Perm other) : other.WellNamed where
  types := (names_perm h).nodup_iff.1 hnamed.types
  fields := fun type htype => hnamed.fields type (h.mem_iff.2 htype)
  targets := fun type htype field hfield target htarget =>
    (names_perm h).mem_iff.1 (hnamed.targets type (h.mem_iff.2 htype) field hfield target htarget)

/-- The defined names in ascending order, whatever order they are defined in. -/
theorem sortedNames_eq_of_perm (h : schema.Perm other) :
    other.sortedNames = schema.sortedNames := by
  have hsorted : ∀ schema : Schema, schema.sortedNames.Pairwise (· ≤ ·) := fun schema => by
    have hpairwise := @List.pairwise_mergeSort _ (fun a b : String => decide (a ≤ b))
      (fun a b c hab hbc => decide_eq_true
        (le_trans (of_decide_eq_true hab) (of_decide_eq_true hbc)))
      (fun a b => by simpa using le_total a b) schema.names.eraseDups
    exact hpairwise.imp fun hle => of_decide_eq_true hle
  refine List.Perm.eq_of_pairwise' (hsorted other) (hsorted schema) ?_
  rw [List.perm_ext_iff_of_nodup (nodup_sortedNames other) (nodup_sortedNames schema)]
  intro name
  rw [mem_sortedNames, mem_sortedNames, (names_perm h).mem_iff]

theorem type?_eq_of_perm (hnodup : schema.names.Nodup) (h : schema.Perm other) (name : String) :
    other.type? name = schema.type? name := by
  have hothers : other.names.Nodup := (names_perm h).nodup_iff.1 hnodup
  cases hfind : schema.type? name with
  | some type =>
      obtain rfl : type.name = name := by simpa using List.find?_some hfind
      exact Registry.type?_of_mem hothers (h.mem_iff.1 (List.mem_of_find?_eq_some hfind))
  | none =>
      rw [type?, List.find?_eq_none] at hfind ⊢
      exact fun type htype => hfind type (h.mem_iff.2 htype)

/-! ### Depths -/

/-- Without repeated names, a name embeds what its only definition says. -/
theorem embeddedIn_eq_of_perm (hnodup : schema.names.Nodup) (h : schema.Perm other)
    (name : String) : other.embeddedIn name = schema.embeddedIn name := by
  have hothers : other.names.Nodup := (names_perm h).nodup_iff.1 hnodup
  cases hfind : schema.type? name with
  | some type =>
      rw [embeddedIn_eq hnodup hfind,
        embeddedIn_eq hothers ((type?_eq_of_perm hnodup h name).trans hfind)]
  | none =>
      have hundefined : name ∉ schema.names := by
        intro hmem
        obtain ⟨type, htype, rfl⟩ := List.mem_map.1 hmem
        rw [Registry.type?_of_mem hnodup htype] at hfind
        cases hfind
      rw [embeddedIn_of_notMem hundefined,
        embeddedIn_of_notMem fun hmem => hundefined ((names_perm h).mem_iff.2 hmem)]

/-- **The plan does not depend on the order of a schema**, and neither does the circle that is
found where there is none. -/
theorem plan_eq_of_perm (hnodup : schema.names.Nodup) (h : schema.Perm other) :
    other.plan = schema.plan := by
  rw [plan, plan, depths_congr (sortedNames_eq_of_perm h) (embeddedIn_eq_of_perm hnodup h)]

end Schema

/-! ### Registries -/

/-- The check of a configuration has one complaint. -/
theorem LayoutConfig.eq_of_validate {config : LayoutConfig} {error : SchemaError}
    (h : config.validate = .error error) : error = .invalidAlignment config.recordAlign 64 := by
  rw [validate] at h
  split at h
  · cases h
  · exact (Except.error.inj h).symm

namespace Registry

variable {config : LayoutConfig} {schema other : Schema}
  {sum : Nat → Except (Failure SchemaError) Nat}

/-- Laying out a plan looks types up by name, and does nothing else with the schema. -/
theorem layAll_congr (h : ∀ name, other.type? name = schema.type? name)
    (id? : String → Option TypeId) (start : TypeId) (plan : Plan) :
    layAll sum config other id? start plan = layAll sum config schema id? start plan := by
  induction plan generalizing start with
  | nil => rfl
  | cons entry rest ih => rw [layAll, layAll, ih, h]

/-- Registries of one schema in two orders, for any sums. -/
theorem buildWith_eq_of_perm (hvalid : schema.validate = .ok ()) (h : schema.Perm other)
    (sum : Nat → Except (Failure SchemaError) Nat) :
    buildWith sum other config = buildWith sum schema config := by
  have hnamed := Schema.validate_eq_ok_iff.1 hvalid
  have hvalidOther : other.validate = .ok () := Schema.validate_eq_ok_iff.2 (hnamed.perm h)
  rw [buildWith, buildWith, hvalid, hvalidOther, Schema.plan_eq_of_perm hnamed.types h]
  simp only [layAll_congr (Schema.type?_eq_of_perm hnamed.types h)]

/-- A well-named schema has a registry, or the alignment asked for is wrong, or there is a circle,
or a layout sum is not an address. -/
theorem build_cases (hvalid : schema.validate = .ok ()) :
    (∃ registry, build schema config = .ok registry) ∨
      build schema config = .error (.reported (.invalidAlignment config.recordAlign 64)) ∨
      (∃ cycle, build schema config = .error (.reported (.cyclic cycle))) ∨
      (¬schema.SumsFit config ∧ build schema config = .error .stopped) := by
  cases hconfig : config.validate with
  | error error =>
      obtain rfl := LayoutConfig.eq_of_validate hconfig
      exact .inr (.inl (by rw [build, buildWith, hconfig]; rfl))
  | ok =>
      cases hplan : schema.plan with
      | error cycle =>
          exact .inr (.inr (.inl ⟨cycle, by rw [build, buildWith, hconfig, hvalid, hplan]; rfl⟩))
      | ok plan =>
          obtain ⟨exact, hexact⟩ := exists_buildWith_iff.2 ⟨hconfig, hvalid, plan, hplan⟩
          have hbuild := build_of_buildWith hexact
          by_cases hfits : exact.Fits
          · exact .inl ⟨exact, by rw [hbuild, if_pos hfits]⟩
          · rw [if_neg hfits] at hbuild
            exact .inr (.inr (.inr ⟨fun hall => hfits (hall exact hexact), hbuild⟩))

/-- **The order of types is irrelevant.**  In a schema whose names are in order, types may be listed
in any order: there is the same registry, or the same complaint about the alignment, or the same
circle with the same entry and members, or a layout sum that is not an address stops the program for
both.  So the fingerprint and the bindings are the same too. -/
theorem build_eq_of_perm {schema other : Schema} (hvalid : schema.validate = .ok ())
    (h : schema.Perm other) (config : LayoutConfig) :
    ((∃ registry, build schema config = .ok registry ∧ build other config = .ok registry) ∨
      (build schema config = .error (.reported (.invalidAlignment config.recordAlign 64)) ∧
        build other config = .error (.reported (.invalidAlignment config.recordAlign 64))) ∨
      (∃ cycle, build schema config = .error (.reported (.cyclic cycle)) ∧
        build other config = .error (.reported (.cyclic cycle))) ∨
      (¬schema.SumsFit config ∧ build schema config = .error .stopped ∧
        build other config = .error .stopped)) ∧
    (build other config).map fingerprint = (build schema config).map fingerprint ∧
    other.bindings config = schema.bindings config := by
  have hsame : build other config = build schema config := buildWith_eq_of_perm hvalid h _
  rw [Schema.bindings, Schema.bindings, hsame]
  refine ⟨?_, rfl, rfl⟩
  rcases build_cases hvalid with
    ⟨registry, hregistry⟩ | halign | ⟨cycle, hcycle⟩ | ⟨hlarge, hstops⟩
  · exact .inl ⟨registry, hregistry, hregistry⟩
  · exact .inr (.inl ⟨halign, halign⟩)
  · exact .inr (.inr (.inl ⟨cycle, hcycle, hcycle⟩))
  · exact .inr (.inr (.inr ⟨hlarge, hstops, hstops⟩))

/-- The samples with their types listed backwards: the registry of one, and the circle of the
other, which is still entered at `B`. -/
theorem build_eq_of_perm_sample :
    build Sample.schema.reverse ⟨16⟩ = .ok Sample.registry ∧
      build Sample.looped.reverse ⟨16⟩ = .error (.reported (.cyclic ⟨"B", ["B", "C", "D"]⟩)) ∧
      Schema.bindings Sample.schema.reverse ⟨16⟩ = Sample.schema.bindings ⟨16⟩ := by
  obtain ⟨hcases, -, hbindings⟩ := build_eq_of_perm (by cbv : Sample.schema.validate = .ok ())
    (List.reverse_perm Sample.schema).symm ⟨16⟩
  obtain ⟨hlooped, -⟩ := build_eq_of_perm (by cbv : Sample.looped.validate = .ok ())
    (List.reverse_perm Sample.looped).symm ⟨16⟩
  have hcircle : build Sample.looped ⟨16⟩ =
      .error (.reported (.cyclic ⟨"B", ["B", "C", "D"]⟩)) := by cbv
  rw [Sample.build_schema] at hcases
  rw [hcircle] at hlooped
  refine ⟨?_, ?_, hbindings⟩
  · obtain ⟨registry, hregistry, hother⟩ | ⟨⟨⟩, -⟩ | ⟨_, ⟨⟩, -⟩ | ⟨-, ⟨⟩, -⟩ := hcases
    exact hother.trans hregistry.symm
  · obtain ⟨_, ⟨⟩, -⟩ | ⟨herror, -⟩ | ⟨cycle, hcycle, hother⟩ | ⟨-, ⟨⟩, -⟩ := hlooped
    · cases herror
    · exact hother.trans hcycle.symm

end Registry

end ScenePack
