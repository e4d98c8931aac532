/-
**What determines a registry.**

Two schemas may be laid out under different configurations.  If their types come out in the same
order, declared alike and with the same sizes and alignments, then the layouts agree in everything:
the depths of the types, the positions of their fields, and their pointers.  The reason is that the
plan is a matter of the declarations alone, and that a field is placed by what stands before it and
by its own size and alignment.

Main definitions:

* `RecordLayout.outline` — what is declared of a type, with the size and the alignment of its
  records.

Main results:

* `Schema.longest_congr` — the order of a schema has no influence on depths;
* `RecordLayout.eq_of_parts` — the alignment asked for shows only in size and alignment;
* `Registry.types_eq_of_outlines` — **outlines determine the layouts**.
-/

import ScenePack.Proofs.Layout.Construction

set_option relaxedAutoImplicit false
set_option autoImplicit false

namespace ScenePack

/-! ### The order of a schema -/

namespace Schema

variable {schema other : Schema}

/-- Without repeated names, a type embeds what its only definition says. -/
theorem embeds_iff_of_nodup (h : schema.names.Nodup) {owner inner : String} :
    schema.Embeds owner inner ↔ ∃ type ∈ schema, type.name = owner ∧
      ∃ field ∈ type.fields, field.kind = .component inner := by
  constructor
  · rintro ⟨front, type, back, rfl, hname, -, hfield⟩
    exact ⟨type, by simp, hname, hfield⟩
  · rintro ⟨type, htype, hname, hfield⟩
    obtain ⟨front, back, rfl⟩ := List.append_of_mem htype
    refine ⟨front, type, back, rfl, hname, fun later hlater hsame => ?_, hfield⟩
    rw [names, List.map_append, List.map_cons, List.nodup_append, List.nodup_cons] at h
    exact h.2.1.1 (hname ▸ hsame ▸ List.mem_map_of_mem hlater)

/-- **The order of a schema has no influence on depths.** -/
theorem longest_congr (h : schema.Perm other) (hnodup : schema.names.Nodup) {name : String}
    {depth : Nat} : schema.Longest name depth ↔ other.Longest name depth := by
  have hothers : other.names.Nodup := (h.map ComponentType.name).nodup_iff.1 hnodup
  have hembeds : schema.Embeds = other.Embeds := by
    funext owner inner
    rw [eq_iff_iff, embeds_iff_of_nodup hnodup, embeds_iff_of_nodup hothers]
    exact exists_congr fun type => and_congr_left fun _ => h.mem_iff
  simp only [Longest, IsPath, hembeds]

end Schema

/-! ### Placing under another alignment -/

/-- Where fields and pointers are placed does not depend on the alignment of the record. -/
theorem Placement.putAll_withAlign {placement : Placement} {align : Nat}
    {parts : List Part} :
    (({ placement with align := align } : Placement).putAll parts).fields =
        (placement.putAll parts).fields ∧
      (({ placement with align := align } : Placement).putAll parts).slots =
        (placement.putAll parts).slots := by
  induction parts generalizing placement align with
  | nil => exact ⟨rfl, rfl⟩
  | cons part rest ih => exact @ih (placement.put part.name part.kind part.extent) _

namespace RecordLayout

/-- What is declared of a type, and the size and the alignment of its records. -/
def outline (layout : RecordLayout) : ComponentType × Nat × Nat :=
  (layout.declares, layout.size, layout.align)

/-- **The alignment asked for shows only in the size and the alignment of a record.** -/
theorem eq_of_parts {config other : LayoutConfig} {id : TypeId} {depth : Nat}
    {name : String} {parts : List Part}
    (hsize : (ofParts config id depth name parts).size =
      (ofParts other id depth name parts).size)
    (halign : (ofParts config id depth name parts).align =
      (ofParts other id depth name parts).align) :
    ofParts config id depth name parts = ofParts other id depth name parts := by
  obtain ⟨hfields, hslots⟩ := @Placement.putAll_withAlign
    (.start other.recordAlign) config.recordAlign parts
  rw [RecordLayout.mk.injEq]
  exact ⟨rfl, rfl, rfl, hsize, halign, hfields, hslots⟩

end RecordLayout

/-! ### Registries with the same outlines -/

namespace Registry

variable {config config' : LayoutConfig} {schema schema' : Schema}

/-- **Layouts of one plan with the same outlines are the same.** -/
theorem layAll_eq_of_outlines {id? : String → Option TypeId} {start : TypeId} {plan : Plan}
    {layouts layouts' : List RecordLayout}
    (h : layAll .ok config schema id? start plan = .ok layouts)
    (h' : layAll .ok config' schema' id? start plan = .ok layouts')
    (houtlines : layouts.map RecordLayout.outline = layouts'.map RecordLayout.outline) :
    layouts = layouts' := by
  induction plan generalizing start layouts layouts' with
  | nil =>
      cases h
      cases h'
      rfl
  | cons entry rest ih =>
      obtain ⟨later, type, layout, hlater, -, hlayout, rfl⟩ := layAll_cons_eq_ok_iff.1 h
      obtain ⟨later', type', layout', hlater', -, hlayout', rfl⟩ := layAll_cons_eq_ok_iff.1 h'
      simp only [List.map_cons, List.cons.injEq, RecordLayout.outline, Prod.mk.injEq] at houtlines
      obtain ⟨⟨hdeclares, hsize, halign⟩, hrest⟩ := houtlines
      obtain rfl := ih hlater hlater' hrest
      -- the types are declared alike over the same layouts, so their parts are the same
      obtain ⟨-, -, htype, -⟩ := RecordLayout.declares_of_ofType hlayout
      obtain ⟨-, -, htype', -⟩ := RecordLayout.declares_of_ofType hlayout'
      obtain rfl : type = type' := htype.symm.trans (hdeclares.trans htype')
      obtain ⟨parts, hparts, rfl⟩ := RecordLayout.ofType_eq_ok_iff.1 hlayout
      obtain ⟨parts', hparts', rfl⟩ := RecordLayout.ofType_eq_ok_iff.1 hlayout'
      obtain rfl : parts = parts' := Except.ok.inj (hparts.symm.trans hparts')
      rw [RecordLayout.eq_of_parts hsize halign]

/-- **Outlines determine the layouts**, whatever the schemas and the configurations. -/
theorem types_eq_of_outlines {first second : Registry}
    (hfirst : buildWith .ok schema config = .ok first)
    (hsecond : buildWith .ok schema' config' = .ok second)
    (h : first.types.map RecordLayout.outline = second.types.map RecordLayout.outline) :
    first.types = second.types := by
  have hlists := lists_of_buildWith hfirst
  have hlists' := lists_of_buildWith hsecond
  obtain ⟨-, hvalid, plan, types, -, htypes, rfl⟩ := buildWith_eq_ok_iff.1 hfirst
  obtain ⟨-, -, plan', types', -, htypes', rfl⟩ := buildWith_eq_ok_iff.1 hsecond
  have hdeclares : types.map RecordLayout.declares = types'.map RecordLayout.declares := by
    have hfst := congrArg (List.map Prod.fst) h
    rwa [List.map_map, List.map_map] at hfst
  -- the schemas differ in their order at most, so their types are equally deep
  have hperm : schema.Perm schema' := hlists.perm.symm.trans (hdeclares ▸ hlists'.perm)
  have hdeep : ∀ layout ∈ types', schema.Longest layout.name layout.depth := fun layout hlayout =>
    (Schema.longest_congr hperm (Schema.nodup_names_of_validate hvalid)).2
      (hlists'.depth layout hlayout)
  have hpairs : List.Forall₂ (fun b a => a.declares = RecordLayout.declares b) types' types := by
    rwa [← forall₂_eq_map_iff, List.forall₂_map_right_iff] at hdeclares
  have hplanned : types.map RecordLayout.planned = types'.map RecordLayout.planned := by
    rw [← forall₂_eq_map_iff, List.forall₂_map_right_iff]
    have hknown := (List.forall₂_and_left types types').2 ⟨hlists.depth, hpairs.flip⟩
    refine forall₂_imp_of_mem ?_ hknown.flip
    rintro layout' hlayout' layout ⟨hdepth, hsame⟩
    have hname : layout.name = layout'.name := congrArg ComponentType.name hsame
    have hdepths : layout.depth = layout'.depth :=
      hdepth.eq (hname ▸ hdeep layout' hlayout')
    rw [RecordLayout.planned, RecordLayout.planned, hname, hdepths]
  obtain rfl : plan = plan' := by
    rw [← map_planned_of_layAll htypes, ← map_planned_of_layAll htypes', hplanned]
  exact layAll_eq_of_outlines htypes htypes' h

end Registry

end ScenePack
