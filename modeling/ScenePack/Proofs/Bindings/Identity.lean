/-
**What bindings identify.**

Whoever compares two generated texts sees every difference between the layouts behind them.  The
names, alignments and members of the types can be read back from their structures, and sizes and
offsets from what is asserted of them: a keyword among the names of fields is marked, no type is
named like a number type, and a type without fields has no offsets.  With that the outlines of the
layouts are known, and outlines determine the layouts.  The line with the fingerprint is not needed.

Main definitions:

* `Bindings.kindOf` — the kind of the fields that a type holds;
* `Bindings.grouped` — the structures among items, each with the assertions about it;
* `Bindings.unstamped?` — the lines of a text without the fingerprint.

Main results:

* `Bindings.kindOf_storageType` — the kind of a field can be read back from the type that holds it;
* `Bindings.grouped_items` — items show what belongs to a declaration;
* `Bindings.outline_eq_of_declared` — **structures and assertions show the outlines**;
* `Bindings.items?_unstamped` — the items do not depend on the fingerprint;
* `Registry.bindings_eq_iff` — **equal bindings mean equal layouts**.
-/

import ScenePack.Proofs.Bindings.StructLayout
import ScenePack.Proofs.Layout.Determined

set_option relaxedAutoImplicit false
set_option autoImplicit false

namespace ScenePack

/-- Items that agree under one function agree under another, if the first one tells apart what the
second one does. -/
theorem map_eq_of_map_eq {α β γ : Type} {f : α → β} {g : α → γ} {items others : List α}
    (hsame : ∀ item ∈ items, ∀ other ∈ others, f item = f other → g item = g other)
    (h : items.map f = others.map f) : items.map g = others.map g := by
  induction items generalizing others with
  | nil =>
      rw [List.map_nil, eq_comm, List.map_eq_nil_iff] at h
      rw [h]
  | cons item rest ih =>
      cases others with
      | nil => cases h
      | cons other others =>
          obtain ⟨hhead, hrest⟩ := List.cons.inj h
          rw [List.map_cons, List.map_cons,
            hsame item List.mem_cons_self other List.mem_cons_self hhead,
            ih (fun a ha b hb => hsame a (List.mem_cons_of_mem _ ha) b (List.mem_cons_of_mem _ hb))
              hrest]

namespace Bindings

/-! ### Types that hold fields -/

/-- A kind whose target is an identifier and not the name of a type that bindings use themselves. -/
def Telling (kind : FieldKind String) : Prop :=
  ∀ target, kind.target? = some target →
    isIdentifier target = true ∧ reserved.contains target = false

/-- The kind of the fields that a type holds. -/
def kindOf (type : String) : FieldKind String :=
  if type = storageType .text then .text
  else match ScalarType.ofName? type with
    | some scalar => .scalar scalar
    | none => match type.toList.dropPrefix? "*const ".toList with
      | some target => .ref (String.ofList target)
      | none => .component type

theorem dropPrefix?_of_isIdentifier {name : String} (h : isIdentifier name = true) :
    name.toList.dropPrefix? "*const ".toList = none := by
  refine Option.eq_none_iff_forall_ne_some.2 fun rest hrest => ?_
  obtain ⟨front, hname, hfront⟩ := List.dropPrefix?_eq_some_iff.1 hrest
  have hstar : '*' ∈ name.toList := by
    rw [hname, beq_iff_eq.1 hfront]
    exact List.mem_append_left _ (by decide)
  exact absurd (continues_of_isIdentifier h '*' hstar) (by decide)

theorem ofName?_of_free {name : String} (h : reserved.contains name = false) :
    ScalarType.ofName? name = none := by
  refine List.find?_eq_none.2 fun type htype hsame => ?_
  have hmem : name ∈ reserved :=
    List.mem_append_right _ (List.mem_map.2 ⟨type, htype, of_decide_eq_true hsame⟩)
  rw [List.contains_iff_mem.2 hmem] at h
  cases h

/-- **The kind of a field can be read back** from the type that holds it. -/
theorem kindOf_storageType {kind : FieldKind String} (h : Telling kind) :
    kindOf (storageType kind) = kind := by
  cases kind with
  | scalar type => cases type <;> decide
  | text => rfl
  | component target =>
      obtain ⟨hname, hfree⟩ := h target rfl
      have hpointer : storageType (.component target) ≠ storageType .text := by
        intro hsame
        have hnone := dropPrefix?_of_isIdentifier hname
        rw [show target = storageType .text from hsame] at hnone
        exact absurd hnone (by decide)
      rw [kindOf, if_neg hpointer, storageType, ofName?_of_free hfree,
        dropPrefix?_of_isIdentifier hname]
  | ref target =>
      obtain ⟨hname, -⟩ := h target rfl
      have hpointer : storageType (.ref target) ≠ storageType .text := by
        intro hsame
        have hback : "*const " ++ target = "*const " ++ "::core::ffi::c_char" := hsame
        rw [← String.toList_inj, String.toList_append, String.toList_append] at hback
        rw [String.toList_inj.1 (List.append_cancel_left hback)] at hname
        exact absurd hname (by decide)
      have hscalar : ScalarType.ofName? ("*const " ++ target) = none := by
        refine List.find?_eq_none.2 fun type _ hsame => ?_
        have hstar : ¬Utf8.encode "*const " <+: Utf8.encode type.name := by
          cases type <;> decide
        exact append_ne hstar target (of_decide_eq_true hsame).symm
      have hrest : ("*const " ++ target).toList.dropPrefix? "*const ".toList =
          some target.toList :=
        List.dropPrefix?_eq_some_iff.2 ⟨"*const ".toList, by rw [String.toList_append], by simp⟩
      rw [kindOf, if_neg hpointer, storageType, hscalar, hrest]
      exact congrArg FieldKind.ref String.ofList_toList

/-! ### Declarations -/

/-- The assertions up to the next structure. -/
def leading : List Item → List Assertion
  | .assertion asserted :: rest => asserted :: leading rest
  | _ => []

/-- The structures among items, each with the assertions up to the next one. -/
def grouped : List Item → List (Structure × List Assertion)
  | [] => []
  | .record declared :: rest => (declared, leading rest) :: grouped rest
  | .assertion _ :: rest => grouped rest

theorem leading_append (assertions : List Assertion) (rest : List Item) :
    leading (assertions.map .assertion ++ rest) = assertions ++ leading rest := by
  induction assertions with
  | nil => rfl
  | cons asserted assertions ih => exact congrArg (asserted :: ·) ih

theorem grouped_append (assertions : List Assertion) (rest : List Item) :
    grouped (assertions.map .assertion ++ rest) = grouped rest := by
  induction assertions with
  | nil => rfl
  | cons asserted assertions ih => exact ih

/-- **Items show what belongs to a declaration.** -/
theorem grouped_items (declarations : List Declaration) :
    grouped (declarations.flatMap Declaration.items) =
      declarations.map fun d => (d.shape, d.assertions) := by
  have hleading : ∀ declarations : List Declaration,
      leading (declarations.flatMap Declaration.items) = [] := by
    intro declarations
    cases declarations <;> rfl
  induction declarations with
  | nil => rfl
  | cons d declarations ih =>
      rw [List.flatMap_cons, Declaration.items, List.cons_append, grouped, leading_append,
        hleading, List.append_nil, grouped_append, ih, List.map_cons]

theorem declared_eq_of_member {field other : FieldLayout} (hname : isIdentifier field.name = true)
    (hother : isIdentifier other.name = true) (hkind : Telling (field.kind.map Target.name))
    (hkind' : Telling (other.kind.map Target.name)) (h : field.member = other.member) :
    field.declared = other.declared := by
  obtain ⟨hnames, htypes⟩ := Prod.mk.inj h
  have hkinds := congrArg kindOf htypes
  rw [kindOf_storageType hkind, kindOf_storageType hkind'] at hkinds
  rw [FieldLayout.declared, FieldLayout.declared, fieldName_inj hname hother hnames, hkinds]

/-- **Structures and assertions show the outlines.** -/
theorem outline_eq_of_declared {layout other : RecordLayout} (hlayout : Bindable layout)
    (hother : Bindable other)
    (hkinds : ∀ field ∈ layout.fields, Telling (field.kind.map Target.name))
    (hkinds' : ∀ field ∈ other.fields, Telling (field.kind.map Target.name))
    (hshape : (Declaration.ofLayout layout).shape = (Declaration.ofLayout other).shape)
    (hassertions : (Declaration.ofLayout layout).assertions =
      (Declaration.ofLayout other).assertions) :
    layout.outline = other.outline := by
  obtain ⟨hname, halign, hmembers⟩ := Structure.mk.inj hshape
  obtain ⟨hsize, hrest⟩ := List.cons.inj hassertions
  obtain ⟨-, hoffsets⟩ := List.cons.inj hrest
  obtain ⟨-, hsize⟩ := Assertion.size.inj hsize
  have hlength : layout.fields.length = other.fields.length := by
    simpa [Declaration.ofLayout] using congrArg List.length hoffsets
  have hfields : layout.fields.map FieldLayout.member = other.fields.map FieldLayout.member := by
    -- the offsets tell a type without fields from one with a field like the placeholder
    cases hnone : layout.fields with
    | nil =>
        rw [hnone, List.length_nil, eq_comm, List.length_eq_zero_iff] at hlength
        rw [hlength]
    | cons field rest =>
        rw [hnone, List.length_cons] at hlength
        cases hnone' : other.fields with
        | nil =>
            rw [hnone'] at hlength
            cases hlength
        | cons field' rest' =>
            simp only [Declaration.ofLayout, hnone, hnone'] at hmembers
            exact hmembers
  have hdeclared : layout.fields.map FieldLayout.declared =
      other.fields.map FieldLayout.declared :=
    map_eq_of_map_eq (fun field hfield field' hfield' =>
      declared_eq_of_member (hlayout.fields field hfield) (hother.fields field' hfield')
        (hkinds field hfield) (hkinds' field' hfield')) hfields
  have hnames : layout.name = other.name := hname
  have hsizes : layout.size = other.size := hsize
  have haligns : layout.align = other.align := halign
  rw [RecordLayout.outline, RecordLayout.outline, RecordLayout.declares, RecordLayout.declares,
    hnames, hdeclared, hsizes, haligns]

/-- The targets of the fields of a registry are types of the registry, whose names are free. -/
theorem telling_of_bindable {registry : Registry} {schema : Schema} (hlists : registry.Lists schema)
    (hbindable : ∀ layout ∈ registry.types, Bindable layout) {layout : RecordLayout}
    (hlayout : layout ∈ registry.types) :
    ∀ field ∈ layout.fields, Telling (field.kind.map Target.name) := by
  intro field hfield name hname
  obtain ⟨inner, -, hinner, rfl⟩ := exists_bindable_target hlists hbindable hlayout hfield hname
  exact ⟨hinner.name, (Bool.or_eq_false_iff.1 hinner.free).1⟩

/-! ### Without the fingerprint -/

/-- The front of the line with the fingerprint. -/
def stampFront : String := "pub const SCHEMA_FINGERPRINT"

/-- The lines of a text without the fingerprint, `none` if the last one has no end. -/
def unstamped? (text : String) : Option (List String) :=
  (linesOf? text).map (List.filter fun line => !begins stampFront line)

/-- The lines of the head in front of the fingerprint. -/
def titleLines : List String :=
  ["// Generated by sg-codegen from a component schema. Do not edit.",
   "// Include with `include!` inside a module of its own.",
   "",
   "/// Digest of the layout these bindings were generated from."]

/-- The lines behind the head. -/
def bodyLines (bindings : Bindings) : List String :=
  bindings.enumerationLines ++ bindings.dispatchLines ++
    bindings.declarations.flatMap declarationLines ++ rootLines ++ fixupLines bindings.fixup

section Body

variable {bindings : Bindings}

/-- No line behind the head begins like the one with the fingerprint. -/
theorem begins_stampFront_bodyLines :
    ∀ line ∈ bindings.bodyLines, begins stampFront line = false := by
  have hdeclaration : ∀ d : Declaration, ∀ line ∈ declarationLines d,
      begins stampFront line = false := by
    intro d
    simp only [declarationLines, List.forall_mem_append, List.forall_mem_map, List.forall_mem_cons,
      String.append_assoc]
    exact ⟨⟨⟨⟨by decide, begins_append_eq_false (by decide) _, by decide,
      begins_append_eq_false (by decide) _, List.forall_mem_nil _⟩,
      fun member _ => begins_append_eq_false (by decide) _⟩, by decide, by decide,
      begins_append_eq_false (by decide) _, begins_append_eq_false (by decide) _, by decide,
      by decide, begins_append_eq_false (by decide) _, begins_append_eq_false (by decide) _,
      List.forall_mem_nil _⟩, fun entry _ => begins_append_eq_false (by decide) _⟩
  have hfixup : ∀ line ∈ fixupLines bindings.fixup, begins stampFront line = false := by
    refine forall_mem_fixupLines (by decide) fun arm _ => ?_
    simp only [armLines, List.forall_mem_append, List.forall_mem_map, List.forall_mem_cons,
      String.append_assoc]
    refine ⟨⟨⟨begins_append_eq_false (by decide) _, by decide, List.forall_mem_nil _⟩,
      fun slot _ => ?_⟩, by decide, List.forall_mem_nil _⟩
    split
    · decide
    · exact begins_append_eq_false (by decide) _
  simp only [bodyLines, enumerationLines, dispatchLines, List.forall_mem_append,
    List.forall_mem_map, List.forall_mem_flatMap, String.append_assoc]
  exact ⟨⟨⟨⟨⟨⟨⟨⟨by decide, fun d _ => begins_append_eq_false (by decide) _⟩, by decide⟩,
    fun d _ => begins_append_eq_false (by decide) _⟩, by decide⟩,
    ⟨by decide, fun d _ => begins_append_eq_false (by decide) _⟩, by decide⟩,
    fun d _ => hdeclaration d⟩, by decide⟩, hfixup⟩

/-- The lines of bindings are those of the head and those behind it. -/
theorem frontLines_append_fixupLines :
    bindings.frontLines ++ fixupLines bindings.fixup =
      bindings.headLines ++ bindings.bodyLines := by
  simp only [frontLines, bodyLines, List.append_assoc]

/-- **Only the line with the fingerprint is left out.** -/
theorem unstamped?_render (hfingerprint : OneLine bindings.fingerprint)
    (h : ∀ d ∈ bindings.declarations, d.Spelled) :
    unstamped? bindings.render = some (titleLines ++ bindings.bodyLines) := by
  have hstamp : begins stampFront ("pub const SCHEMA_FINGERPRINT: &str = \"" ++
      bindings.fingerprint ++ "\";") = true := begins_append (begins_append (by decide) _) _
  have hhead : (bindings.headLines.filter fun line => !begins stampFront line) = titleLines := by
    have htitle : (titleLines.filter fun line => !begins stampFront line) = titleLines :=
      List.filter_eq_self.2 (by decide)
    change (titleLines ++ [_]).filter _ = _
    rw [List.filter_append, htitle, List.filter_cons_of_neg (by simp [hstamp]), List.filter_nil,
      List.append_nil]
  have hbody : (bindings.bodyLines.filter fun line => !begins stampFront line) =
      bindings.bodyLines := by
    refine List.filter_eq_self.2 fun line hline => ?_
    rw [begins_stampFront_bodyLines line hline, Bool.not_false]
  rw [unstamped?, linesOf?_render hfingerprint h, Option.map_some, frontLines_append_fixupLines,
    List.filter_append, hhead, hbody]

/-- The items do not depend on the fingerprint. -/
theorem items?_unstamped (h : ∀ d ∈ bindings.declarations, d.Named) :
    items? (titleLines ++ bindings.bodyLines) =
      some (bindings.declarations.flatMap Declaration.items) := by
  rw [items?_plain (by decide), ← items?_lines h, frontLines_append_fixupLines,
    items?_plain plain_headLines]

end Body

/-- **The lines without the fingerprint spell the items of the declarations.** -/
theorem unstamped?_bindings {registry : Registry} {schema : Schema}
    (hlists : registry.Lists schema) {text : String} (h : registry.bindings = .ok text) :
    (unstamped? text).bind items? =
      some ((registry.types.map Declaration.ofLayout).flatMap Declaration.items) := by
  obtain ⟨bindings, hdescribes, rfl⟩ := exists_describes hlists h
  rw [unstamped?_render hdescribes.isWord_fingerprint.oneLine hdescribes.spelled, Option.bind_some,
    items?_unstamped hdescribes.named, hdescribes.declarations]

end Bindings

/-! ### Registries with the same bindings -/

namespace Registry

open Bindings

variable {first second : Registry} {schema schema' : Schema} {config config' : LayoutConfig}

theorem bindings_congr (h : first.types = second.types) : first.bindings = second.bindings := by
  have hfixup : Fixup.ofRegistry first = Fixup.ofRegistry second := by
    rw [Fixup.ofRegistry, Fixup.ofRegistry, h]
  have hfingerprint : first.fingerprint = second.fingerprint := by
    rw [fingerprint, fingerprint, preimage, preimage, h]
  rw [Registry.bindings, Registry.bindings, ofRegistry, ofRegistry, h, hfixup, hfingerprint]

/-- **The lines without the fingerprint show the layouts.** -/
theorem types_of_unstamped? (hfirst : build schema config = .ok first)
    (hsecond : build schema' config' = .ok second) {text text' : String}
    (htext : first.bindings = .ok text) (htext' : second.bindings = .ok text')
    (h : unstamped? text = unstamped? text') : first.types = second.types := by
  have hlists := lists_of_build hfirst
  have hlists' := lists_of_build hsecond
  obtain ⟨-, ⟨hbindable, -⟩, -⟩ := exists_describes hlists htext
  obtain ⟨-, ⟨hbindable', -⟩, -⟩ := exists_describes hlists' htext'
  have hitems := (unstamped?_bindings hlists htext).symm.trans
    (h ▸ unstamped?_bindings hlists' htext')
  have hgrouped := congrArg grouped (Option.some.inj hitems)
  rw [grouped_items, grouped_items, List.map_map, List.map_map] at hgrouped
  refine types_eq_of_outlines (unbounded_of_build hfirst) (unbounded_of_build hsecond)
    (map_eq_of_map_eq ?_ hgrouped)
  intro layout hlayout other hother hsame
  obtain ⟨hshape, hassertions⟩ := Prod.mk.inj hsame
  exact outline_eq_of_declared (hbindable layout hlayout) (hbindable' other hother)
    (telling_of_bindable hlists hbindable hlayout)
    (telling_of_bindable hlists' hbindable' hother) hshape hassertions

/-- **Equal bindings mean equal layouts**: the same types in the same order, with their positions,
names, sizes and alignments, their fields with kinds, targets and offsets, and their pointers.  The
line with the fingerprint may be ignored. -/
theorem bindings_eq_iff (hfirst : build schema config = .ok first)
    (hsecond : build schema' config' = .ok second) {text text' : String}
    (htext : first.bindings = .ok text) (htext' : second.bindings = .ok text') :
    (text = text' ↔ first.types = second.types) ∧
      (unstamped? text = unstamped? text' ↔ first.types = second.types) := by
  have hunstamped : unstamped? text = unstamped? text' → first.types = second.types :=
    types_of_unstamped? hfirst hsecond htext htext'
  have htexts : first.types = second.types → text = text' := fun h =>
    Except.ok.inj (htext.symm.trans ((bindings_congr h).trans htext'))
  exact ⟨⟨fun h => hunstamped (congrArg unstamped? h), htexts⟩,
    hunstamped, fun h => congrArg unstamped? (htexts h)⟩

end Registry

namespace Sample

/-- The registry of a type without fields. -/
def blank : Registry := ⟨⟨16⟩, [⟨0, "Marker", 0, 16, 16, [], []⟩]⟩

/-- The registry of a type with a field like the placeholder. -/
def reserving : Registry :=
  ⟨⟨16⟩, [⟨0, "Marker", 0, 16, 16, [⟨"_reserved", .scalar .u8, 0, 1, 1⟩], []⟩]⟩

end Sample

/-- A type without fields has the same structure as one with a field like its placeholder, but other
bindings, even without the fingerprint. -/
theorem Registry.bindings_eq_iff_sample :
    build [⟨"Marker", []⟩] ⟨16⟩ = .ok Sample.blank ∧
      build [⟨"Marker", [⟨"_reserved", .scalar .u8⟩]⟩] ⟨16⟩ = .ok Sample.reserving ∧
      Sample.blank.structures = Sample.reserving.structures ∧
      ∃ text text', Sample.blank.bindings = .ok text ∧ Sample.reserving.bindings = .ok text' ∧
        Bindings.unstamped? text ≠ Bindings.unstamped? text' := by
  have hblank : build [⟨"Marker", []⟩] ⟨16⟩ = .ok Sample.blank := by cbv
  have hreserving : build [⟨"Marker", [⟨"_reserved", .scalar .u8⟩]⟩] ⟨16⟩ =
      .ok Sample.reserving := by cbv
  obtain ⟨text, htext⟩ :=
    @exists_bindings Sample.blank (by decide) (List.forall_mem_singleton.2 rfl)
  obtain ⟨text', htext'⟩ :=
    @exists_bindings Sample.reserving (by decide) (List.forall_mem_singleton.2 rfl)
  refine ⟨hblank, hreserving, by decide, text, text', htext, htext', fun h => ?_⟩
  exact absurd ((bindings_eq_iff hblank hreserving htext htext').2.1 h) (by decide)

end ScenePack
