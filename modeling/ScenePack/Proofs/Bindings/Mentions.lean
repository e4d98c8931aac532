/-
**The types that bindings mention.**

The text of bindings uses types of its own, such as those of counts and addresses, and the
structures of the component types.  A structure comes before what its name means elsewhere, so a
component type can take over a name that the text uses.  Names that the bindings reserve are never
taken over, but three that they do not reserve can be.

Main definitions:

* `Mention`, `Registry.mentions` — what the bindings of a registry mention, and what they mean by
  it;
* `Mention.resolve` — what a name stands for next to declared structures;
* `Bindings.exposed` — the types of their own that bindings do not reserve.

Main results:

* `Bindings.typesOf?_bindings` — **the text of bindings mentions what their registry says**;
* `Registry.mentions_kept_iff` — **which names of component types take over what the bindings
  mention**;
* `Sample.usize_captured` — one that does.
-/

import ScenePack.Proofs.Bindings.StructLayout
import ScenePack.Proofs.Bindings.Tokens

set_option relaxedAutoImplicit false
set_option autoImplicit false

namespace ScenePack

/-! ### Mentions -/

/-- A type that bindings mention, by what they mean: one of their own, or the structure of a
component type. -/
inductive Mention where
  | own (name : String)
  | record (name : String)
  deriving DecidableEq

/-- The name that stands in the text. -/
def Mention.name : Mention → String
  | own name => name
  | record name => name

/-- The types that the member of a field mentions. -/
def FieldLayout.mentions (field : FieldLayout) : List Mention :=
  match field.kind with
  | .scalar type => [.own type.name]
  | .text => []
  | .component target => [.record target.name]
  | .ref target => [.record target.name]

/-- The types that the members of a structure mention. -/
def RecordLayout.memberMentions (layout : RecordLayout) : List Mention :=
  if layout.fields.isEmpty then [.own ScalarType.u8.name]
  else layout.fields.flatMap FieldLayout.mentions

/-- The types that the structure of a component type, its constant and the assertions about it
mention. -/
def RecordLayout.mentions (layout : RecordLayout) : List Mention :=
  layout.memberMentions ++
    ([.record layout.name, .own "TypeId", .own "TypeId", .record layout.name,
      .record layout.name] : List Mention) ++
    layout.fields.map fun _ => Mention.record layout.name

/-- The types that the lines in front of the structures mention, but for those that each type has
there. -/
def Bindings.frontMentions : List String := ["str", "TypeId", "u32", "Option", "Self"]

/-- The types that the root of an image mentions. -/
def Bindings.rootMentions : List String := ["u32", "u32", "usize", "ComponentRange", "usize"]

/-- The types that a fixup mentions. -/
def Fixup.mentions (fixup : Fixup) : List String :=
  ["u8", "Scene", "usize", "Scene", "usize", "usize", "ComponentRange", "usize"] ++
    if fixup.isEmpty then [] else ["usize", "usize", "usize"]

/-- The types that the bindings of a registry mention, in the order of the text. -/
def Registry.mentions (registry : Registry) : List Mention :=
  Bindings.frontMentions.map Mention.own ++
    registry.types.map (fun _ => Mention.own "TypeId") ++
    registry.types.flatMap RecordLayout.mentions ++
    (Bindings.rootMentions ++ Fixup.mentions (Fixup.ofRegistry registry)).map Mention.own

namespace Bindings

/-! ### The lines of bindings -/

section Lines

variable {bindings : Bindings} {layout : RecordLayout}

theorem flatMap_headLines (h : IsToken bindings.fingerprint) :
    bindings.headLines.flatMap lineTypes = ["str"] := by
  have hstamp : lineTypes ("pub const SCHEMA_FINGERPRINT: &str = \"" ++ spell ["\";"]
      [bindings.fingerprint]) = free ["str"] :=
    lineTypes_spell rfl (.cons rfl .nil) (by decide) (List.forall_mem_singleton.2 h) rfl
  simp only [spell, String.append_empty, ← String.append_assoc] at hstamp
  simp only [headLines, List.flatMap_cons, List.flatMap_nil, hstamp]
  repeat rw [lineTypes_ofList]
  decide

/-- The enumeration mentions itself once for every type. -/
theorem flatMap_enumerationLines (h : ∀ d ∈ bindings.declarations, IsToken d.name) :
    bindings.enumerationLines.flatMap lineTypes =
      ["TypeId", "u32", "Option", "Self"] ++ bindings.declarations.map fun _ => "TypeId" := by
  have hvariants : (bindings.declarations.map fun d =>
      "    " ++ d.name ++ " = " ++ toString d.id ++ ",").flatMap lineTypes = [] := by
    refine List.flatMap_eq_nil_iff.2 (List.forall_mem_map.2 fun d hd => ?_)
    have hline : lineTypes ("    " ++ spell [" = ", ","] [d.name, toString d.id]) = free [] :=
      lineTypes_spell rfl (.cons rfl (.cons rfl .nil)) (by decide)
        (List.forall_mem_cons.2 ⟨h d hd, List.forall_mem_singleton.2 (isToken_toString _)⟩) rfl
    simpa only [spell, String.append_empty, String.append_assoc, free_nil] using hline
  have hchoices : (bindings.declarations.map fun d =>
      "            " ++ toString d.id ++ " => Some(TypeId::" ++ d.name ++ "),").flatMap lineTypes =
      bindings.declarations.map fun _ => "TypeId" := by
    rw [List.flatMap_map, List.map_eq_flatMap]
    refine List.flatMap_congr fun d hd => ?_
    have hline : lineTypes ("            " ++ spell [" => Some(TypeId::", "),"]
        [toString d.id, d.name]) = free ["TypeId"] :=
      lineTypes_spell rfl (.cons rfl (.cons rfl .nil)) (by decide)
        (List.forall_mem_cons.2 ⟨isToken_toString _, List.forall_mem_singleton.2 (h d hd)⟩) rfl
    rw [show free ["TypeId"] = ["TypeId"] by decide] at hline
    simpa only [spell, String.append_empty, String.append_assoc, free_nil] using hline
  have hclosing : ["            _ => None,", "        \x7d", "    \x7d", "\x7d"].flatMap lineTypes =
      [] := by decide
  simp only [enumerationLines, List.flatMap_append, hvariants, hchoices, hclosing, List.append_nil,
    List.append_left_inj, List.flatMap_cons, List.flatMap_nil]
  repeat rw [lineTypes_ofList]
  decide

theorem flatMap_dispatchLines (h : ∀ d ∈ bindings.declarations, IsToken d.name) :
    bindings.dispatchLines.flatMap lineTypes = [] := by
  have hcalls : (bindings.declarations.map fun d =>
      "        $m!(" ++ d.name ++ ");").flatMap lineTypes = [] := by
    refine List.flatMap_eq_nil_iff.2 (List.forall_mem_map.2 fun d hd => ?_)
    have hline : lineTypes ("        $m!(" ++ spell [");"] [d.name]) = free [] :=
      lineTypes_spell rfl (.cons rfl .nil) (by decide) (List.forall_mem_singleton.2 (h d hd)) rfl
    simpa only [spell, String.append_empty, String.append_assoc, free_nil] using hline
  simp only [dispatchLines, List.flatMap_append, hcalls, List.flatMap_cons, List.flatMap_nil]
  repeat rw [lineTypes_ofList]
  decide

theorem flatMap_rootLines : rootLines.flatMap lineTypes = rootMentions := by
  simp only [rootLines, List.flatMap_cons, List.flatMap_nil]
  repeat rw [lineTypes_ofList]
  decide

theorem lineTypes_memberLine {name type : String} (hname : IsToken name) (htype : IsToken type) :
    lineTypes (memberLine (name, type)) = free [type] :=
  lineTypes_spell rfl (.cons rfl (.cons rfl .nil)) (by decide)
    (List.forall_mem_cons.2 ⟨hname, List.forall_mem_singleton.2 htype⟩) rfl

/-- The types that the line of a member mentions are those of the field. -/
theorem lineTypes_member {field : FieldLayout} (hname : isIdentifier field.name = true)
    (htarget : ∀ name, (field.kind.map Target.name).target? = some name →
      isIdentifier name = true ∧ name ∉ keywords) :
    lineTypes (memberLine (fieldName field.name, storageType (field.kind.map Target.name))) =
      field.mentions.map Mention.name := by
  have hmember := isToken_fieldName hname
  rw [FieldLayout.mentions]
  cases hkind : field.kind with
  | scalar type =>
      have hfree : type.name ∉ keywords := by cases type <;> decide
      exact (lineTypes_memberLine hmember (isToken_name type)).trans
        (free_eq_self (List.forall_mem_singleton.2 hfree))
  | text =>
      -- the type and what follows it make up one part, as the path of the type is no word
      have hpart : ": *const ::core::ffi::c_char," =
          ": " ++ "*const ::core::ffi::c_char" ++ "," := by decide
      have hline : lineTypes ("    pub " ++ spell [": *const ::core::ffi::c_char,"]
          [fieldName field.name]) = free ["const"] :=
        lineTypes_spell rfl (.cons rfl .nil) (by decide) (List.forall_mem_singleton.2 hmember) rfl
      rw [show free ["const"] = [] by decide] at hline
      simpa only [memberLine, spell, hpart, storageType, FieldKind.map, String.append_empty,
        String.append_assoc, List.map_cons, List.map_nil, Mention.name] using hline
  | component target =>
      obtain ⟨hidentifier, hfree⟩ := htarget target.name (by rw [hkind]; rfl)
      exact (lineTypes_memberLine hmember (isToken_of_isIdentifier hidentifier)).trans
        (free_eq_self (List.forall_mem_singleton.2 hfree))
  | ref target =>
      obtain ⟨hidentifier, hfree⟩ := htarget target.name (by rw [hkind]; rfl)
      have hpart : ": *const " = ": " ++ "*const " := by decide
      have hline : lineTypes ("    pub " ++ spell [": *const ", ","]
          [fieldName field.name, target.name]) = free ["const", target.name] :=
        lineTypes_spell rfl (.cons rfl (.cons rfl .nil)) (by decide) (List.forall_mem_cons.2
          ⟨hmember, List.forall_mem_singleton.2 (isToken_of_isIdentifier hidentifier)⟩) rfl
      rw [free, List.filter_cons_of_neg (by decide)] at hline
      have hkept := hline.trans (free_eq_self (List.forall_mem_singleton.2 hfree))
      simpa only [memberLine, spell, hpart, storageType, FieldKind.map, String.append_empty,
        String.append_assoc, List.map_cons, List.map_nil, Mention.name] using hkept

/-- The line of a member without a field mentions the type of the placeholder. -/
theorem lineTypes_placeholder :
    lineTypes (memberLine Declaration.placeholder) = [ScalarType.u8.name] := by
  decide

/-- The members of a structure mention what their fields do. -/
theorem flatMap_members (hfields : ∀ field ∈ layout.fields, isIdentifier field.name = true)
    (htargets : ∀ field ∈ layout.fields, ∀ name, (field.kind.map Target.name).target? = some name →
      isIdentifier name = true ∧ name ∉ keywords) :
    (Declaration.ofLayout layout).members.flatMap (fun member => lineTypes (memberLine member)) =
      layout.memberMentions.map Mention.name := by
  rw [Declaration.ofLayout, List.isEmpty_map, RecordLayout.memberMentions]
  split
  · rw [List.flatMap_singleton, lineTypes_placeholder]
    rfl
  · rw [List.flatMap_map, List.map_flatMap]
    exact List.flatMap_congr fun field hfield =>
      lineTypes_member (hfields field hfield) (htargets field hfield)

/-- Only the members of a structure mention types. -/
theorem flatMap_structureLines {s : Structure} (h : IsToken s.name) :
    (structureLines s).flatMap lineTypes =
      s.members.flatMap fun member => lineTypes (memberLine member) := by
  have halign : lineTypes (structureFront ++ spell ["))]"] [toString s.align]) = free [] :=
    lineTypes_spell rfl (.cons rfl .nil) (by decide)
      (List.forall_mem_singleton.2 (isToken_toString _)) rfl
  have hderived : lineTypes "#[derive(Debug, Clone, Copy)]" = [] := by decide
  have hhead : lineTypes ("pub struct " ++ spell [" \x7b"] [s.name]) = free [] :=
    lineTypes_spell rfl (.cons rfl .nil) (by decide) (List.forall_mem_singleton.2 h) rfl
  have hclosing : lineTypes "\x7d" = [] := by decide
  simp only [structureLines, List.flatMap_cons, List.flatMap_append, List.flatMap_map,
    List.flatMap_nil, halign, hderived, hhead, hclosing, free_nil, List.nil_append, List.append_nil]

theorem flatMap_constantLines {name : String} (h : IsToken name) (hfree : name ∉ keywords) :
    (constantLines name).flatMap lineTypes = [name, "TypeId", "TypeId"] := by
  have hhead : lineTypes ("impl " ++ spell [" \x7b"] [name]) = free [name] :=
    lineTypes_spell rfl (.cons rfl .nil) (by decide) (List.forall_mem_singleton.2 h) rfl
  have hconstant : lineTypes ("    pub const STATIC_TYPE_ID: TypeId = TypeId::" ++
      spell [";"] [name]) = free ["TypeId", "TypeId"] :=
    lineTypes_spell rfl (.cons rfl .nil) (by decide) (List.forall_mem_singleton.2 h) rfl
  have hblank : lineTypes "" = [] := by decide
  have hclosing : lineTypes "\x7d" = [] := by decide
  rw [free_eq_self (List.forall_mem_singleton.2 hfree)] at hhead
  rw [free_eq_self (by decide)] at hconstant
  simp only [spell, String.append_empty, ← String.append_assoc] at hhead hconstant
  simp only [constantLines, List.flatMap_cons, List.flatMap_nil, hhead, hconstant, hblank, hclosing,
    List.nil_append, List.append_nil, List.cons_append]

theorem flatMap_assertions {d : Declaration} (hname : IsToken d.name) (hfree : d.name ∉ keywords)
    (hoffsets : ∀ entry ∈ d.offsets, IsToken entry.1) :
    (d.assertions.map Assertion.line).flatMap lineTypes =
      [d.name, d.name] ++ d.offsets.map fun _ => d.name := by
  have hkept : free [d.name] = [d.name] := free_eq_self (List.forall_mem_singleton.2 hfree)
  have hsize : lineTypes (Assertion.size d.name d.size).line = free [d.name] :=
    lineTypes_spell rfl (.cons rfl (.cons rfl .nil)) (by decide)
      (List.forall_mem_cons.2 ⟨hname, List.forall_mem_singleton.2 (isToken_toString _)⟩) rfl
  have halign : lineTypes (Assertion.align d.name d.align).line = free [d.name] :=
    lineTypes_spell rfl (.cons rfl (.cons rfl .nil)) (by decide)
      (List.forall_mem_cons.2 ⟨hname, List.forall_mem_singleton.2 (isToken_toString _)⟩) rfl
  have hoffset : ∀ entry ∈ d.offsets,
      lineTypes (Assertion.offset d.name entry.1 entry.2).line = [d.name] := by
    intro entry hentry
    have hwords : ∀ word ∈ [d.name, entry.1, toString entry.2], IsToken word :=
      List.forall_mem_cons.2 ⟨hname, List.forall_mem_cons.2
        ⟨hoffsets entry hentry, List.forall_mem_singleton.2 (isToken_toString _)⟩⟩
    exact (lineTypes_spell rfl (.cons rfl (.cons rfl (.cons rfl .nil))) (by decide) hwords
      rfl).trans hkept
  have hrest : ((d.offsets.map fun entry => Assertion.offset d.name entry.1 entry.2).map
      Assertion.line).flatMap lineTypes = d.offsets.map fun _ => d.name := by
    rw [List.map_map, List.flatMap_map, List.map_eq_flatMap]
    exact List.flatMap_congr hoffset
  rw [Declaration.assertions, List.map_cons, List.map_cons, List.flatMap_cons, List.flatMap_cons,
    hsize, halign, hkept, hrest]
  rfl

/-- **The lines of a structure, its constant and its assertions mention what its layout says.** -/
theorem flatMap_declarationLines (h : Bindable layout)
    (htargets : ∀ field ∈ layout.fields, ∀ name, (field.kind.map Target.name).target? = some name →
      isIdentifier name = true ∧ name ∉ keywords) :
    (declarationLines (Declaration.ofLayout layout)).flatMap lineTypes =
      layout.mentions.map Mention.name := by
  have hname : IsToken (Declaration.ofLayout layout).name := isToken_of_isIdentifier h.name
  have hoffsets : ∀ entry ∈ (Declaration.ofLayout layout).offsets, IsToken entry.1 :=
    List.forall_mem_map.2 fun field hfield => isToken_fieldName (h.fields field hfield)
  have hblank : [""].flatMap lineTypes = [] := by decide
  rw [declarationLines_eq, List.flatMap_append, List.flatMap_append, List.flatMap_append, hblank,
    flatMap_structureLines hname, flatMap_constantLines hname h.not_keyword,
    flatMap_assertions hname h.not_keyword hoffsets, Declaration.shape,
    flatMap_members h.fields htargets, RecordLayout.mentions]
  simp only [Declaration.ofLayout, List.map_append, List.map_map, List.map_cons, List.nil_append,
    List.cons_append, List.append_assoc, Mention.name, Function.comp_def]

theorem flatMap_armLines (arm : FixupArm) : (armLines arm).flatMap lineTypes = [] := by
  have hhead : lineTypes ("                " ++ spell [" => \x7b"] [toString arm.typeId]) =
      free [] :=
    lineTypes_spell rfl (.cons rfl .nil) (by decide)
      (List.forall_mem_singleton.2 (isToken_toString _)) rfl
  have hslots : List.flatMap lineTypes (arm.slots.map fun slot =>
      if slot = 0 then "                    rebase(record, base);"
      else "                    rebase(record + " ++ toString slot ++ ", base);") = [] := by
    refine List.flatMap_eq_nil_iff.2 (List.forall_mem_map.2 fun slot _ => ?_)
    have hslot : lineTypes ("                    rebase(record + " ++
        spell [", base);"] [toString slot]) = free [] :=
      lineTypes_spell rfl (.cons rfl .nil) (by decide)
        (List.forall_mem_singleton.2 (isToken_toString _)) rfl
    split
    · exact (lineTypes_ofList _).trans (by decide)
    · simpa only [spell, String.append_empty, String.append_assoc, free_nil] using hslot
  simp only [spell, String.append_empty, ← String.append_assoc, free_nil] at hhead
  simp only [armLines, List.flatMap_append, List.flatMap_cons, List.flatMap_nil, hhead, hslots]
  repeat rw [lineTypes_ofList]
  decide

theorem flatMap_armsLines (fixup : Fixup) : (armsLines fixup).flatMap lineTypes = [] := by
  have harms : (fixup.flatMap armLines).flatMap lineTypes = [] := by
    rw [List.flatMap_assoc]
    exact List.flatMap_eq_nil_iff.2 fun arm _ => flatMap_armLines arm
  rw [armsLines]
  split
  · rfl
  · simp only [List.flatMap_append, List.flatMap_cons, List.flatMap_nil, harms]
    repeat rw [lineTypes_ofList]
    decide

theorem flatMap_fixupLines (fixup : Fixup) :
    (fixupLines fixup).flatMap lineTypes = fixup.mentions := by
  have hrebase : (rebaseLines fixup).flatMap lineTypes =
      if fixup.isEmpty then [] else ["usize", "usize", "usize"] := by
    rw [rebaseLines]
    split
    · rfl
    · simp only [List.flatMap_cons, List.flatMap_nil]
      repeat rw [lineTypes_ofList]
      decide
  rw [fixupLines, List.flatMap_append, List.flatMap_append, List.flatMap_append, flatMap_armsLines,
    hrebase, Fixup.mentions, List.append_left_inj]
  simp only [List.flatMap_cons, List.flatMap_nil]
  repeat rw [lineTypes_ofList]
  decide

end Lines

/-- **The text of bindings mentions what their registry says.** -/
theorem typesOf?_bindings {registry : Registry} {schema : Schema} (hlists : registry.Lists schema)
    {text : String} (h : registry.bindings = .ok text) :
    typesOf? text = some (registry.mentions.map Mention.name) := by
  obtain ⟨bindings, hdescribes, rfl⟩ := exists_describes hlists h
  have hfingerprint : IsToken bindings.fingerprint :=
    hdescribes.fingerprint ▸ isToken_fingerprint registry
  have hnames : ∀ d ∈ bindings.declarations, IsToken d.name := by
    rw [hdescribes.declarations]
    exact List.forall_mem_map.2 fun layout hlayout =>
      isToken_of_isIdentifier (hdescribes.bindable layout hlayout).name
  have hdeclarations : (bindings.declarations.flatMap declarationLines).flatMap lineTypes =
      (registry.types.flatMap RecordLayout.mentions).map Mention.name := by
    rw [hdescribes.declarations, List.flatMap_map, List.flatMap_assoc, List.map_flatMap]
    refine List.flatMap_congr fun layout hlayout => ?_
    refine flatMap_declarationLines (hdescribes.bindable layout hlayout) ?_
    intro field hfield name hname
    obtain ⟨inner, -, hinner, rfl⟩ :=
      exists_bindable_target hlists hdescribes.bindable hlayout hfield hname
    exact ⟨hinner.name, hinner.not_keyword⟩
  rw [typesOf?, hdescribes.linesOf?_render, Option.map_some, frontLines, List.flatMap_append,
    List.flatMap_append, List.flatMap_append, List.flatMap_append, List.flatMap_append,
    flatMap_headLines hfingerprint, flatMap_enumerationLines hnames, flatMap_dispatchLines hnames,
    hdeclarations, flatMap_rootLines, flatMap_fixupLines, hdescribes.declarations,
    hdescribes.fixup, Registry.mentions]
  simp [frontMentions, Function.comp_def, Mention.name]

/-! ### What names stand for -/

/-- The types that bindings mention although a component type may have their names. -/
def exposed : List String := ["usize", "str", "Option"]

/-- The types that bindings may mention besides the structures of component types: reserved ones,
exposed ones, and the keyword for the type at hand. -/
def ownTypes : List String := reserved ++ "Self" :: exposed

/-- The names of the structures that a text declares. -/
def declaredNames? (text : String) : Option (List String) :=
  (itemsOf? text).map fun items => (structuresOf items).map Structure.name

end Bindings

/-- What a name stands for in a file that declares the given structures: one of them, if it has the
name, and otherwise what the name stands for elsewhere. -/
def Mention.resolve (declared : List String) (name : String) : Mention :=
  if name ∈ declared then .record name else .own name

/-- What bindings may mention if they declare the given structures. -/
def Mention.Known (declared : List String) : Mention → Prop
  | own name => name ∈ Bindings.ownTypes
  | record name => name ∈ declared

section Known

variable {declared : List String}

theorem FieldLayout.known_mentions {field : FieldLayout}
    (h : ∀ name, (field.kind.map Target.name).target? = some name → name ∈ declared) :
    ∀ mention ∈ field.mentions, mention.Known declared := by
  rw [FieldLayout.mentions]
  cases hkind : field.kind with
  | scalar type =>
      have hown : type.name ∈ Bindings.ownTypes := by cases type <;> decide
      exact List.forall_mem_singleton.2 hown
  | text => exact List.forall_mem_nil _
  | component target => exact List.forall_mem_singleton.2 (h target.name (by rw [hkind]; rfl))
  | ref target => exact List.forall_mem_singleton.2 (h target.name (by rw [hkind]; rfl))

theorem RecordLayout.known_mentions {layout : RecordLayout} (hname : layout.name ∈ declared)
    (h : ∀ field ∈ layout.fields, ∀ name,
      (field.kind.map Target.name).target? = some name → name ∈ declared) :
    ∀ mention ∈ layout.mentions, mention.Known declared := by
  simp only [RecordLayout.mentions, List.forall_mem_append, List.forall_mem_map,
    List.forall_mem_cons]
  have hown : ∀ name ∈ ["TypeId", ScalarType.u8.name], name ∈ Bindings.ownTypes := by decide
  refine ⟨⟨?_, hname, hown _ (by simp), hown _ (by simp), hname, hname, List.forall_mem_nil _⟩,
    fun field _ => hname⟩
  rw [RecordLayout.memberMentions]
  split
  · exact List.forall_mem_singleton.2 (hown _ (by simp))
  · exact List.forall_mem_flatMap.2 fun field hfield =>
      FieldLayout.known_mentions (h field hfield)

theorem Fixup.known_mentions (fixup : Fixup) :
    ∀ name ∈ fixup.mentions, name ∈ Bindings.ownTypes := by
  rw [Fixup.mentions]
  split
  · decide
  · decide

end Known

namespace Registry

open Bindings

variable {registry : Registry} {schema : Schema} {config : LayoutConfig}

/-- The names of the component types. -/
def names (registry : Registry) : List String := registry.types.map RecordLayout.name

/-- **What bindings mention is known**: the targets of the fields are component types. -/
theorem known_mentions (hlists : registry.Lists schema)
    (hbindable : ∀ layout ∈ registry.types, Bindable layout) :
    ∀ mention ∈ registry.mentions, mention.Known registry.names := by
  simp only [mentions, List.forall_mem_append, List.forall_mem_map, List.forall_mem_flatMap]
  have hfront : ∀ name ∈ frontMentions, name ∈ ownTypes := by decide
  have hroot : ∀ name ∈ rootMentions, name ∈ ownTypes := by decide
  refine ⟨⟨⟨hfront, fun _ _ => hfront "TypeId" (by decide)⟩, fun layout hlayout => ?_⟩, hroot,
    Fixup.known_mentions _⟩
  refine RecordLayout.known_mentions (List.mem_map_of_mem hlayout) ?_
  intro field hfield name hname
  obtain ⟨inner, hinner, -, rfl⟩ :=
    exists_bindable_target hlists hbindable hlayout hfield hname
  exact List.mem_map_of_mem hinner

/-- A component type has the name of a type of the bindings' own exactly if the name is exposed. -/
theorem own_mem_mentions_iff (hlists : registry.Lists schema)
    (hbindable : ∀ layout ∈ registry.types, Bindable layout) {layout : RecordLayout}
    (hlayout : layout ∈ registry.types) :
    .own layout.name ∈ registry.mentions ↔ layout.name ∈ exposed := by
  have hname := hbindable layout hlayout
  constructor
  · intro h
    rcases List.mem_append.1 (known_mentions hlists hbindable _ h) with hreserved | hother
    · exact absurd hreserved hname.not_reserved
    · rcases List.mem_cons.1 hother with hself | hexposed
      · exact absurd hname.name (by rw [hself]; decide)
      · exact hexposed
  · intro h
    have hexposed : ∀ name ∈ exposed, name ∈ frontMentions ∨ name ∈ rootMentions := by decide
    simp only [mentions, List.mem_append, List.mem_map]
    rcases hexposed _ h with h | h
    · exact .inl (.inl (.inl ⟨_, h, rfl⟩))
    · exact .inr ⟨_, .inl h, rfl⟩

/-- Every name that bindings mention keeps its meaning exactly if no component type has an exposed
one. -/
theorem resolve_mentions_iff (hlists : registry.Lists schema)
    (hbindable : ∀ layout ∈ registry.types, Bindable layout) :
    (∀ mention ∈ registry.mentions, Mention.resolve registry.names mention.name = mention) ↔
      ∀ layout ∈ registry.types, layout.name ∉ exposed := by
  constructor
  · intro h layout hlayout hexposed
    have hkept := h _ ((own_mem_mentions_iff hlists hbindable hlayout).2 hexposed)
    have hname : layout.name ∈ registry.names := List.mem_map_of_mem hlayout
    rw [Mention.name, Mention.resolve, if_pos hname] at hkept
    cases hkept
  · intro h mention hmention
    cases mention with
    | own name =>
        refine if_neg fun hname => ?_
        obtain ⟨layout, hlayout, rfl⟩ := List.mem_map.1 hname
        exact h layout hlayout ((own_mem_mentions_iff hlists hbindable hlayout).1 hmention)
    | record name => exact if_pos (known_mentions hlists hbindable _ hmention)

/-- The structures that bindings declare have the names of the component types. -/
theorem declaredNames?_bindings (hlists : registry.Lists schema) {text : String}
    (htext : registry.bindings = .ok text) : declaredNames? text = some registry.names := by
  rw [declaredNames?, itemsOf?_bindings hlists htext, Option.map_some, structuresOf_items,
    structures, List.map_map]
  rfl

/-- **Which names of component types take over what the bindings mention.**  The text declares a
structure for every component type and mentions what the registry says.  Among the types of its own
that it mentions, a component type can have the name of those that are not reserved, and every name
keeps its meaning exactly if none has one of these. -/
theorem mentions_kept_iff (hbuild : build schema config = .ok registry) {text : String}
    (htext : registry.bindings = .ok text) :
    declaredNames? text = some registry.names ∧
      typesOf? text = some (registry.mentions.map Mention.name) ∧
      (∀ layout ∈ registry.types,
        .own layout.name ∈ registry.mentions ↔ layout.name ∈ exposed) ∧
      ((∀ mention ∈ registry.mentions,
          Mention.resolve registry.names mention.name = mention) ↔
        ∀ layout ∈ registry.types, layout.name ∉ exposed) := by
  have hlists := lists_of_build hbuild
  obtain ⟨-, ⟨hbindable, -⟩, -⟩ := exists_describes hlists htext
  exact ⟨declaredNames?_bindings hlists htext, typesOf?_bindings hlists htext,
    fun layout hlayout => own_mem_mentions_iff hlists hbindable hlayout,
    resolve_mentions_iff hlists hbindable⟩

end Registry

/-- The sample has bindings in which every name keeps its meaning. -/
theorem Registry.mentions_kept_iff_sample : ∃ text,
    build Sample.schema ⟨16⟩ = .ok Sample.registry ∧ Sample.registry.bindings = .ok text ∧
      Bindings.typesOf? text = some (Sample.registry.mentions.map Mention.name) ∧
      ∀ mention ∈ Sample.registry.mentions,
        Mention.resolve ["Node", "Tag"] mention.name = mention := by
  obtain ⟨text, htext⟩ := Sample.exists_bindings
  obtain ⟨-, htypes, -, hkept⟩ := mentions_kept_iff Sample.build_schema htext
  exact ⟨text, Sample.build_schema, htext, htypes, hkept.2 (by decide)⟩

namespace Sample

/-- The registry of a component type with the name of a number type that it does not hold. -/
def shadowing : Registry :=
  ⟨⟨16⟩, [⟨0, "usize", 0, 16, 16, [⟨"value", .scalar .u32, 0, 4, 4⟩], []⟩]⟩

/-- A component type can be named like the number type of the bindings' own counts and addresses.
The name then stands for the structure wherever the text mentions it. -/
theorem usize_captured : ∃ text,
    Registry.build [⟨"usize", [⟨"value", .scalar .u32⟩]⟩] ⟨16⟩ = .ok shadowing ∧
      shadowing.bindings = .ok text ∧
      Bindings.declaredNames? text = some ["usize"] ∧
      Bindings.typesOf? text = some
        (["str", "TypeId", "u32", "Option", "Self", "TypeId"] ++
          ["u32", "usize", "TypeId", "TypeId", "usize", "usize", "usize"] ++
          ["u32", "u32", "usize", "ComponentRange", "usize"] ++
          ["u8", "Scene", "usize", "Scene", "usize", "usize", "ComponentRange", "usize"]) ∧
      .own "usize" ∈ shadowing.mentions ∧ Mention.resolve ["usize"] "usize" = .record "usize" := by
  have hbuild : Registry.build [⟨"usize", [⟨"value", .scalar .u32⟩]⟩] ⟨16⟩ = .ok shadowing := by cbv
  obtain ⟨text, htext⟩ := @Registry.exists_bindings shadowing (by decide)
    (List.forall_mem_singleton.2 rfl)
  have hlists := Registry.lists_of_build hbuild
  have hmentions : shadowing.mentions.map Mention.name =
      ["str", "TypeId", "u32", "Option", "Self", "TypeId"] ++
        ["u32", "usize", "TypeId", "TypeId", "usize", "usize", "usize"] ++
        ["u32", "u32", "usize", "ComponentRange", "usize"] ++
        ["u8", "Scene", "usize", "Scene", "usize", "usize", "ComponentRange", "usize"] := by decide
  have htypes := (Bindings.typesOf?_bindings hlists htext).trans (congrArg some hmentions)
  exact ⟨text, hbuild, htext, Registry.declaredNames?_bindings hlists htext, htypes, by decide, rfl⟩

end Sample

end ScenePack
