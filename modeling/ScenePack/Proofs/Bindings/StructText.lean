/-
**The structures as their text declares them.**

Besides the fixup, the text of bindings declares a structure for every type, with the alignment it
asks for and its members in order, and asserts sizes, alignments and offsets.  Here these are read
from the text: the lines that stand for a structure or an assertion all have to be readable, and the
others are passed over.  What is read from the bindings of a registry is what its types were
declared as.

Main definitions:

* `Bindings.words?` — the words of a line between given parts;
* `Bindings.Structure`, `Bindings.Assertion`, `Bindings.Item` — what a text declares and asserts;
* `Bindings.itemsOf?` — the items of a text;
* `Declaration.items` — the items that a declaration stands for.

Main results:

* `Bindings.words?_spell` — words can be read back;
* `Bindings.items?_declarationLines` — the items of a declaration can be read back;
* `Bindings.itemsOf?_bindings` — **bindings spell the items of their declarations**.
-/

import ScenePack.Proofs.Bindings.Lines

set_option relaxedAutoImplicit false
set_option autoImplicit false

namespace ScenePack

namespace Bindings

/-! ### Words of a line -/

/-- The words in front of the given parts: each goes up to the first character of its part, and
nothing is left behind the last part. -/
def words? : (parts : List String) → List Char → Option (List String)
  | [], chars => if chars = [] then some [] else none
  | part :: parts, chars =>
      ((chars.dropWhile fun c => some c ≠ part.toList.head?).dropPrefix? part.toList).bind
        fun rest => (words? parts rest).map fun words =>
          String.ofList (chars.takeWhile fun c => some c ≠ part.toList.head?) :: words

/-- The words of a line behind its front. -/
def lineWords? (front : String) (parts : List String) (line : String) : Option (List String) :=
  (line.toList.dropPrefix? front.toList).bind (words? parts)

/-- Words, each with the part that follows it. -/
def spell : (parts words : List String) → String
  | part :: parts, word :: words => word ++ part ++ spell parts words
  | _, _ => ""

/-- A part that ends a word: its first character is not in the word. -/
def Ends (part word : String) : Prop :=
  ∃ stop, part.toList.head? = some stop ∧ stop ∉ word.toList

/-- **Words can be read back.** -/
theorem words?_spell {parts words : List String} (h : List.Forall₂ Ends parts words) :
    words? parts (spell parts words).toList = some words := by
  induction h with
  | nil => rfl
  | @cons part word parts words hends _ ih =>
      obtain ⟨stop, hhead, hstop⟩ := hends
      obtain ⟨rest, hpart⟩ := List.head?_eq_some_iff.1 hhead
      have hword : ∀ c ∈ word.toList, decide (some c ≠ some stop) = true :=
        fun c hc => decide_eq_true fun hsame => hstop (Option.some.inj hsame ▸ hc)
      have htake : (word.toList ++ (part.toList ++ (spell parts words).toList)).takeWhile
          (fun c => some c ≠ part.toList.head?) = word.toList := by
        rw [hpart, List.head?_cons, List.takeWhile_append_of_pos hword]
        simp
      have hdrop : (word.toList ++ (part.toList ++ (spell parts words).toList)).dropWhile
          (fun c => some c ≠ part.toList.head?) = part.toList ++ (spell parts words).toList := by
        rw [hpart, List.head?_cons, List.dropWhile_append_of_pos hword]
        simp
      rw [spell, String.toList_append, String.toList_append, List.append_assoc, words?, htake,
        hdrop, List.dropPrefix?_eq_some_iff.2 ⟨part.toList, rfl, by simp⟩, Option.bind_some, ih,
        String.ofList_toList]
      rfl

/-- The words of a line can be read back. -/
theorem lineWords?_spell {front : String} {parts words : List String}
    (h : List.Forall₂ Ends parts words) :
    lineWords? front parts (front ++ spell parts words) = some words := by
  rw [lineWords?, String.toList_append,
    List.dropPrefix?_eq_some_iff.2 ⟨front.toList, rfl, by simp⟩, Option.bind_some, words?_spell h]

theorem IsWord.ends {part word : String} {stop : Char} (h : IsWord word)
    (hpart : part.toList.head? = some stop)
    (hstop : ¬(continuesIdentifier stop = true ∨ stop = '#')) : Ends part word :=
  ⟨stop, hpart, fun hmem => hstop (h stop hmem)⟩

theorem isWord_toString (number : Nat) : IsWord (toString number) := by
  intro c hc
  rw [Nat.toString_eq_ofList_toDigits, String.toList_ofList] at hc
  have hdigit := Nat.isDigit_of_mem_toDigits (by decide) (by decide) hc
  simp [continuesIdentifier, Char.isAlphanum, hdigit]

/-! ### Fronts of lines -/

/-- Whether a line begins with a text. -/
def begins (front line : String) : Bool := (Utf8.encode front).isPrefixOf (Utf8.encode line)

/-- Two fronts of which neither begins with the other. -/
def Apart (front other : String) : Prop :=
  ¬Utf8.encode front <+: Utf8.encode other ∧ ¬Utf8.encode other <+: Utf8.encode front

instance (front other : String) : Decidable (Apart front other) :=
  inferInstanceAs (Decidable (_ ∧ _))

theorem begins_append_eq_false {front other : String} (h : Apart front other) (back : String) :
    begins front (other ++ back) = false := by
  refine Bool.eq_false_iff.2 fun hbegins => ?_
  rw [begins, List.isPrefixOf_iff_prefix, Utf8.encode_append] at hbegins
  exact (List.prefix_or_prefix_of_prefix hbegins (List.prefix_append _ _)).elim h.1 h.2

theorem begins_append {front other : String} (h : begins front other = true) (back : String) :
    begins front (other ++ back) = true := by
  rw [begins, List.isPrefixOf_iff_prefix] at h ⊢
  rw [Utf8.encode_append]
  exact h.trans (List.prefix_append _ _)

theorem begins_self (front : String) : begins front front = true :=
  List.isPrefixOf_iff_prefix.2 List.prefix_rfl

theorem lineWords?_eq_none {front line : String} (h : begins front line = false)
    (parts : List String) : lineWords? front parts line = none := by
  have hprefix : line.toList.dropPrefix? front.toList = none := by
    refine Option.eq_none_iff_forall_ne_some.2 fun rest hrest => ?_
    obtain ⟨front', hline, hsame⟩ := List.dropPrefix?_eq_some_iff.1 hrest
    have htext : line = front ++ String.ofList rest := by
      rw [← String.toList_inj, hline, String.toList_append, String.toList_ofList,
        beq_iff_eq.1 hsame]
    rw [htext, begins_append (begins_self front)] at h
    cases h
  rw [lineWords?, hprefix]
  rfl

/-! ### Structures -/

/-- A structure as a text declares it: the alignment it asks for, and its members with the types
that hold them. -/
structure Structure where
  name : String
  align : Nat
  members : List (String × String)
  deriving DecidableEq

/-- The front of the line in front of a structure. -/
def structureFront : String := "#[repr(C, align("

/-- The member of a structure on a line. -/
def member? (line : String) : Option (String × String) :=
  match lineWords? "    pub " [": ", ","] line with
  | some [name, type] => some (name, type)
  | _ => none

/-- The structure that lines begin with. -/
def structure? : List String → Option Structure
  | layout :: derived :: head :: rest =>
      match lineWords? structureFront ["))]"] layout, lineWords? "pub struct " [" \x7b"] head with
      | some [align], some [name] => do
          guard (derived = "#[derive(Debug, Clone, Copy)]")
          let align ← align.toNat?
          let members ← (rest.takeWhile (· ≠ "\x7d")).mapM member?
          some ⟨name, align, members⟩
      | _, _ => none
  | _ => none

/-! ### Assertions -/

/-- What a text asserts of a type: its size, its alignment, or the offset of a member. -/
inductive Assertion where
  | size (type : String) (value : Nat)
  | align (type : String) (value : Nat)
  | offset (type member : String) (value : Nat)
  deriving DecidableEq

/-- The front of the line of an assertion. -/
def assertionFront : String := "const _"

/-- The front of the assertion of a size. -/
def sizeFront : String := "const _: () = assert!(::core::mem::size_of::<"

/-- The front of the assertion of an alignment. -/
def alignFront : String := "const _: () = assert!(::core::mem::align_of::<"

/-- The front of the assertion of an offset. -/
def offsetFront : String := "const _: () = assert!(::core::mem::offset_of!("

/-- The assertion on a line. -/
def assertion? (line : String) : Option Assertion :=
  match lineWords? sizeFront [">() == ", ");"] line with
  | some [type, value] => value.toNat?.map (.size type)
  | _ => match lineWords? alignFront [">() == ", ");"] line with
    | some [type, value] => value.toNat?.map (.align type)
    | _ => match lineWords? offsetFront [", ", ") == ", ");"] line with
      | some [type, member, value] => value.toNat?.map (.offset type member)
      | _ => none

/-! ### Items -/

/-- An item of a text: a structure or an assertion. -/
inductive Item where
  | record (declared : Structure)
  | assertion (asserted : Assertion)
  deriving DecidableEq

/-- The items of lines, `none` if one of them cannot be read. -/
def items? : List String → Option (List Item)
  | [] => some []
  | line :: rest =>
      if begins structureFront line then
        (structure? (line :: rest)).bind fun declared =>
          (items? rest).map (.record declared :: ·)
      else if begins assertionFront line then
        (assertion? line).bind fun asserted => (items? rest).map (.assertion asserted :: ·)
      else items? rest

/-- The items of a text. -/
def itemsOf? (text : String) : Option (List Item) := (linesOf? text).bind items?

/-- The structure that an item is. -/
def Item.record? : Item → Option Structure
  | .record declared => some declared
  | .assertion _ => none

/-- The structures among items. -/
def structuresOf (items : List Item) : List Structure := items.filterMap Item.record?

/-- A line that stands for no item. -/
def Plain (line : String) : Prop :=
  begins structureFront line = false ∧ begins assertionFront line = false

instance : DecidablePred Plain := fun line =>
  inferInstanceAs (Decidable (begins structureFront line = false ∧
    begins assertionFront line = false))

/-- A line with a front of its own stands for no item. -/
theorem plain_append {front : String}
    (h : Apart structureFront front ∧ Apart assertionFront front) (back : String) :
    Plain (front ++ back) :=
  ⟨begins_append_eq_false h.1 back, begins_append_eq_false h.2 back⟩

/-- Lines that stand for no item are passed over. -/
theorem items?_plain {lines : List String} (h : ∀ line ∈ lines, Plain line) (rest : List String) :
    items? (lines ++ rest) = items? rest := by
  induction lines with
  | nil => rfl
  | cons line lines ih =>
      obtain ⟨⟨hstructure, hassertion⟩, hlines⟩ := List.forall_mem_cons.1 h
      rw [List.cons_append, items?, hstructure, hassertion]
      exact ih hlines

/-! ### Reading what is written -/

/-- The line of an assertion. -/
def Assertion.line : Assertion → String
  | .size type value => sizeFront ++ spell [">() == ", ");"] [type, toString value]
  | .align type value => alignFront ++ spell [">() == ", ");"] [type, toString value]
  | .offset type member value =>
      offsetFront ++ spell [", ", ") == ", ");"] [type, member, toString value]

/-- An assertion whose names are words. -/
def Assertion.Named : Assertion → Prop
  | .size type _ => IsWord type
  | .align type _ => IsWord type
  | .offset type member _ => IsWord type ∧ IsWord member

theorem toNat?_toString (number : Nat) : (toString number).toNat? = some number :=
  Nat.toNat?_repr number

/-- **An assertion can be read back.** -/
theorem assertion?_line {asserted : Assertion} (h : asserted.Named) :
    assertion? asserted.line = some asserted := by
  cases asserted with
  | size type value =>
      have hwords : List.Forall₂ Ends [">() == ", ");"] [type, toString value] :=
        .cons (IsWord.ends h rfl (by decide))
          (.cons ((isWord_toString value).ends rfl (by decide)) .nil)
      rw [assertion?, Assertion.line, lineWords?_spell hwords]
      exact congrArg (Option.map _) (toNat?_toString value)
  | align type value =>
      have hwords : List.Forall₂ Ends [">() == ", ");"] [type, toString value] :=
        .cons (IsWord.ends h rfl (by decide))
          (.cons ((isWord_toString value).ends rfl (by decide)) .nil)
      rw [assertion?, Assertion.line, lineWords?_eq_none (begins_append_eq_false (by decide) _),
        lineWords?_spell hwords]
      exact congrArg (Option.map _) (toNat?_toString value)
  | offset type member value =>
      obtain ⟨htype, hmember⟩ := h
      have hwords : List.Forall₂ Ends [", ", ") == ", ");"] [type, member, toString value] :=
        .cons (htype.ends rfl (by decide)) (.cons (hmember.ends rfl (by decide))
          (.cons ((isWord_toString value).ends rfl (by decide)) .nil))
      rw [assertion?, Assertion.line, lineWords?_eq_none (begins_append_eq_false (by decide) _),
        lineWords?_eq_none (begins_append_eq_false (by decide) _), lineWords?_spell hwords]
      exact congrArg (Option.map _) (toNat?_toString value)

/-- The line of an assertion stands for an item, which is no structure. -/
theorem begins_line (asserted : Assertion) :
    begins structureFront asserted.line = false ∧ begins assertionFront asserted.line = true := by
  cases asserted with
  | size =>
      exact ⟨begins_append_eq_false (by decide) _, begins_append (by decide) _⟩
  | align =>
      exact ⟨begins_append_eq_false (by decide) _, begins_append (by decide) _⟩
  | offset =>
      exact ⟨begins_append_eq_false (by decide) _, begins_append (by decide) _⟩

/-- Assertions can be read back. -/
theorem items?_assertions {assertions : List Assertion} (h : ∀ a ∈ assertions, a.Named)
    (rest : List String) :
    items? (assertions.map Assertion.line ++ rest) =
      (items? rest).map (assertions.map Item.assertion ++ ·) := by
  induction assertions with
  | nil => simp
  | cons asserted assertions ih =>
      obtain ⟨hasserted, hassertions⟩ := List.forall_mem_cons.1 h
      obtain ⟨hstructure, hassertion⟩ := begins_line asserted
      rw [List.map_cons, List.cons_append, items?, hstructure, hassertion,
        assertion?_line hasserted, ih hassertions]
      cases items? rest with
      | none => rfl
      | some items => rfl

/-- The line of a member. -/
def memberLine (member : String × String) : String :=
  "    pub " ++ spell [": ", ","] [member.1, member.2]

/-- A member can be read back. -/
theorem member?_memberLine {member : String × String} (hname : IsWord member.1)
    (htype : IsTypeText member.2) : member? (memberLine member) = some member := by
  have hcomma : ',' ∉ member.2.toList := fun hmem => absurd (htype _ hmem) (by decide)
  have hwords : List.Forall₂ Ends [": ", ","] [member.1, member.2] :=
    .cons (hname.ends rfl (by decide)) (.cons ⟨',', rfl, hcomma⟩ .nil)
  rw [member?, memberLine, lineWords?_spell hwords]

end Bindings

/-! ### Declarations -/

namespace Declaration

open Bindings

/-- The structure of a declaration. -/
def shape (declaration : Declaration) : Structure :=
  ⟨declaration.name, declaration.align, declaration.members⟩

/-- What a declaration asserts. -/
def assertions (declaration : Declaration) : List Assertion :=
  .size declaration.name declaration.size :: .align declaration.name declaration.align ::
    declaration.offsets.map fun entry => .offset declaration.name entry.1 entry.2

/-- The items that a declaration stands for. -/
def items (declaration : Declaration) : List Item :=
  .record declaration.shape :: declaration.assertions.map .assertion

end Declaration

namespace Bindings

variable {d : Declaration}

/-- The lines of a structure. -/
def structureLines (s : Structure) : List String :=
  (structureFront ++ spell ["))]"] [toString s.align]) :: "#[derive(Debug, Clone, Copy)]" ::
    ("pub struct " ++ spell [" \x7b"] [s.name]) :: (s.members.map memberLine ++ ["\x7d"])

/-- The lines between a structure and the assertions about it. -/
def constantLines (name : String) : List String :=
  ["",
   "impl " ++ name ++ " \x7b",
   "    pub const STATIC_TYPE_ID: TypeId = TypeId::" ++ name ++ ";",
   "\x7d",
   ""]

theorem declarationLines_eq (d : Declaration) :
    declarationLines d = [""] ++ (structureLines d.shape ++
      (constantLines d.name ++ d.assertions.map Assertion.line)) := by
  have hmember : memberLine = fun member : String × String =>
      "    pub " ++ member.1 ++ ": " ++ member.2 ++ "," := by
    funext member
    simp only [memberLine, spell, String.append_assoc, String.append_empty]
  simp only [declarationLines, structureLines, constantLines, Declaration.shape,
    Declaration.assertions, Assertion.line, hmember, structureFront, sizeFront, alignFront,
    offsetFront, spell, List.map_cons, List.map_map, Function.comp_def, String.append_assoc,
    String.append_empty, List.append_assoc, List.cons_append, List.nil_append]

theorem memberLine_ne (member : String × String) : memberLine member ≠ "\x7d" :=
  append_ne (by decide) _

/-- **A structure can be read back.** -/
theorem structure?_structureLines {s : Structure} (hname : IsWord s.name)
    (hmembers : ∀ member ∈ s.members, IsWord member.1 ∧ IsTypeText member.2)
    (rest : List String) : structure? (structureLines s ++ rest) = some s := by
  have halign : List.Forall₂ Ends ["))]"] [toString s.align] :=
    .cons ((isWord_toString s.align).ends rfl (by decide)) .nil
  have hhead : List.Forall₂ Ends [" \x7b"] [s.name] :=
    .cons (hname.ends rfl (by decide)) .nil
  have hlines : (s.members.map memberLine ++ ["\x7d"] ++ rest).takeWhile (· ≠ "\x7d") =
      s.members.map memberLine := by
    rw [List.append_assoc, List.takeWhile_append_of_pos]
    · simp
    · exact List.forall_mem_map.2 fun member _ => decide_eq_true (memberLine_ne member)
  have hread : (s.members.map memberLine).mapM member? = some s.members :=
    mapM_map_eq_some fun member hmember =>
      member?_memberLine (hmembers member hmember).1 (hmembers member hmember).2
  rw [structureLines, List.cons_append, List.cons_append, List.cons_append, structure?,
    lineWords?_spell halign, lineWords?_spell hhead, hlines, hread]
  simp

example :
    structure? ["#[repr(C, align(16))]", "#[derive(Debug, Clone, Copy)]", "pub struct Circle \x7b",
      "    pub radius: f32,", "    pub transform: Transform,", "\x7d"] =
      some ⟨"Circle", 16, [("radius", "f32"), ("transform", "Transform")]⟩ := by cbv

/-- The lines of a structure behind the first stand for no items. -/
theorem items?_structureLines {s : Structure} (hname : IsWord s.name)
    (hmembers : ∀ member ∈ s.members, IsWord member.1 ∧ IsTypeText member.2)
    (rest : List String) :
    items? (structureLines s ++ rest) = (items? rest).map (.record s :: ·) := by
  have hplain : ∀ line ∈ "#[derive(Debug, Clone, Copy)]" ::
      ("pub struct " ++ spell [" \x7b"] [s.name]) :: (s.members.map memberLine ++ ["\x7d"]),
      Plain line := by
    simp only [List.forall_mem_cons, List.forall_mem_append, List.forall_mem_map]
    exact ⟨by decide, plain_append (by decide) _,
      fun member _ => plain_append (by decide) _, by decide, List.forall_mem_nil _⟩
  have hread := structure?_structureLines hname hmembers rest
  rw [structureLines, List.cons_append] at hread ⊢
  rw [items?, begins_append (begins_self _), if_pos rfl, hread, Option.bind_some,
    items?_plain hplain]

/-- **The items of a declaration can be read back.** -/
theorem items?_declarationLines (h : d.Named) (rest : List String) :
    items? (declarationLines d ++ rest) = (items? rest).map (d.items ++ ·) := by
  have hasserted : ∀ asserted ∈ d.assertions, asserted.Named := by
    simp only [Declaration.assertions, List.forall_mem_cons, List.forall_mem_map]
    exact ⟨h.name, h.name, fun entry hentry => ⟨h.name, h.offsets entry hentry⟩⟩
  have hconstant : ∀ line ∈ constantLines d.name, Plain line := by
    simp only [constantLines, List.forall_mem_cons, String.append_assoc]
    exact ⟨by decide, plain_append (by decide) _, plain_append (by decide) _, by decide,
      by decide, List.forall_mem_nil _⟩
  rw [declarationLines_eq, List.append_assoc, items?_plain (by decide), List.append_assoc,
    items?_structureLines h.name h.members, List.append_assoc, items?_plain hconstant,
    items?_assertions hasserted, Option.map_map]
  rfl

/-- The items of declarations can be read back. -/
theorem items?_declarations {declarations : List Declaration} (h : ∀ d ∈ declarations, d.Named)
    (rest : List String) :
    items? (declarations.flatMap declarationLines ++ rest) =
      (items? rest).map (declarations.flatMap Declaration.items ++ ·) := by
  induction declarations with
  | nil => simp
  | cons d declarations ih =>
      obtain ⟨hd, hdeclarations⟩ := List.forall_mem_cons.1 h
      rw [List.flatMap_cons, List.append_assoc, items?_declarationLines hd, ih hdeclarations,
        Option.map_map, List.flatMap_cons]
      refine congrArg (Option.map · (items? rest)) ?_
      funext items
      exact (List.append_assoc ..).symm

/-! ### The other lines -/

section Plain

variable {bindings : Bindings}

theorem plain_headLines : ∀ line ∈ bindings.headLines, Plain line := by
  simp only [headLines, List.forall_mem_cons, String.append_assoc]
  exact ⟨by decide, by decide, by decide, by decide, plain_append (by decide) _,
    List.forall_mem_nil _⟩

theorem plain_enumerationLines : ∀ line ∈ bindings.enumerationLines, Plain line := by
  simp only [enumerationLines, List.forall_mem_append, List.forall_mem_map, String.append_assoc]
  exact ⟨⟨⟨⟨by decide, fun d _ => plain_append (by decide) _⟩, by decide⟩,
    fun d _ => plain_append (by decide) _⟩, by decide⟩

theorem plain_dispatchLines : ∀ line ∈ bindings.dispatchLines, Plain line := by
  simp only [dispatchLines, List.forall_mem_append, List.forall_mem_map, String.append_assoc]
  exact ⟨⟨by decide, fun d _ => plain_append (by decide) _⟩, by decide⟩

theorem plain_fixupLines (fixup : Fixup) : ∀ line ∈ fixupLines fixup, Plain line := by
  refine forall_mem_fixupLines (by decide) fun arm _ => ?_
  simp only [armLines, List.forall_mem_append, List.forall_mem_map, List.forall_mem_cons,
    String.append_assoc]
  refine ⟨⟨⟨plain_append (by decide) _, by decide, List.forall_mem_nil _⟩, fun slot _ => ?_⟩,
    by decide, List.forall_mem_nil _⟩
  split
  · decide
  · exact plain_append (by decide) _

end Plain

/-! ### The items of bindings -/

/-- The items of lines of bindings are those of their declarations. -/
theorem items?_lines {bindings : Bindings} (h : ∀ d ∈ bindings.declarations, d.Named) :
    items? (bindings.frontLines ++ fixupLines bindings.fixup) =
      some (bindings.declarations.flatMap Declaration.items) := by
  have hfront : ∀ line ∈ bindings.headLines ++ bindings.enumerationLines ++
      bindings.dispatchLines, Plain line := by
    simp only [List.forall_mem_append]
    exact ⟨⟨plain_headLines, plain_enumerationLines⟩, plain_dispatchLines⟩
  have hback : ∀ line ∈ rootLines ++ fixupLines bindings.fixup, Plain line :=
    List.forall_mem_append.2 ⟨by decide, plain_fixupLines bindings.fixup⟩
  rw [frontLines, List.append_assoc, List.append_assoc, items?_plain hfront,
    items?_declarations h, ← List.append_nil (rootLines ++ _), items?_plain hback]
  simp [items?]

/-- **Bindings spell the items of their declarations.** -/
theorem itemsOf?_bindings {registry : Registry} {schema : Schema} (hlists : registry.Lists schema)
    {text : String} (h : registry.bindings = .ok text) :
    itemsOf? text =
      some (registry.types.flatMap fun layout => (Declaration.ofLayout layout).items) := by
  obtain ⟨bindings, hdescribes, rfl⟩ := exists_describes hlists h
  rw [itemsOf?, hdescribes.linesOf?_render, Option.bind_some, items?_lines hdescribes.named,
    hdescribes.declarations, List.flatMap_map]

end Bindings

end ScenePack
