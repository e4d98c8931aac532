/-
**The layout of the declared structures.**

Whoever compiles bindings lays their structures out by the rules of the language: a member stands at
the least multiple of its alignment that is not before the end of the member in front of it, a
structure is as aligned as it asks for and as its most aligned member, and it is as large as the
least multiple of its alignment that covers its members.  A member that is a structure itself has
the size and the alignment that the rules give it.  Here the rules are stated on their own, over the
structures that are read from a text, and the layouts of a registry are compared with them.

Main definitions:

* `Bindings.LeastMultiple` — the least multiple of an alignment from a position on;
* `Bindings.Sized`, `Bindings.Placed`, `Bindings.Laid` — the rules, for types, members and
  structures;
* `RecordLayout.Follows` — a layout that follows the rules;
* `Bindings.Assertion.Holds` — what an assertion says of the layouts by the rules;
* `Bindings.LaidAs` — a structure that the rules lay out as a given layout.

Main results:

* `Bindings.Laid.unique` — **the rules give a structure one layout**;
* `Registry.follows_of_build` — **the layouts of a registry follow the rules**;
* `Registry.bindings_laid` — **the structures that bindings spell have the layouts of the
  registry**, and what they assert holds.
-/

import ScenePack.Proofs.Bindings.StructText
import ScenePack.Proofs.Layout.Construction

set_option relaxedAutoImplicit false
set_option autoImplicit false

namespace ScenePack

namespace Bindings

/-! ### The rules -/

/-- The least multiple of an alignment that is not before a position. -/
structure LeastMultiple (align low value : Nat) : Prop where
  dvd : align ∣ value
  le : low ≤ value
  least : ∀ other, align ∣ other → low ≤ other → value ≤ other

theorem LeastMultiple.unique {align low value other : Nat} (h : LeastMultiple align low value)
    (hother : LeastMultiple align low other) : value = other :=
  Nat.le_antisymm (h.least other hother.dvd hother.le) (hother.least value h.dvd h.le)

/-- The number types of the language, which are as aligned as they are large. -/
def primitives : List (String × Nat) :=
  [("i8", 1), ("u8", 1), ("i16", 2), ("u16", 2), ("i32", 4), ("u32", 4), ("i64", 8), ("u64", 8),
    ("f32", 4), ("f64", 8)]

/-- The size of a pointer, to which it is aligned. -/
def pointerSize : Nat := 8

mutual

/-- The size and the alignment of a type. -/
inductive Sized (structures : List Structure) : (type : String) → (size align : Nat) → Prop
  | primitive {type : String} {size : Nat} (htype : (type, size) ∈ primitives) :
      Sized structures type size size
  | pointer {type target : String} (htype : type = "*const " ++ target) :
      Sized structures type pointerSize pointerSize
  | record {type : String} {s : Structure} {offsets : List (String × Nat)} {size align : Nat}
      (hs : s ∈ structures) (hname : s.name = type) (hlaid : Laid structures s offsets size align) :
      Sized structures type size align

/-- Members from a position on: their offsets, the end of the last one, and the greatest of their
alignments. -/
inductive Placed (structures : List Structure) :
    (start : Nat) → (members : List (String × String)) → (offsets : List (String × Nat)) →
      (stop greatest : Nat) → Prop
  | nil {start : Nat} : Placed structures start [] [] start 1
  | cons {start : Nat} {name type : String} {members : List (String × String)}
      {offsets : List (String × Nat)} {offset size align stop greatest : Nat}
      (hsized : Sized structures type size align) (hoffset : LeastMultiple align start offset)
      (hrest : Placed structures (offset + size) members offsets stop greatest) :
      Placed structures start ((name, type) :: members) ((name, offset) :: offsets) stop
        (max align greatest)

/-- The layout of a structure: the offsets of its members, its size and its alignment. -/
inductive Laid (structures : List Structure) :
    (s : Structure) → (offsets : List (String × Nat)) → (size align : Nat) → Prop
  | intro {s : Structure} {offsets : List (String × Nat)} {stop greatest size align : Nat}
      (hplaced : Placed structures 0 s.members offsets stop greatest)
      (halign : align = max s.align greatest) (hsize : LeastMultiple align stop size) :
      Laid structures s offsets size align

end

/-! ### One layout -/

/-- Structures whose names are told apart from each other and from the other types. -/
structure Unambiguous (structures : List Structure) : Prop where
  nodup : (structures.map Structure.name).Nodup
  primitive : ∀ s ∈ structures, ∀ size, (s.name, size) ∉ primitives
  pointer : ∀ s ∈ structures, ∀ target, s.name ≠ "*const " ++ target

theorem size_of_primitives {type : String} {size other : Nat} (h : (type, size) ∈ primitives)
    (hother : (type, other) ∈ primitives) : size = other := by
  have hnodup : (primitives.map Prod.fst).Nodup := by decide
  exact Option.some.inj ((lookup_of_nodup hnodup h).symm.trans (lookup_of_nodup hnodup hother))

theorem pointer_notMem_primitives (target : String) (size : Nat) :
    ("*const " ++ target, size) ∉ primitives := by
  have hfront : ∀ entry ∈ primitives, ¬Utf8.encode "*const " <+: Utf8.encode entry.1 := by decide
  intro hmem
  exact append_ne (hfront _ hmem) target rfl

section Unique

variable {structures : List Structure}

mutual

/-- A type has one size and one alignment. -/
theorem Sized.unique (hnames : Unambiguous structures) {type : String}
    {size align other otherAlign : Nat} :
    Sized structures type size align → Sized structures type other otherAlign →
      size = other ∧ align = otherAlign
  | .primitive htype, hother => by
      cases hother with
      | primitive hagain =>
          have hsame := size_of_primitives htype hagain
          exact ⟨hsame, hsame⟩
      | pointer hagain => exact absurd (hagain ▸ htype) (pointer_notMem_primitives _ _)
      | record hs hname => exact absurd (hname ▸ htype) (hnames.primitive _ hs _)
  | .pointer htype, hother => by
      cases hother with
      | primitive hagain => exact absurd (htype ▸ hagain) (pointer_notMem_primitives _ _)
      | pointer => exact ⟨rfl, rfl⟩
      | record hs hname => exact absurd (hname.trans htype) (hnames.pointer _ hs _)
  | .record hs hname hlaid, hother => by
      cases hother with
      | primitive hagain => exact absurd (hname ▸ hagain) (hnames.primitive _ hs _)
      | pointer hagain => exact absurd (hname.trans hagain) (hnames.pointer _ hs _)
      | record hs' hname' hlaid' =>
          obtain rfl := List.inj_on_of_nodup_map hnames.nodup hs hs' (hname.trans hname'.symm)
          exact (Laid.unique hnames hlaid hlaid').2

/-- Members are placed in one way. -/
theorem Placed.unique (hnames : Unambiguous structures) {start : Nat}
    {members : List (String × String)} {offsets others : List (String × Nat)}
    {stop greatest otherStop otherGreatest : Nat} :
    Placed structures start members offsets stop greatest →
      Placed structures start members others otherStop otherGreatest →
      offsets = others ∧ stop = otherStop ∧ greatest = otherGreatest
  | .nil, .nil => ⟨rfl, rfl, rfl⟩
  | .cons hsized hoffset hrest, .cons hsized' hoffset' hrest' => by
      obtain ⟨rfl, rfl⟩ := Sized.unique hnames hsized hsized'
      obtain rfl := hoffset.unique hoffset'
      obtain ⟨rfl, rfl, rfl⟩ := Placed.unique hnames hrest hrest'
      exact ⟨rfl, rfl, rfl⟩

/-- **The rules give a structure one layout.** -/
theorem Laid.unique (hnames : Unambiguous structures) {s : Structure}
    {offsets others : List (String × Nat)} {size align other otherAlign : Nat} :
    Laid structures s offsets size align → Laid structures s others other otherAlign →
      offsets = others ∧ size = other ∧ align = otherAlign
  | .intro hplaced halign hsize, .intro hplaced' halign' hsize' => by
      obtain ⟨rfl, rfl, rfl⟩ := Placed.unique hnames hplaced hplaced'
      obtain rfl := halign.trans halign'.symm
      exact ⟨rfl, hsize.unique hsize', rfl⟩

end

end Unique

/-! ### Placed parts -/

/-- Rounding up gives the least multiple. -/
theorem leastMultiple_alignUp {align : Nat} (h : 0 < align) (position : Nat) :
    LeastMultiple align position (alignUp align position) where
  dvd := alignUp_dvd align position
  le := le_alignUp h position
  least := fun other hdvd hle =>
    Nat.le_of_lt_add_of_dvd (Nat.lt_of_lt_of_le (alignUp_lt h position) (by omega))
      (alignUp_dvd align position) hdvd

end Bindings

/-- The member of a structure that stands for a field. -/
def FieldLayout.member (field : FieldLayout) : String × String :=
  (Bindings.fieldName field.name, Bindings.storageType (field.kind.map Target.name))

/-- The offset of the member that stands for a field. -/
def FieldLayout.memberOffset (field : FieldLayout) : String × Nat :=
  (Bindings.fieldName field.name, field.offset)

/-- The structures that a registry is declared with. -/
def Registry.structures (registry : Registry) : List Bindings.Structure :=
  registry.types.map fun layout => (Declaration.ofLayout layout).shape

namespace Bindings

/-- The offsets that the rules give the members of the structure of a layout. -/
def offsetsOf (layout : RecordLayout) : List (String × Nat) :=
  if layout.fields.isEmpty then [(Declaration.placeholder.1, 0)]
  else layout.fields.map FieldLayout.memberOffset

end Bindings

/-- A layout that follows the rules: they give its structure the same offsets, size and
alignment. -/
def RecordLayout.Follows (structures : List Bindings.Structure) (layout : RecordLayout) : Prop :=
  Bindings.Laid structures (Declaration.ofLayout layout).shape (Bindings.offsetsOf layout)
    layout.size layout.align

/-- A part that is as large and as aligned as the rules make the type that holds it. -/
structure Part.Follows (structures : List Bindings.Structure) (part : Part) : Prop where
  sized : Bindings.Sized structures (Bindings.storageType (part.kind.map Target.name))
    part.extent.size part.extent.align
  size_pos : 0 < part.extent.size
  align_pos : 0 < part.extent.align

namespace Bindings

/-- **Parts are placed by the rules**, if they have the sizes that the rules give them. -/
theorem placed_putAll {structures : List Structure} {placement : Placement} {parts : List Part}
    (hparts : ∀ part ∈ parts, part.Follows structures) (halign : 0 < placement.align) :
    ∃ fields greatest,
      (placement.putAll parts).fields = placement.fields ++ fields ∧
      Placed structures placement.endsAt (fields.map FieldLayout.member)
        (fields.map FieldLayout.memberOffset) (placement.putAll parts).endsAt greatest ∧
      (placement.putAll parts).align = max placement.align greatest ∧
      placement.endsAt + fields.length ≤ (placement.putAll parts).endsAt := by
  induction parts generalizing placement with
  | nil => exact ⟨[], 1, by simp, .nil, by simp; omega, by simp⟩
  | cons part rest ih =>
      obtain ⟨⟨hsized, hsize, hpos⟩, hrest⟩ := List.forall_mem_cons.1 hparts
      have hoffset := leastMultiple_alignUp hpos placement.endsAt
      obtain ⟨fields, greatest, hfields, hplaced, hmax, hends⟩ :=
        @ih (placement.put part.name part.kind part.extent) hrest
          (Nat.lt_of_lt_of_le halign (Nat.le_max_left _ _))
      refine ⟨⟨part.name, part.kind, alignUp part.extent.align placement.endsAt,
        part.extent.size, part.extent.align⟩ :: fields, max part.extent.align greatest, ?_,
        .cons hsized hoffset hplaced, ?_, ?_⟩
      · rw [Placement.putAll_cons, hfields]
        simp [Placement.put]
      · rw [Placement.putAll_cons, hmax]
        exact Nat.max_assoc _ _ _
      · have hle := hoffset.le
        simp only [Placement.put, List.length_cons, Placement.putAll_cons] at hends ⊢
        omega

/-- The member of a structure without fields takes one byte. -/
theorem placed_placeholder (structures : List Structure) :
    Placed structures 0 [Declaration.placeholder] [(Declaration.placeholder.1, 0)] 1 1 := by
  have hbyte : (Declaration.placeholder.2, 1) ∈ primitives := by decide
  have hstart : LeastMultiple 1 0 0 := ⟨one_dvd 0, Nat.le_refl 0, fun _ _ _ => Nat.zero_le _⟩
  exact .cons (.primitive hbyte) hstart .nil

/-- **A layout of parts follows the rules if the parts do.** -/
theorem follows_ofParts {structures : List Structure} {config : LayoutConfig} {position : TypeId}
    {depth : Nat} {name : String} {parts : List Part}
    (hparts : ∀ part ∈ parts, part.Follows structures) (hconfig : 0 < config.recordAlign)
    {layout : RecordLayout}
    (hlayout : RecordLayout.ofParts config position depth name parts = layout) :
    layout.Follows structures := by
  obtain ⟨fields, greatest, hfields, hplaced, halign, hends⟩ :=
    @placed_putAll structures (.start config.recordAlign) parts hparts hconfig
  have hall : layout.fields = fields := by
    rw [← hlayout]
    exact hfields
  have hmost : layout.align = max config.recordAlign greatest := by
    rw [← hlayout]
    exact halign
  have hpos : 0 < layout.align := by omega
  have hsize : LeastMultiple layout.align
      (max ((Placement.start config.recordAlign).putAll parts).endsAt 1) layout.size := by
    rw [← hlayout] at hpos ⊢
    exact leastMultiple_alignUp hpos _
  generalize ((Placement.start config.recordAlign).putAll parts).endsAt = stop
    at hplaced hends hsize
  have hmax : layout.align = max layout.align greatest := by omega
  cases fields with
  | nil =>
      -- the placeholder takes the byte that every record has at least
      cases hplaced
      have hplaced : Placed structures 0 (Declaration.ofLayout layout).shape.members
          (offsetsOf layout) 1 1 := by
        simp only [Declaration.shape, Declaration.ofLayout, offsetsOf, hall]
        exact placed_placeholder structures
      exact .intro hplaced hmax hsize
  | cons field rest =>
      rw [List.length_cons] at hends
      rw [Nat.max_eq_left (by omega)] at hsize
      have hplaced : Placed structures 0 (Declaration.ofLayout layout).shape.members
          (offsetsOf layout) stop greatest := by
        simp only [Declaration.shape, Declaration.ofLayout, offsetsOf, hall]
        exact hplaced
      exact .intro hplaced hmax hsize

theorem mem_primitives (type : ScalarType) : (type.name, type.size) ∈ primitives := by
  cases type <;> decide

/-! ### Offsets by name -/

theorem fieldName_inj {name other : String} (h : isIdentifier name = true)
    (hother : isIdentifier other = true) (hsame : fieldName name = fieldName other) :
    name = other := by
  -- the spelling of a keyword has a mark in it, which no identifier has
  have hmark : ∀ {marked plain : String}, isIdentifier plain = true → "r#" ++ marked ≠ plain := by
    rintro marked plain hplain rfl
    refine absurd (continues_of_isIdentifier hplain '#' ?_) (by decide)
    rw [String.toList_append]
    exact List.mem_append_left _ (by simp)
  rw [fieldName, fieldName] at hsame
  split at hsame
  · split at hsame
    · rw [← String.toList_inj, String.toList_append, String.toList_append] at hsame
      exact String.toList_inj.1 (List.append_cancel_left hsame)
    · exact absurd hsame (hmark hother)
  · split at hsame
    · exact absurd hsame.symm (hmark h)
    · exact hsame

theorem lookup_offsetsOf {layout : RecordLayout} (hbindable : Bindable layout)
    (hnodup : (layout.fields.map FieldLayout.name).Nodup) {field : FieldLayout}
    (hfield : field ∈ layout.fields) :
    (offsetsOf layout).lookup (fieldName field.name) = some field.offset := by
  have hnonempty : layout.fields.isEmpty ≠ true :=
    fun hempty => List.ne_nil_of_mem hfield (List.isEmpty_iff.1 hempty)
  rw [offsetsOf, if_neg hnonempty]
  refine lookup_of_nodup ?_ (List.mem_map_of_mem hfield)
  have hnames : (layout.fields.map FieldLayout.memberOffset).map Prod.fst =
      (layout.fields.map FieldLayout.name).map fieldName := by
    rw [List.map_map, List.map_map]
    rfl
  have hidentifiers : ∀ name ∈ layout.fields.map FieldLayout.name, isIdentifier name = true :=
    List.forall_mem_map.2 hbindable.fields
  rw [hnames]
  exact hnodup.map_on fun name hname other hother =>
    fieldName_inj (hidentifiers name hname) (hidentifiers other hother)

end Bindings

/-! ### The layouts of a registry -/

namespace Registry

open Bindings

variable {registry : Registry} {schema : Schema} {config : LayoutConfig}

/-- A part that needs what the registry says follows the rules, if the record that it embeds
does. -/
theorem follows_of_extent? {part : Part} (hextent : registry.extent? part.kind = some part.extent)
    (halign : 0 < part.extent.align)
    (hinner : ∀ target inner, part.kind = .component target →
      registry.layout? target.id = some inner →
        inner.name = target.name ∧ 0 < inner.size ∧ inner.Follows registry.structures) :
    part.Follows registry.structures := by
  obtain ⟨name, kind, extent⟩ := part
  cases kind with
  | scalar type =>
      cases hextent
      exact ⟨.primitive (mem_primitives type), type.size_pos, halign⟩
  | text =>
      cases hextent
      exact ⟨@Sized.pointer _ _ "::core::ffi::c_char" rfl, Nat.succ_pos _, halign⟩
  | ref target =>
      cases hextent
      exact ⟨.pointer rfl, Nat.succ_pos _, halign⟩
  | component target =>
      obtain ⟨inner, hlayout, rfl⟩ := Option.map_eq_some_iff.1 hextent
      obtain ⟨hname, hsize, hfollows⟩ := hinner target inner rfl hlayout
      have hmem : (Declaration.ofLayout inner).shape ∈ registry.structures :=
        List.mem_map_of_mem (List.mem_of_getElem? hlayout)
      exact ⟨.record hmem hname hfollows, hsize, halign⟩

/-- **The layouts of a registry follow the rules.** -/
theorem follows_of_build (h : build schema config = .ok registry) {layout : RecordLayout}
    (hlayout : layout ∈ registry.types) :
    layout.Follows registry.structures := by
  have hunbounded := unbounded_of_build h
  have hsound := sound_of_buildWith hunbounded
  have hrecord : IsAlignment registry.config.recordAlign := by
    obtain ⟨hconfig, -, _, _, -, -, rfl⟩ := buildWith_eq_ok_iff.1 h
    exact config.validate_eq_ok_iff.1 hconfig
  -- the induction is on the depth, which embedded types have less of
  induction hdepth : layout.depth using Nat.strongRecOn generalizing layout with
  | ind depth ih =>
      obtain ⟨type, parts, -, hofParts, hparts, -⟩ := parts_of_buildWith hunbounded layout hlayout
      obtain ⟨position, hposition⟩ := List.mem_iff_getElem?.1 hlayout
      obtain ⟨-, hself⟩ := hsound position layout hposition
      obtain ⟨fields, hfields, hplaced⟩ :=
        @Placement.exists_fields_putAll (.start registry.config.recordAlign) parts
      have hall : layout.fields = fields := by
        rw [← hofParts]
        exact hfields
      refine follows_ofParts (fun part hpart => ?_) hrecord.pos hofParts
      obtain ⟨hknown, halign⟩ := hparts part hpart
      refine follows_of_extent? hknown halign.pos fun target inner htarget hinner => ?_
      -- the part has become a field of the layout
      obtain ⟨field, hfield, offset, -, hsame⟩ := exists_mem_of_forall₂ hplaced.flip hpart
      have hkind : field.kind = .component target := by rw [hsame, htarget]
      obtain ⟨other, hother, hname⟩ :=
        hself.target field (hall ▸ hfield) target (by rw [hkind]; rfl)
      obtain rfl := Option.some.inj (hother.symm.trans hinner)
      have hlt := hself.depth_lt field (hall ▸ hfield) target other hkind hinner
      exact ⟨hname, (hsound target.id other hinner).2.size_pos,
        ih other.depth (hdepth ▸ hlt) (List.mem_of_getElem? hinner) rfl⟩

/-! ### The structures that bindings spell -/

/-- The structures of a registry have names of their own. -/
theorem unambiguous_structures (hlists : registry.Lists schema) (hnamed : schema.WellNamed)
    (hbindable : ∀ layout ∈ registry.types, Bindable layout) :
    Unambiguous registry.structures where
  nodup := by
    have hnames : (registry.structures).map Structure.name =
        (registry.types.map RecordLayout.declares).map ComponentType.name := by
      rw [structures, List.map_map, List.map_map]
      rfl
    rw [hnames]
    exact (hlists.perm.map ComponentType.name).nodup_iff.2 hnamed.types
  primitive := by
    have hreserved : ∀ entry ∈ primitives, reserved.contains entry.1 = true := by decide
    refine List.forall_mem_map.2 fun layout hlayout size hmem => ?_
    have hfree := (hbindable layout hlayout).free
    rw [show reserved.contains layout.name = true from hreserved _ hmem] at hfree
    cases hfree
  pointer := by
    refine List.forall_mem_map.2 fun layout hlayout target hsame => ?_
    have hstar : '*' ∈ layout.name.toList := by
      rw [show layout.name = "*const " ++ target from hsame, String.toList_append]
      exact List.mem_append_left _ (by simp)
    exact absurd (continues_of_isIdentifier (hbindable layout hlayout).name _ hstar) (by decide)

theorem structuresOf_items : structuresOf
    (registry.types.flatMap fun layout => (Declaration.ofLayout layout).items) =
      registry.structures := by
  rw [structuresOf, List.filterMap_flatMap, structures, List.map_eq_flatMap]
  refine List.flatMap_congr fun layout _ => ?_
  have hassertions : ((Declaration.ofLayout layout).assertions.map Item.assertion).filterMap
      Item.record? = [] := by
    rw [List.filterMap_map]
    exact List.filterMap_eq_nil_iff.2 fun _ _ => rfl
  exact congrArg (_ :: ·) hassertions

theorem lookup_offsetsOf_of_mem (hlists : registry.Lists schema) (hnamed : schema.WellNamed)
    {layout : RecordLayout} (hlayout : layout ∈ registry.types) (hbindable : Bindable layout)
    {field : FieldLayout} (hfield : field ∈ layout.fields) :
    (offsetsOf layout).lookup (fieldName field.name) = some field.offset :=
  lookup_offsetsOf hbindable (hlists.nodup_fields hnamed hlayout) hfield

end Registry

namespace Bindings

/-- What an assertion says of the layouts by the rules. -/
def Assertion.Holds (structures : List Structure) : Assertion → Prop
  | .size type value => ∃ align, Sized structures type value align
  | .align type value => ∃ size, Sized structures type size value
  | .offset type member value => ∃ s ∈ structures, s.name = type ∧ ∃ offsets size align,
      Laid structures s offsets size align ∧ offsets.lookup member = some value

/-- A structure that the rules lay out as a layout: they give it one list of offsets, in which
every field has its own, and the size and the alignment of the layout. -/
structure LaidAs (structures : List Structure) (layout : RecordLayout) (s : Structure) : Prop where
  name : s.name = layout.name
  laid : ∃ offsets, (∀ others size align, Laid structures s others size align ↔
      others = offsets ∧ size = layout.size ∧ align = layout.align) ∧
    ∀ field ∈ layout.fields, offsets.lookup (fieldName field.name) = some field.offset

end Bindings

namespace Registry

open Bindings

variable {registry : Registry} {schema : Schema} {config : LayoutConfig}

/-- What a declaration asserts holds. -/
theorem holds_of_mem_assertions (h : build schema config = .ok registry)
    (hoffsets : ∀ layout ∈ registry.types, ∀ field ∈ layout.fields,
      (offsetsOf layout).lookup (fieldName field.name) = some field.offset)
    {layout : RecordLayout} (hlayout : layout ∈ registry.types) :
    ∀ asserted ∈ (Declaration.ofLayout layout).assertions,
      asserted.Holds registry.structures := by
  have hlaid := follows_of_build h hlayout
  have hmem : (Declaration.ofLayout layout).shape ∈ registry.structures :=
    List.mem_map_of_mem hlayout
  refine List.forall_mem_cons.2 ⟨⟨_, .record hmem rfl hlaid⟩,
    List.forall_mem_cons.2 ⟨⟨_, .record hmem rfl hlaid⟩, ?_⟩⟩
  refine List.forall_mem_map.2 (List.forall_mem_map.2 fun field hfield => ?_)
  exact ⟨_, hmem, rfl, _, _, _, hlaid, hoffsets layout hlayout field hfield⟩

/-- **The structures that bindings spell have the layouts of the registry.**  The rules give every
structure of the text the size and the alignment of its type, and every field its offset, so
everything that the text asserts holds. -/
theorem bindings_laid (hexact : registry.Exact) {text : String}
    (htext : registry.bindings = .ok text) : ∃ items, itemsOf? text = some items ∧
      List.Forall₂ (LaidAs (structuresOf items)) registry.types (structuresOf items) ∧
      ∀ asserted, .assertion asserted ∈ items → asserted.Holds (structuresOf items) := by
  obtain ⟨schema, config, hbuild⟩ := hexact
  have hlists := lists_of_build hbuild
  have hnamed : schema.WellNamed := Schema.validate_eq_ok_iff.1 (buildWith_eq_ok_iff.1 hbuild).2.1
  have hbindable : ∀ layout ∈ registry.types, Bindable layout := by
    obtain ⟨bindings, hbindings, -⟩ := bindings_eq_ok_iff.1 htext
    exact (ofRegistry_eq_ok_iff.1 hbindings).2.1
  have hoffsets : ∀ layout ∈ registry.types, ∀ field ∈ layout.fields,
      (offsetsOf layout).lookup (fieldName field.name) = some field.offset :=
    fun layout hlayout field hfield =>
      lookup_offsetsOf_of_mem hlists hnamed hlayout (hbindable layout hlayout) hfield
  have hnames := unambiguous_structures hlists hnamed hbindable
  refine ⟨_, itemsOf?_bindings hlists htext, ?_, ?_⟩
  · rw [structuresOf_items, structures, List.forall₂_map_right_iff, List.forall₂_same]
    intro layout hlayout
    have hlaid := follows_of_build hbuild hlayout
    refine ⟨rfl, offsetsOf layout, fun others size align => ⟨fun h => h.unique hnames hlaid, ?_⟩,
      hoffsets layout hlayout⟩
    rintro ⟨rfl, rfl, rfl⟩
    exact hlaid
  · intro asserted hasserted
    rw [structuresOf_items]
    obtain ⟨layout, hlayout, hmem⟩ := List.mem_flatMap.1 hasserted
    refine holds_of_mem_assertions hbuild hoffsets hlayout asserted ?_
    simpa [Declaration.items] using hmem

/-- The sample has bindings, and the structures that they spell have its layouts. -/
theorem bindings_laid_sample : ∃ text, Sample.registry.Exact ∧
    Sample.registry.bindings = .ok text ∧ ∃ items, itemsOf? text = some items ∧
      List.Forall₂ (LaidAs (structuresOf items)) Sample.registry.types (structuresOf items) ∧
      ∀ asserted, .assertion asserted ∈ items → asserted.Holds (structuresOf items) := by
  obtain ⟨text, htext⟩ := Sample.exists_bindings
  exact ⟨text, Sample.exact, htext, bindings_laid Sample.exact htext⟩

end Registry

end ScenePack
