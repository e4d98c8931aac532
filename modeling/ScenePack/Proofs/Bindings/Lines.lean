/-
**The lines of generated text.**

The text of bindings is a list of lines, and no line holds a line break: names are identifiers, and
numbers and digests are made of digits.  So the lines can be read back from the text.  Only one of
them is the head of the fixup.

Main definitions:

* `pieces?`, `between?` — parts of a list;
* `linesOf?` — the lines of a text;
* `Bindings.IsWord`, `Bindings.IsTypeText` — texts with the characters of names and of types;
* `Bindings.Bindable` — layouts whose names allow bindings;
* `Fixup.head` — the line with which the fixup begins;
* `Declaration.Named`, `Declaration.Spelled` — declarations whose names are words, and those whose
  names take no more than a line;
* `Bindings.Describes` — the bindings that a registry has.

Main results:

* `linesOf?_join` — **lines without line breaks can be read back**;
* `Bindings.beforeFixup_frontLines` — no line in front of the fixup is its head;
* `Bindings.linesOf?_render` — **the lines of bindings can be read back from their text**.
-/

import Mathlib.Data.List.Basic
import ScenePack.Bindings.Text
import ScenePack.Proofs.Layout.Construction
import ScenePack.Proofs.Text

set_option relaxedAutoImplicit false
set_option autoImplicit false

namespace ScenePack

/-! ### Parts of a list -/

section Parts

variable {α : Type} [DecidableEq α]

/-- The pieces of a list that each end with a separator, `none` if more follows. -/
def pieces? (separator : α) (list : List α) : Option (List (List α)) :=
  let parts := list.splitOn separator
  if parts.getLast? = some [] then some parts.dropLast else none

/-- What stands between a front and a back in a list. -/
def between? (front back list : List α) : Option (List α) :=
  (list.dropPrefix? front).bind fun rest => rest.dropSuffix? back

/-- **Pieces without the separator can be read back.** -/
theorem pieces?_flatMap {separator : α} {pieces : List (List α)}
    (h : ∀ piece ∈ pieces, separator ∉ piece) :
    pieces? separator (pieces.flatMap fun piece => piece ++ [separator]) = some pieces := by
  -- separators stand between the pieces and an empty one at the end
  have hseparators : (pieces.flatMap fun piece => piece ++ [separator]) =
      [separator].intercalate (pieces ++ [[]]) := by
    clear h
    induction pieces with
    | nil => rfl
    | cons piece rest ih =>
        rw [List.flatMap_cons, ih, List.cons_append]
        cases rest with
        | nil => exact List.intercalate_cons_cons.symm
        | cons next rest => exact List.intercalate_cons_cons.symm
  have hparts : ([separator].intercalate (pieces ++ [[]])).splitOn separator = pieces ++ [[]] := by
    refine List.splitOn_intercalate separator (fun piece hpiece => ?_) (by simp)
    rcases List.mem_append.1 hpiece with hpiece | hpiece
    · exact h piece hpiece
    · rw [List.mem_singleton.1 hpiece]
      exact List.not_mem_nil
  rw [pieces?, hseparators, hparts, List.getLast?_concat, if_pos rfl, List.dropLast_concat]

/-- **The middle of a list can be read back.** -/
theorem between?_append (front middle back : List α) :
    between? front back (front ++ middle ++ back) = some middle := by
  have hfront : (front ++ middle ++ back).dropPrefix? front = some (middle ++ back) :=
    List.dropPrefix?_eq_some_iff.2 ⟨front, by simp, by simp⟩
  rw [between?, hfront]
  exact List.dropSuffix?_eq_some_iff.2 ⟨back, rfl, by simp⟩

end Parts

/-- Items that can be read back one by one can be read back together. -/
theorem mapM_map_eq_some {α β : Type} {write : β → α} {read : α → Option β} {items : List β}
    (h : ∀ item ∈ items, read (write item) = some item) :
    (items.map write).mapM read = some items := by
  induction items with
  | nil => rfl
  | cons item rest ih =>
      obtain ⟨hitem, hrest⟩ := List.forall_mem_cons.1 h
      rw [List.map_cons, List.mapM_cons, hitem, ih hrest]
      rfl

/-! ### Lines -/

/-- The lines of a text, `none` if the last one has no end. -/
def linesOf? (text : String) : Option (List String) :=
  (pieces? '\n' text.toList).map (List.map String.ofList)

/-- A text without a line break. -/
def OneLine (text : String) : Prop := '\n' ∉ text.toList

-- the bytes of a text are cheaper to go through than its characters
instance : DecidablePred OneLine := fun text =>
  decidable_of_iff (UInt8.ofNat '\n'.val.toNat ∉ Utf8.encode text)
    (not_congr (Utf8.mem_encode_iff (by decide)))

theorem oneLine_append_iff {front back : String} :
    OneLine (front ++ back) ↔ OneLine front ∧ OneLine back := by
  rw [OneLine, String.toList_append, List.mem_append, not_or]
  rfl

theorem oneLine_toString (number : Nat) : OneLine (toString number) := by
  intro h
  rw [Nat.toString_eq_ofList_toDigits, String.toList_ofList] at h
  exact absurd (Nat.isDigit_of_mem_toDigits (by decide) (by decide) h) (by decide)

/-- **Lines without line breaks can be read back.** -/
theorem linesOf?_join {lines : List String} (h : ∀ line ∈ lines, OneLine line) :
    linesOf? (String.join (lines.map fun line => line ++ "\n")) = some lines := by
  have hbreak : "\n".toList = ['\n'] := by decide
  have hpieces : (String.join (lines.map fun line => line ++ "\n")).toList =
      (lines.map String.toList).flatMap fun line => line ++ ['\n'] := by
    rw [String.toList_join, List.flatMap_map, List.flatMap_map]
    refine List.flatMap_congr fun line _ => ?_
    rw [String.toList_append, hbreak]
  rw [linesOf?, hpieces, pieces?_flatMap (List.forall_mem_map.2 h), Option.map_some, List.map_map]
  exact congrArg some
    ((List.map_congr_left fun line _ => String.ofList_toList).trans (List.map_id lines))

/-- A line with another front is another line. -/
theorem append_ne {front line : String} (h : ¬Utf8.encode front <+: Utf8.encode line)
    (back : String) : front ++ back ≠ line := by
  rintro rfl
  rw [Utf8.encode_append] at h
  exact h (List.prefix_append _ _)

/-! ### Names -/

/-- The target of a kind is changed with it. -/
theorem FieldKind.target?_map {α β : Type} (f : α → β) (kind : FieldKind α) :
    (kind.map f).target? = kind.target?.map f := by
  cases kind <;> rfl

namespace Bindings

/-- A text made of the characters of identifiers and of the mark of raw ones. -/
def IsWord (text : String) : Prop :=
  ∀ c ∈ text.toList, continuesIdentifier c = true ∨ c = '#'

/-- A text made of the characters of the types that hold fields. -/
def IsTypeText (text : String) : Prop :=
  ∀ c ∈ text.toList, continuesIdentifier c = true ∨ c ∈ ['*', ' ', ':']

theorem IsWord.oneLine {text : String} (h : IsWord text) : OneLine text :=
  fun hbreak => absurd (h _ hbreak) (by decide)

theorem isWord_hex (bytes : Bytes) : IsWord (Hex.ofBytes bytes) := by
  have hdigit : ∀ value : Fin 16, continuesIdentifier (Hex.digit value) = true := by decide
  intro c hc
  rw [Hex.ofBytes, String.toList_ofList, List.mem_flatMap] at hc
  obtain ⟨byte, -, hbyte⟩ := hc
  have hlt := byte.toNat_lt
  simp only [List.mem_cons, List.not_mem_nil, or_false] at hbyte
  rcases hbyte with rfl | rfl
  · exact .inl (hdigit ⟨byte.toNat / 16, by omega⟩)
  · exact .inl (hdigit ⟨byte.toNat % 16, by omega⟩)

theorem IsTypeText.oneLine {text : String} (h : IsTypeText text) : OneLine text :=
  fun hbreak => absurd (h _ hbreak) (by decide)

theorem continues_of_isIdentifier {name : String} (h : isIdentifier name = true) :
    ∀ c ∈ name.toList, continuesIdentifier c = true := by
  rw [isIdentifier] at h
  cases hname : name.toList with
  | nil => exact nofun
  | cons c rest =>
      rw [hname] at h
      simp only [Bool.and_eq_true, List.all_eq_true] at h
      obtain ⟨⟨hstart, hrest⟩, -⟩ := h
      refine List.forall_mem_cons.2 ⟨?_, hrest⟩
      simp only [startsIdentifier, Bool.or_eq_true] at hstart
      simp only [continuesIdentifier, Char.isAlphanum, Bool.or_eq_true]
      exact hstart.imp_left .inl

theorem isWord_of_isIdentifier {name : String} (h : isIdentifier name = true) : IsWord name :=
  fun c hc => .inl (continues_of_isIdentifier h c hc)

theorem isWord_fieldName {name : String} (h : isIdentifier name = true) :
    IsWord (fieldName name) := by
  have hname := isWord_of_isIdentifier h
  rw [fieldName]
  split
  · have hmark : ∀ c ∈ "r#".toList, continuesIdentifier c = true ∨ c = '#' := by
      simp [continuesIdentifier]
    intro c hc
    rw [String.toList_append] at hc
    exact (List.mem_append.1 hc).elim (hmark c) (hname c)
  · exact hname

theorem isTypeText_storageType {kind : FieldKind String}
    (h : ∀ target, kind.target? = some target → isIdentifier target = true) :
    IsTypeText (storageType kind) := by
  cases kind with
  | scalar type =>
      cases type <;> simp [IsTypeText, storageType, ScalarType.name, continuesIdentifier]
  | text => simp [IsTypeText, storageType, continuesIdentifier]
  | component target => exact fun c hc => .inl (continues_of_isIdentifier (h target rfl) c hc)
  | ref target =>
      have hfront : ∀ c ∈ "*const ".toList,
          continuesIdentifier c = true ∨ c ∈ ['*', ' ', ':'] := by simp [continuesIdentifier]
      intro c hc
      rw [storageType, String.toList_append] at hc
      rcases List.mem_append.1 hc with hc | hc
      · exact hfront c hc
      · exact .inl (continues_of_isIdentifier (h target rfl) c hc)

/-- The layouts that can be bound: their names are identifiers, and the type is named neither by a
keyword nor by a name that the bindings need themselves. -/
structure Bindable (layout : RecordLayout) : Prop where
  name : isIdentifier layout.name = true
  free : (reserved.contains layout.name || keywords.contains layout.name) = false
  fields : ∀ field ∈ layout.fields, isIdentifier field.name = true

theorem Bindable.not_keyword {layout : RecordLayout} (h : Bindable layout) :
    layout.name ∉ keywords := by
  have hfree := (Bool.or_eq_false_iff.1 h.free).2
  simpa using hfree

theorem Bindable.not_reserved {layout : RecordLayout} (h : Bindable layout) :
    layout.name ∉ reserved := by
  have hfree := (Bool.or_eq_false_iff.1 h.free).1
  simpa using hfree

theorem checkIdentifier_eq_ok_iff {name : String} :
    checkIdentifier name = .ok () ↔ isIdentifier name = true := by
  rw [checkIdentifier]
  split
  · next h => simp [h]
  · next h => simp [h]

/-- The check of a layout passes exactly if it can be bound. -/
theorem checkLayout_eq_ok_iff {layout : RecordLayout} :
    checkLayout layout = .ok () ↔ Bindable layout := by
  rw [checkLayout, bind_eq_ok_iff]
  constructor
  · rintro ⟨⟨⟩, hname, h⟩
    split at h
    · cases h
    · next hfree =>
        refine ⟨checkIdentifier_eq_ok_iff.1 hname, by simpa using hfree, fun field hfield => ?_⟩
        exact checkIdentifier_eq_ok_iff.1 (forM_eq_ok_iff.1 h field hfield)
  · rintro ⟨hname, hfree, hfields⟩
    refine ⟨(), checkIdentifier_eq_ok_iff.2 hname, ?_⟩
    rw [hfree]
    exact forM_eq_ok_iff.2 fun field hfield => checkIdentifier_eq_ok_iff.2 (hfields field hfield)

/-- **When a registry has bindings**, and which. -/
theorem ofRegistry_eq_ok_iff {registry : Registry} {bindings : Bindings} :
    ofRegistry registry = .ok bindings ↔
      registry.types ≠ [] ∧ (∀ layout ∈ registry.types, Bindable layout) ∧
        bindings = ⟨registry.fingerprint, registry.types.map Declaration.ofLayout,
          Fixup.ofRegistry registry⟩ := by
  rw [ofRegistry]
  constructor
  · intro h
    split at h
    · cases h
    · next hempty =>
        obtain ⟨⟨⟩, hchecks, hok⟩ := bind_eq_ok_iff.1 h
        cases hok
        refine ⟨by simpa using hempty, fun layout hlayout => ?_, rfl⟩
        exact checkLayout_eq_ok_iff.1 (forM_eq_ok_iff.1 hchecks layout hlayout)
  · rintro ⟨hempty, hbindable, rfl⟩
    rw [if_neg (by simpa using hempty)]
    exact bind_eq_ok_iff.2 ⟨(), forM_eq_ok_iff.2 fun layout hlayout =>
      checkLayout_eq_ok_iff.2 (hbindable layout hlayout), rfl⟩

end Bindings

/-- The text of the bindings of a registry is written from them. -/
theorem Registry.bindings_eq_ok_iff {registry : Registry} {text : String} :
    registry.bindings = .ok text ↔
      ∃ bindings, Bindings.ofRegistry registry = .ok bindings ∧ bindings.render = text := by
  rw [Registry.bindings]
  cases Bindings.ofRegistry registry with
  | error error => simp [Except.map]
  | ok bindings => simp [Except.map]

theorem Registry.exists_bindings {registry : Registry} (htypes : registry.types ≠ [])
    (hchecks : ∀ layout ∈ registry.types, Bindings.checkLayout layout = .ok ()) :
    ∃ text, registry.bindings = .ok text :=
  ⟨_, bindings_eq_ok_iff.2 ⟨_, Bindings.ofRegistry_eq_ok_iff.2 ⟨htypes, fun layout hlayout =>
    Bindings.checkLayout_eq_ok_iff.1 (hchecks layout hlayout), rfl⟩, rfl⟩⟩

theorem Sample.exists_bindings : ∃ text, Sample.registry.bindings = .ok text :=
  Registry.exists_bindings (by decide)
    (List.forall_mem_cons.2 ⟨rfl, List.forall_mem_cons.2 ⟨rfl, nofun⟩⟩)

/-! ### The lines of bindings -/

/-- The line with which the fixup begins. -/
def Fixup.head : String := "pub unsafe fn to_scene(data: *mut u8) -> *const Scene \x7b"

/-- A line that is not the head of the fixup. -/
def BeforeFixup (line : String) : Prop := OneLine line ∧ line ≠ Fixup.head

instance : DecidablePred BeforeFixup := fun line =>
  inferInstanceAs (Decidable (OneLine line ∧ line ≠ Fixup.head))

/-- A line with a front of its own is not the head of the fixup. -/
theorem beforeFixup_append {front back : String}
    (hfront : OneLine front ∧ ¬Utf8.encode front <+: Utf8.encode Fixup.head)
    (hback : OneLine back) :
    BeforeFixup (front ++ back) :=
  ⟨oneLine_append_iff.2 ⟨hfront.1, hback⟩, append_ne hfront.2 back⟩

/-- A declaration whose names are words, and whose types have the characters of types. -/
structure Declaration.Named (declaration : Declaration) : Prop where
  name : Bindings.IsWord declaration.name
  members : ∀ member ∈ declaration.members,
    Bindings.IsWord member.1 ∧ Bindings.IsTypeText member.2
  offsets : ∀ entry ∈ declaration.offsets, Bindings.IsWord entry.1

/-- A declaration whose names take no more than a line. -/
structure Declaration.Spelled (declaration : Declaration) : Prop where
  name : OneLine declaration.name
  members : ∀ member ∈ declaration.members, OneLine member.1 ∧ OneLine member.2
  offsets : ∀ entry ∈ declaration.offsets, OneLine entry.1

/-- Words and types take no more than a line. -/
theorem Declaration.Named.spelled {declaration : Declaration} (h : declaration.Named) :
    declaration.Spelled where
  name := h.name.oneLine
  members := fun member hmember => (h.members member hmember).imp (·.oneLine) (·.oneLine)
  offsets := fun entry hentry => (h.offsets entry hentry).oneLine

namespace Bindings

theorem exists_bindable_target {registry : Registry} {schema : Schema}
    (hlists : registry.Lists schema)
    (hbindable : ∀ layout ∈ registry.types, Bindable layout) {layout : RecordLayout}
    (hlayout : layout ∈ registry.types) {field : FieldLayout} (hfield : field ∈ layout.fields)
    {name : String} (hname : (field.kind.map Target.name).target? = some name) :
    ∃ inner ∈ registry.types, Bindable inner ∧ inner.name = name := by
  rw [FieldKind.target?_map] at hname
  obtain ⟨target, htarget, rfl⟩ := Option.map_eq_some_iff.1 hname
  obtain ⟨inner, hinner, hsame⟩ :=
    (hlists.lookup_iff _ _).1 (hlists.target layout hlayout field hfield target htarget)
  have hmem := List.mem_of_getElem? hinner
  exact ⟨inner, hmem, hbindable inner hmem, hsame⟩

theorem named_of_bindable {registry : Registry} {schema : Schema}
    (hlists : registry.Lists schema)
    (hbindable : ∀ layout ∈ registry.types, Bindable layout) {layout : RecordLayout}
    (hlayout : layout ∈ registry.types) : (Declaration.ofLayout layout).Named := by
  have hfields := (hbindable layout hlayout).fields
  have hstorage : ∀ field ∈ layout.fields,
      IsTypeText (storageType (field.kind.map Target.name)) := by
    intro field hfield
    refine isTypeText_storageType fun name hname => ?_
    obtain ⟨inner, -, hinner, rfl⟩ := exists_bindable_target hlists hbindable hlayout hfield hname
    exact hinner.name
  refine ⟨isWord_of_isIdentifier (hbindable layout hlayout).name, ?_, ?_⟩
  · intro member hmember
    simp only [Declaration.ofLayout] at hmember
    split at hmember
    · rw [List.mem_singleton.1 hmember]
      exact ⟨isWord_of_isIdentifier (by decide),
        @isTypeText_storageType (.scalar .u8) nofun⟩
    · obtain ⟨field, hfield, rfl⟩ := List.mem_map.1 hmember
      exact ⟨isWord_fieldName (hfields field hfield), hstorage field hfield⟩
  · intro entry hentry
    obtain ⟨field, hfield, rfl⟩ := List.mem_map.1 hentry
    exact isWord_fieldName (hfields field hfield)

/-- The lines in front of the fixup. -/
def frontLines (bindings : Bindings) : List String :=
  bindings.headLines ++ bindings.enumerationLines ++ bindings.dispatchLines ++
    bindings.declarations.flatMap declarationLines ++ rootLines

section Front

variable {bindings : Bindings}

theorem beforeFixup_headLines (h : OneLine bindings.fingerprint) :
    ∀ line ∈ bindings.headLines, BeforeFixup line := by
  simp only [headLines, List.forall_mem_cons, String.append_assoc]
  exact ⟨by decide, by decide, by decide, by decide,
    beforeFixup_append (by decide) (oneLine_append_iff.2 ⟨h, by decide⟩), nofun⟩

theorem beforeFixup_enumerationLines (h : ∀ d ∈ bindings.declarations, d.Spelled) :
    ∀ line ∈ bindings.enumerationLines, BeforeFixup line := by
  simp only [enumerationLines, List.forall_mem_append, List.forall_mem_map, String.append_assoc]
  refine ⟨⟨⟨⟨by decide, fun d hd => ?_⟩, by decide⟩, fun d hd => ?_⟩, by decide⟩
  · refine beforeFixup_append (by decide) ?_
    simp only [oneLine_append_iff]
    exact ⟨(h d hd).name, by decide, oneLine_toString _, by decide⟩
  · refine beforeFixup_append (by decide) ?_
    simp only [oneLine_append_iff]
    exact ⟨oneLine_toString _, by decide, (h d hd).name, by decide⟩

theorem beforeFixup_dispatchLines (h : ∀ d ∈ bindings.declarations, d.Spelled) :
    ∀ line ∈ bindings.dispatchLines, BeforeFixup line := by
  simp only [dispatchLines, List.forall_mem_append, List.forall_mem_map, String.append_assoc]
  refine ⟨⟨by decide, fun d hd => ?_⟩, by decide⟩
  exact beforeFixup_append (by decide) (oneLine_append_iff.2 ⟨(h d hd).name, by decide⟩)

theorem beforeFixup_declarationLines {d : Declaration} (h : d.Spelled) :
    ∀ line ∈ declarationLines d, BeforeFixup line := by
  simp only [declarationLines, List.forall_mem_append, List.forall_mem_map,
    List.forall_mem_cons, String.append_assoc]
  refine ⟨⟨⟨⟨by decide, ?_, by decide, ?_, nofun⟩, fun member hmember => ?_⟩, by decide, by decide,
    ?_, ?_, by decide, by decide, ?_, ?_, nofun⟩, fun entry hentry => ?_⟩
  · exact beforeFixup_append (by decide) (oneLine_append_iff.2 ⟨oneLine_toString _, by decide⟩)
  · exact beforeFixup_append (by decide) (oneLine_append_iff.2 ⟨h.name, by decide⟩)
  · obtain ⟨hname, htype⟩ := h.members member hmember
    refine beforeFixup_append (by decide) ?_
    simp only [oneLine_append_iff]
    exact ⟨hname, by decide, htype, by decide⟩
  · exact beforeFixup_append (by decide) (oneLine_append_iff.2 ⟨h.name, by decide⟩)
  · exact beforeFixup_append (by decide) (oneLine_append_iff.2 ⟨h.name, by decide⟩)
  · refine beforeFixup_append (by decide) ?_
    simp only [oneLine_append_iff]
    exact ⟨h.name, by decide, oneLine_toString _, by decide⟩
  · refine beforeFixup_append (by decide) ?_
    simp only [oneLine_append_iff]
    exact ⟨h.name, by decide, oneLine_toString _, by decide⟩
  · refine beforeFixup_append (by decide) ?_
    simp only [oneLine_append_iff]
    exact ⟨h.name, by decide, h.offsets entry hentry, by decide, oneLine_toString _, by decide⟩

/-- **No line in front of the fixup is its head.** -/
theorem beforeFixup_frontLines (hfingerprint : OneLine bindings.fingerprint)
    (h : ∀ d ∈ bindings.declarations, d.Spelled) :
    ∀ line ∈ bindings.frontLines, BeforeFixup line := by
  simp only [frontLines, List.forall_mem_append, List.forall_mem_flatMap]
  exact ⟨⟨⟨⟨beforeFixup_headLines hfingerprint, beforeFixup_enumerationLines h⟩,
    beforeFixup_dispatchLines h⟩, fun d hd => beforeFixup_declarationLines (h d hd)⟩, by decide⟩

end Front

/-- What holds of the lines that all fixups have, and of those of its arms, holds of every line of a
fixup. -/
theorem forall_mem_fixupLines {holds : String → Prop} {fixup : Fixup}
    (hfixed : ∀ line ∈ fixupLines [⟨0, []⟩], holds line)
    (harm : ∀ arm ∈ fixup, ∀ line ∈ armLines arm, holds line) :
    ∀ line ∈ fixupLines fixup, holds line := by
  cases fixup with
  | nil =>
      intro line hline
      refine hfixed line ?_
      simp only [fixupLines, armsLines, rebaseLines, List.mem_append] at hline ⊢
      tauto
  | cons arm rest =>
      simp only [fixupLines, armsLines, rebaseLines, List.isEmpty_cons, Bool.false_eq_true,
        if_false, List.forall_mem_append, List.forall_mem_flatMap] at hfixed ⊢
      obtain ⟨⟨⟨hopening, ⟨hchoice, -⟩, hothers⟩, hclosing⟩, hrebase⟩ := hfixed
      exact ⟨⟨⟨hopening, ⟨hchoice, harm⟩, hothers⟩, hclosing⟩, hrebase⟩

theorem oneLine_fixupLines (fixup : Fixup) : ∀ line ∈ fixupLines fixup, OneLine line := by
  refine forall_mem_fixupLines (by decide) fun arm _ => ?_
  simp only [armLines, List.forall_mem_append, List.forall_mem_map, List.forall_mem_cons,
    oneLine_append_iff]
  refine ⟨⟨⟨⟨⟨by decide, oneLine_toString _⟩, by decide⟩, by decide, nofun⟩, fun slot _ => ?_⟩,
    by decide, nofun⟩
  split
  · decide
  · simp only [oneLine_append_iff]
    exact ⟨⟨by decide, oneLine_toString _⟩, by decide⟩

/-- **The lines of bindings can be read back from their text.** -/
theorem linesOf?_render {bindings : Bindings} (hfingerprint : OneLine bindings.fingerprint)
    (h : ∀ d ∈ bindings.declarations, d.Spelled) :
    linesOf? bindings.render = some (bindings.frontLines ++ fixupLines bindings.fixup) := by
  refine linesOf?_join fun line hline => ?_
  rcases List.mem_append.1 hline with hline | hline
  · exact (beforeFixup_frontLines hfingerprint h line hline).1
  · exact oneLine_fixupLines bindings.fixup line hline

/-! ### The bindings of a registry -/

/-- The bindings that a registry has. -/
structure Describes (bindings : Bindings) (registry : Registry) : Prop where
  bindable : ∀ layout ∈ registry.types, Bindable layout
  fingerprint : bindings.fingerprint = registry.fingerprint
  declarations : bindings.declarations = registry.types.map Declaration.ofLayout
  fixup : bindings.fixup = Fixup.ofRegistry registry
  named : ∀ d ∈ bindings.declarations, d.Named

/-- A text of bindings is written from the bindings of its registry. -/
theorem exists_describes {registry : Registry} {schema : Schema} (hlists : registry.Lists schema)
    {text : String} (h : registry.bindings = .ok text) :
    ∃ bindings : Bindings, bindings.Describes registry ∧ bindings.render = text := by
  obtain ⟨bindings, hbindings, hrender⟩ := Registry.bindings_eq_ok_iff.1 h
  obtain ⟨-, hbindable, rfl⟩ := ofRegistry_eq_ok_iff.1 hbindings
  exact ⟨_, ⟨hbindable, rfl, rfl, rfl, List.forall_mem_map.2 fun layout hlayout =>
    named_of_bindable hlists hbindable hlayout⟩, hrender⟩

namespace Describes

variable {bindings : Bindings} {registry : Registry}

theorem isWord_fingerprint (h : bindings.Describes registry) : IsWord bindings.fingerprint :=
  h.fingerprint ▸ isWord_hex _

theorem spelled (h : bindings.Describes registry) : ∀ d ∈ bindings.declarations, d.Spelled :=
  fun d hd => (h.named d hd).spelled

/-- No line in front of the fixup of a registry is its head. -/
theorem beforeFixup (h : bindings.Describes registry) :
    ∀ line ∈ bindings.frontLines, BeforeFixup line :=
  beforeFixup_frontLines h.isWord_fingerprint.oneLine h.spelled

/-- The lines of the bindings of a registry can be read back from their text. -/
theorem linesOf?_render (h : bindings.Describes registry) :
    linesOf? bindings.render = some (bindings.frontLines ++ fixupLines bindings.fixup) :=
  Bindings.linesOf?_render h.isWord_fingerprint.oneLine h.spelled

end Describes

end Bindings

end ScenePack
