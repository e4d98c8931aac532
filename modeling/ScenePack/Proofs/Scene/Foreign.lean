/-
**Records of other registries.**

A record keeps the number of its type, and not the registry that it was made with.  A call that sets
a field brings a registry of its own, and takes the layout that has this number there for the layout
of the record.  If that layout has more fields than the record has values, then the field can have
no value that could be replaced.

Main definitions:

* `Record.Assigns`, `Record.Sets` — the place of a field, and what setting it comes to;
* `Value.Sized` — records with as many values as a layout has fields, at any depth;
* `Registry.zeroRecordFor` — a record of zeros for a layout of any origin;
* `Workspace.Use`, `Workspace.useAll` — calls with several registries, one after the other;
* `Workspace.Sized` — what is held has the sizes of layouts.

Main results:

* `Record.sets` — **what setting a field comes to**, for any record and any registry;
* `Workspace.sized_useAll` — **records have the values of the layout that they were made for**;
* `Workspace.sets_of_useAll` — **when a field that is set has no value**;
* `Sample.set_past_values` — a field without a value.
-/

import ScenePack.Proofs.Image.Completed
import ScenePack.Proofs.Scene.Workspace

set_option relaxedAutoImplicit false
set_option autoImplicit false

namespace ScenePack

/-! ### Setting a field with any registry -/

namespace Record

variable {registry : Registry} {record : Record} {field : String} {value : Value}

/-- The place of a field that accepts a value, in the layout that a registry has for the type of a
record. -/
def Assigns (registry : Registry) (record : Record) (field : String) (value : Value)
    (index : Nat) : Prop :=
  ∃ layout placed, registry.layout? record.typeId = some layout ∧
    layout.find? field = some (placed, index) ∧ placed.kind.accepts value = true

theorem Assigns.lt {index : Nat} (h : record.Assigns registry field value index)
    {layout : RecordLayout} (hlayout : registry.layout? record.typeId = some layout) :
    index < layout.fields.length := by
  obtain ⟨_, placed, hsame, hfind, -⟩ := h
  cases hlayout.symm.trans hsame
  exact (List.getElem?_eq_some_iff.1 (RecordLayout.getElem?_of_find? hfind).1).1

/-- A field is set at its place, if the record has a value there. -/
theorem set_of_assigns {index : Nat} (h : record.Assigns registry field value index)
    (hlt : index < record.values.length) :
    record.set registry field value = .ok ⟨record.typeId, record.values.set index value⟩ := by
  obtain ⟨layout, placed, hlayout, hfind, haccepts⟩ := h
  exact set_eq_ok_iff.2 ⟨layout, placed, index, hlayout, hfind, haccepts, hlt, rfl⟩

/-- A field whose place is behind the values has no value. -/
theorem missing_of_assigns {index : Nat} (h : record.Assigns registry field value index)
    (hle : record.values.length ≤ index) :
    ∃ owner, record.set registry field value = .error (.missingValue owner field) := by
  obtain ⟨layout, placed, hlayout, hfind, haccepts⟩ := h
  refine ⟨layout.name, ?_⟩
  rw [set, hlayout]
  dsimp only
  rw [hfind]
  dsimp only
  rw [haccepts, if_neg (by decide), if_pos hle]

/-- A field without a place is not looked for among the values. -/
theorem set_of_not_assigns (h : ∀ index, ¬record.Assigns registry field value index) :
    ∃ error, record.set registry field value = .error error ∧
      ∀ owner name, error ≠ .missingValue owner name := by
  rw [set]
  cases hlayout : registry.layout? record.typeId with
  | none => exact ⟨_, rfl, by simp⟩
  | some layout =>
      dsimp only
      cases hfind : layout.find? field with
      | none => exact ⟨_, rfl, by simp⟩
      | some place =>
          obtain ⟨placed, index⟩ := place
          have hrejects : placed.kind.accepts value = false := by
            by_contra haccepts
            exact h index ⟨layout, placed, hlayout, hfind, by simpa using haccepts⟩
          dsimp only
          rw [hrejects]
          exact ⟨_, rfl, by simp⟩

/-- **What setting a field comes to.**  It replaces the value at the place of the field and leaves
all others alone, or it fails; and it fails for want of a value exactly if the place of the field is
behind the values of the record. -/
def Sets (registry : Registry) (record : Record) (field : String) (value : Value) : Prop :=
  match record.set registry field value with
  | .ok changed => changed.typeId = record.typeId ∧
      ∃ index, record.Assigns registry field value index ∧ index < record.values.length ∧
        ∀ i, changed.values[i]? = if i = index then some value else record.values[i]?
  | .error error => (∃ owner name, error = .missingValue owner name) ↔
      ∃ index, record.Assigns registry field value index ∧ record.values.length ≤ index

/-- **Setting a field comes to this** for any record and any registry. -/
theorem sets (registry : Registry) (record : Record) (field : String) (value : Value) :
    record.Sets registry field value := by
  unfold Sets
  by_cases hassigns : ∃ index, record.Assigns registry field value index
  · obtain ⟨index, hindex⟩ := hassigns
    rcases Nat.lt_or_ge index record.values.length with hlt | hle
    · rw [set_of_assigns hindex hlt]
      refine ⟨rfl, index, hindex, hlt, fun i => ?_⟩
      rcases eq_or_ne i index with rfl | hne
      · rw [if_pos rfl]
        exact List.getElem?_set_self hlt
      · rw [if_neg hne]
        exact List.getElem?_set_ne hne.symm
    · obtain ⟨owner, hset⟩ := missing_of_assigns hindex hle
      rw [hset]
      exact iff_of_true ⟨owner, field, rfl⟩ ⟨index, hindex, hle⟩
  · obtain ⟨error, hset, hother⟩ := set_of_not_assigns (not_exists.1 hassigns)
    rw [hset]
    refine iff_of_false ?_ ?_
    · rintro ⟨owner, name, rfl⟩
      exact hother owner name rfl
    · rintro ⟨index, hindex, -⟩
      exact hassigns ⟨index, hindex⟩

/-- **No value is missing** if the registry has no more fields for the type than the record has
values. -/
theorem set_ne_missingValue {layout : RecordLayout}
    (hlayout : registry.layout? record.typeId = some layout)
    (hle : layout.fields.length ≤ record.values.length) (field : String) (value : Value)
    (owner name : String) :
    record.set registry field value ≠ .error (.missingValue owner name) := by
  intro hset
  have hsets := record.sets registry field value
  rw [Sets, hset] at hsets
  obtain ⟨index, hindex, hbehind⟩ := hsets.1 ⟨owner, name, rfl⟩
  have hlt := hindex.lt hlayout
  omega

end Record

/-! ### The sizes of records -/

/-- Records that are embedded in a value have as many values as one of the layouts of their type has
fields, at any depth. -/
inductive Value.Sized (layouts : List RecordLayout) : Value → Prop where
  | scalar {number : Scalar} : Sized layouts (.scalar number)
  | text {content : Option String} : Sized layouts (.text content)
  | ref {key : Option InstanceKey} : Sized layouts (.ref key)
  | component {layout : RecordLayout} {values : List Value} (hlayout : layout ∈ layouts)
      (hlength : values.length = layout.fields.length)
      (hvalues : ∀ value ∈ values, Sized layouts value) :
      Sized layouts (.component layout.id values)

namespace Value

variable {registry : Registry} {layouts others : List RecordLayout}

theorem Sized.mono {value : Value} (h : value.Sized layouts) (hsubset : layouts ⊆ others) :
    value.Sized others := by
  induction h with
  | scalar => exact .scalar
  | text => exact .text
  | ref => exact .ref
  | component hlayout hlength _ ih => exact .component (hsubset hlayout) hlength ih

/-- What is known of a record that has one of the layouts. -/
theorem Sized.exists_layout {typeId : TypeId} {values : List Value}
    (h : Sized layouts (.component typeId values)) :
    (∃ layout ∈ layouts, layout.id = typeId ∧ values.length = layout.fields.length) ∧
      ∀ value ∈ values, value.Sized layouts := by
  cases h with
  | component hlayout hlength hvalues => exact ⟨⟨_, hlayout, rfl, hlength⟩, hvalues⟩

mutual

theorem Formed.sized (hgrounded : registry.Grounded) {kind : FieldKind Target} (value : Value)
    (h : value.Formed registry kind) : value.Sized registry.types := by
  unfold Formed at h
  cases value with
  | scalar number => exact .scalar
  | text content => exact .text
  | ref key => exact .ref
  | component typeId values =>
      obtain ⟨-, layout, hlayout, hvalues⟩ := h
      rw [← hgrounded.id_eq hlayout]
      exact .component (Registry.mem_types_of_layout? hlayout)
        (allFormed_iff.1 hvalues).length_eq.symm (AllFormed.sized hgrounded values hvalues)

theorem AllFormed.sized (hgrounded : registry.Grounded) {fields : List FieldLayout}
    (values : List Value) (h : AllFormed registry fields values) :
    ∀ value ∈ values, value.Sized registry.types := by
  cases values with
  | nil => exact fun _ hvalue => absurd hvalue List.not_mem_nil
  | cons value rest =>
      cases fields with
      | nil => exact h.elim
      | cons field fields =>
          obtain ⟨hvalue, hrest⟩ := h
          exact List.forall_mem_cons.2
            ⟨Formed.sized hgrounded value hvalue, AllFormed.sized hgrounded rest hrest⟩

end

end Value

theorem Record.Formed.sized {registry : Registry} (hgrounded : registry.Grounded) {record : Record}
    (h : record.Formed registry) : (Value.ofRecord record).Sized registry.types := by
  obtain ⟨layout, hlayout, hvalues⟩ := h
  rw [Value.ofRecord, ← hgrounded.id_eq hlayout]
  exact .component (Registry.mem_types_of_layout? hlayout)
    (Value.allFormed_iff.1 hvalues).length_eq.symm (Value.AllFormed.sized hgrounded _ hvalues)

/-- A record keeps its sizes if a field is set, whatever the registry. -/
theorem Record.sized_of_set {registry : Registry} {layouts : List RecordLayout}
    {record changed : Record} {field : String} {value : Value}
    (hrecord : (Value.ofRecord record).Sized layouts) (hvalue : value.Sized layouts)
    (hset : record.set registry field value = .ok changed) :
    (Value.ofRecord changed).Sized layouts := by
  obtain ⟨⟨layout, hlayout, hid, hlength⟩, hvalues⟩ := hrecord.exists_layout
  obtain ⟨index, -, rfl⟩ := Record.eq_of_set hset
  rw [Value.ofRecord, ← hid]
  refine .component hlayout (by rw [List.length_set, hlength]) fun other hother => ?_
  rcases List.mem_or_eq_of_mem_set hother with hother | rfl
  · exact hvalues other hother
  · exact hvalue

/-! ### Zeros for any layout -/

namespace Registry

variable {registry : Registry}

/-- The zero of a field of a layout that need not be one of the registry.  An embedded type is
looked up in the registry by its number, and is missing where it is not known. -/
def zeroFor (registry : Registry) (kind : FieldKind Target) : Value :=
  match kind with
  | .component target =>
      match registry.layout? target.id with
      | none => .ref none
      | some inner => .ofRecord (registry.zeroRecord inner)
  | _ => registry.zeroValue 0 kind

/-- A record of zeros for a layout that need not be one of the registry. -/
def zeroRecordFor (registry : Registry) (layout : RecordLayout) : Record :=
  ⟨layout.id, layout.fields.map fun field => registry.zeroFor field.kind⟩

/-- **The recursion that fills a record** ends for fields of any origin, in these zeros. -/
theorem zeros_zeroFor (hgrounded : registry.Grounded) (fields : List FieldLayout) :
    registry.Zeros fields (fields.map fun field => registry.zeroFor field.kind) := by
  induction fields with
  | nil => exact .nil
  | cons field rest ih =>
      rw [List.map_cons]
      cases hkind : field.kind with
      | scalar type => exact .scalar hkind ih
      | text => exact .text hkind ih
      | ref target => exact .ref hkind ih
      | component target =>
          simp only [zeroFor]
          cases hinner : registry.layout? target.id with
          | none => exact .unknown hkind hinner ih
          | some inner =>
              exact .component hkind hinner
                ((zeros_iff hgrounded (mem_types_of_layout? hinner)).2 rfl) ih

theorem Zeros.length_eq {fields : List FieldLayout} {values : List Value}
    (h : registry.Zeros fields values) : values.length = fields.length := by
  induction h with
  | nil => rfl
  | scalar _ _ ih => simp [ih]
  | text _ _ ih => simp [ih]
  | ref _ _ ih => simp [ih]
  | unknown _ _ _ ih => simp [ih]
  | component _ _ _ _ _ ih => simp [ih]

theorem Zeros.sized {fields : List FieldLayout} {values : List Value}
    (h : registry.Zeros fields values) : ∀ value ∈ values, value.Sized registry.types := by
  induction h with
  | nil => exact fun _ hvalue => absurd hvalue List.not_mem_nil
  | scalar _ _ ih => exact List.forall_mem_cons.2 ⟨.scalar, ih⟩
  | text _ _ ih => exact List.forall_mem_cons.2 ⟨.text, ih⟩
  | ref _ _ ih => exact List.forall_mem_cons.2 ⟨.ref, ih⟩
  | unknown _ _ _ ih => exact List.forall_mem_cons.2 ⟨.ref, ih⟩
  | component _ hinner hembedded _ ihembedded ihrest =>
      refine List.forall_mem_cons.2 ⟨.component (mem_types_of_layout? hinner) ?_ ihembedded, ihrest⟩
      exact hembedded.length_eq

end Registry

namespace Workspace

/-! ### Runs with several registries -/

/-- A call with a registry, or a new record for a layout of any origin, whose embedded records are
those of a registry. -/
inductive Use where
  | call (registry : Registry) (call : Call)
  | zeroed (registry : Registry) (layout : RecordLayout)

/-- The registry that is used. -/
def Use.registry : Use → Registry
  | .call registry _ => registry
  | .zeroed registry _ => registry

/-- The registry that is used is that of a schema. -/
def Use.Built (next : Use) : Prop :=
  ∃ schema config, Registry.build schema config = .ok next.registry

theorem Use.Built.grounded {next : Use} (h : next.Built) : next.registry.Grounded := by
  obtain ⟨schema, config, hbuild⟩ := h
  exact Registry.grounded_of_build hbuild

/-- The layouts that records can be made for. -/
def Use.layouts : Use → List RecordLayout
  | .call registry _ => registry.types
  | .zeroed registry layout => layout :: registry.types

/-- What a use answers, and the workspace after it. -/
def use (workspace : Workspace) : Use → Except Failure Unit × Workspace
  | .call registry call => workspace.call registry call
  | .zeroed registry layout => (.ok (), workspace.hold (registry.zeroRecordFor layout))

/-- The workspace after several uses, one after the other. -/
def useAll (workspace : Workspace) (uses : List Use) : Workspace :=
  uses.foldl (fun workspace next => (workspace.use next).2) workspace

/-- A use that fails changes nothing. -/
theorem eq_of_use_error {workspace after : Workspace} {next : Use}
    (hgrounded : next.registry.Grounded) {failure : Failure}
    (h : workspace.use next = (.error failure, after)) : after = workspace := by
  cases next with
  | zeroed registry layout => cases h
  | call registry call =>
      have hcall : workspace.call registry call = (.error failure, after) := h
      have hyields : workspace.YieldsAll registry call (workspace.call registry call) :=
        yields_call hgrounded workspace call
      rw [hcall] at hyields
      exact hyields.1

/-- All records that are held have sizes of the layouts. -/
def Sized (layouts : List RecordLayout) (workspace : Workspace) : Prop :=
  ∀ record, workspace.Holds record → (Value.ofRecord record).Sized layouts

namespace Sized

variable {workspace : Workspace} {layouts : List RecordLayout}

theorem operand (h : workspace.Sized layouts) {operand : Operand} {value : Value}
    (hvalue : workspace.value? operand = some value) : value.Sized layouts := by
  cases operand with
  | scalar number =>
      cases hvalue
      exact .scalar
  | text content =>
      cases hvalue
      exact .text
  | ref key =>
      cases hvalue
      exact .ref
  | record slot =>
      obtain ⟨record, hrecord, rfl⟩ := Option.map_eq_some_iff.1 hvalue
      exact h record (holds_of_getElem? hrecord)

theorem yields {registry : Registry} (h : workspace.Sized layouts) (hgrounded : registry.Grounded)
    (hsubset : registry.types ⊆ layouts) {record : Record}
    (hyields : workspace.Yields registry record) : (Value.ofRecord record).Sized layouts := by
  cases hyields with
  | held hheld => exact h record hheld
  | fresh hformed => exact (hformed.sized hgrounded).mono hsubset
  | set hheld hvalue hset => exact Record.sized_of_set (h _ hheld) (h.operand hvalue) hset
  | taken hheld hmem => exact (h _ hheld).exists_layout.2 _ hmem

/-- **A use keeps the sizes.** -/
theorem use (h : workspace.Sized layouts) {next : Use} (hgrounded : next.registry.Grounded)
    (hsubset : next.layouts ⊆ layouts) : (workspace.use next).2.Sized layouts := by
  cases next with
  | call registry call =>
      have hyields : workspace.YieldsAll registry call (workspace.call registry call) :=
        yields_call hgrounded workspace call
      rcases hcall : workspace.call registry call with ⟨failure | _, after⟩
      · rw [hcall] at hyields
        rw [Workspace.use, hcall, hyields.1]
        exact h
      · rw [hcall] at hyields
        rw [Workspace.use, hcall]
        exact fun record hrecord => h.yields hgrounded hsubset (hyields record hrecord)
  | zeroed registry layout =>
      intro record hrecord
      rcases holds_of_hold hrecord with hheld | rfl
      · exact h record hheld
      · have hzeros := Registry.zeros_zeroFor hgrounded layout.fields
        obtain ⟨hlayout, htypes⟩ := List.cons_subset.1 hsubset
        exact .component hlayout hzeros.length_eq
          fun value hvalue => (hzeros.sized value hvalue).mono htypes

end Sized

/-- **Records have the values of the layouts that they were made for**, over a run with any
registries. -/
theorem sized_useAll {layouts : List RecordLayout} {workspace : Workspace}
    (h : workspace.Sized layouts) {uses : List Use}
    (hgrounded : ∀ next ∈ uses, next.registry.Grounded)
    (hsubset : ∀ next ∈ uses, next.layouts ⊆ layouts) :
    (workspace.useAll uses).Sized layouts := by
  induction uses generalizing workspace with
  | nil => exact h
  | cons next rest ih =>
      obtain ⟨hnext, hrest⟩ := List.forall_mem_cons.1 hgrounded
      obtain ⟨hlayouts, hothers⟩ := List.forall_mem_cons.1 hsubset
      exact ih (h.use hnext hlayouts) hrest hothers

/-- **When a field that is set has no value.**  A run makes records and sets their fields, with
several registries.  No use that fails changes anything.  A record that is held has one value for
each field of a layout of its type, which is one of the layouts in use.  With any registry, setting
a field replaces its value or fails; it fails for want of a value exactly if the place of the field
is behind those fields, so never with a registry that has no more fields for the type. -/
theorem sets_of_useAll {uses : List Use} (hbuilt : ∀ next ∈ uses, next.Built) :
    (∀ next : Use, next.Built → ∀ failure after,
      (useAll ⟨[], []⟩ uses).use next = (.error failure, after) →
        after = useAll ⟨[], []⟩ uses) ∧
    ∀ record, (useAll ⟨[], []⟩ uses).Holds record →
      (∀ registry field value, record.Sets registry field value) ∧
      ∃ own ∈ uses.flatMap Use.layouts,
        own.id = record.typeId ∧ record.values.length = own.fields.length ∧
        ∀ registry layout, registry.layout? record.typeId = some layout →
          layout.fields.length ≤ own.fields.length → ∀ field value owner name,
            record.set registry field value ≠ .error (.missingValue owner name) := by
  refine ⟨fun next hnext failure after => eq_of_use_error hnext.grounded, ?_⟩
  intro record hrecord
  have hempty : Sized (uses.flatMap Use.layouts) ⟨[], []⟩ := by
    rintro other (hother | ⟨scene, hscene, -⟩)
    · exact absurd hother List.not_mem_nil
    · exact absurd hscene List.not_mem_nil
  have hsized := sized_useAll hempty (fun next hnext => (hbuilt next hnext).grounded)
    fun next hnext layout hlayout => List.mem_flatMap.2 ⟨next, hnext, hlayout⟩
  obtain ⟨⟨own, hown, hid, hlength⟩, -⟩ := (hsized record hrecord).exists_layout
  refine ⟨fun registry => record.sets registry, own, hown, hid, hlength, ?_⟩
  intro registry layout hlayout hle
  exact Record.set_ne_missingValue hlayout (hlength ▸ hle)

end Workspace

namespace Sample

/-- A note that is made when notes have only a title, and whose body and title are set when they
have both. -/
def foreignUses : List Workspace.Use :=
  [.call titled (.new "Note"), .call written (.set 0 "body" (.text (some "x"))),
    .call written (.set 0 "title" (.text (some "y")))]

end Sample

/-- The note has a value for its title only, which is set, and none for a body. -/
theorem Workspace.sets_of_useAll_sample :
    (∀ next ∈ Sample.foreignUses, next.Built) ∧
    (useAll ⟨[], []⟩ Sample.foreignUses).records = [⟨0, [.text (some "y")]⟩] ∧
    (∀ registry field value, Record.Sets registry ⟨0, [.text (some "y")]⟩ field value) ∧
    ∃ own ∈ Sample.foreignUses.flatMap Use.layouts, own.id = 0 ∧ own.fields.length = 1 := by
  obtain ⟨titles, titling, htitled⟩ := Sample.titled_exact
  obtain ⟨writings, writing, hwritten⟩ := Sample.written_exact
  have hbuilt : ∀ next ∈ Sample.foreignUses, next.Built :=
    List.forall_mem_cons.2 ⟨⟨titles, titling, htitled⟩, List.forall_mem_cons.2
      ⟨⟨writings, writing, hwritten⟩, List.forall_mem_cons.2
        ⟨⟨writings, writing, hwritten⟩, fun _ h => absurd h List.not_mem_nil⟩⟩⟩
  have hrecords : (useAll ⟨[], []⟩ Sample.foreignUses).records = [⟨0, [.text (some "y")]⟩] := by
    cbv
  have hheld : (useAll ⟨[], []⟩ Sample.foreignUses).Holds ⟨0, [.text (some "y")]⟩ :=
    .inl (hrecords ▸ List.mem_singleton_self _)
  obtain ⟨hsets, own, hown, hid, hlength, -⟩ := (sets_of_useAll hbuilt).2 _ hheld
  exact ⟨hbuilt, hrecords, hsets, own, hown, hid, hlength.symm⟩

namespace Sample

/-- **A field without a value**: the body of a note that is made when notes have only a title. -/
theorem set_past_values :
    titled.Exact ∧ written.Exact ∧ ∃ note, Record.new titled "Note" = .ok note ∧
      note.set written "body" (.text (some "x")) = .error (.missingValue "Note" "body") ∧
      note.get? written "body" = none :=
  ⟨titled_exact, written_exact, ⟨0, [.text none]⟩, by cbv, by cbv, by cbv⟩

end Sample

end ScenePack
