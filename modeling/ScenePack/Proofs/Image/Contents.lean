/-
**What an image holds.**

Reading a record goes from field to field and down into embedded records.  The relation defined here
says the same without an order: which values are held at which position of an image.  Reading
computes it, and so does writing, each with its own idea of what a word stands for.

Main definitions:

* `Store` — bytes, and what the words of texts and references in them stand for;
* `Value.HeldAt`, `Value.AllHeldAt` — a value, or the values of fields, are held at a position;
* `View.store` — what a view reads;
* `FieldView.toValue` — the value of a field that has been read;
* `Scan.key?` — the key of the entry at a position;
* `Scan.Shows` — the records of a scene are held at the entries that the scan found.

Main results:

* `Value.AllHeldAt.transfer` — values are held by another store if what they consist of is;
* `Store.agreeAt_of_allHeldAt` — stores that hold the same values agree at every pointer;
* `RecordView.toValues_eq_ok_iff` — **a record reads as the values that are held there**;
* `Framed.toScene_eq_ok_iff` — **an image holds the scene that it shows**.
-/

import ScenePack.Proofs.Image.Reading

set_option relaxedAutoImplicit false
set_option autoImplicit false

namespace ScenePack

/-! ### Values at positions -/

/-- Bytes, and what the words of texts and references in them stand for. -/
structure Store where
  bytes : Bytes
  text : (word : Nat) → Option String → Prop
  ref : TypeId → (word : Nat) → Option InstanceKey → Prop

namespace Value

mutual

/-- A value is held at the position of a field of a kind. -/
def HeldAt (registry : Registry) (store : Store) (kind : FieldKind Target) (position : Nat)
    (value : Value) : Prop :=
  match value, kind with
  | .scalar number, .scalar type =>
      number.type = type ∧ store.bytes.slice? position type.size = some number.bytes
  | .text content, .text =>
      ∃ word, store.bytes.readSlot position = .ok word ∧ store.text word content
  | .component typeId values, .component target =>
      ∃ layout, registry.layout? target.id = some layout ∧ typeId = layout.id ∧
        AllHeldAt registry store layout.fields position values
  | .ref key, .ref target =>
      ∃ word, store.bytes.readSlot position = .ok word ∧ store.ref target.id word key
  | _, _ => False

/-- The values of fields are held in a record at an offset, one for each field. -/
def AllHeldAt (registry : Registry) (store : Store) (fields : List FieldLayout) (offset : Nat)
    (values : List Value) : Prop :=
  match values, fields with
  | [], [] => True
  | value :: values, field :: fields =>
      HeldAt registry store field.kind (offset + field.offset) value ∧
        AllHeldAt registry store fields offset values
  | _, _ => False

end

section Kinds

variable {registry : Registry} {store : Store} {position : Nat} {value : Value}

theorem heldAt_scalar_iff {type : ScalarType} :
    value.HeldAt registry store (.scalar type) position ↔ ∃ number, value = .scalar number ∧
      number.type = type ∧ store.bytes.slice? position type.size = some number.bytes := by
  cases value <;> simp [HeldAt]

theorem heldAt_text_iff :
    value.HeldAt registry store .text position ↔ ∃ content, value = .text content ∧
      ∃ word, store.bytes.readSlot position = .ok word ∧ store.text word content := by
  cases value <;> simp [HeldAt]

theorem heldAt_component_iff {target : Target} :
    value.HeldAt registry store (.component target) position ↔
      ∃ layout values, value = .component layout.id values ∧
        registry.layout? target.id = some layout ∧
        AllHeldAt registry store layout.fields position values := by
  cases value with
  | component typeId values =>
      simp only [HeldAt, component.injEq]
      constructor
      · rintro ⟨layout, hlayout, htype, hvalues⟩
        exact ⟨layout, values, ⟨htype, rfl⟩, hlayout, hvalues⟩
      · rintro ⟨layout, _, ⟨htype, rfl⟩, hlayout, hvalues⟩
        exact ⟨layout, hlayout, htype, hvalues⟩
  | scalar number => simp [HeldAt]
  | text content => simp [HeldAt]
  | ref key => simp [HeldAt]

theorem heldAt_ref_iff {target : Target} :
    value.HeldAt registry store (.ref target) position ↔ ∃ key, value = .ref key ∧
      ∃ word, store.bytes.readSlot position = .ok word ∧ store.ref target.id word key := by
  cases value <;> simp [HeldAt]

end Kinds

/-- Values are held in a record if each of them is held at its field. -/
theorem allHeldAt_iff {registry : Registry} {store : Store} {fields : List FieldLayout}
    {offset : Nat} {values : List Value} :
    AllHeldAt registry store fields offset values ↔
      List.Forall₂
        (fun field value => HeldAt registry store field.kind (offset + field.offset) value)
        fields values := by
  induction fields generalizing values with
  | nil => cases values <;> simp [AllHeldAt]
  | cons field fields ih =>
      cases values with
      | nil => simp [AllHeldAt]
      | cons value values => simp [AllHeldAt, ih]

/-- **Values are held by another store** if what they consist of is.  The invariant is one that
embedded records inherit. -/
theorem AllHeldAt.transfer {registry : Registry} (hsound : registry.Sound) {first second : Store}
    (invariant : RecordLayout → Nat → Prop)
    (hknown : ∀ {layout offset}, invariant layout offset →
      ∃ position, registry.layout? position = some layout)
    (hembedded : ∀ {layout offset field target inner}, invariant layout offset →
      field ∈ layout.fields → field.kind = .component target →
      registry.layout? target.id = some inner → invariant inner (offset + field.offset))
    (hscalar : ∀ {layout offset field type}, invariant layout offset → field ∈ layout.fields →
      field.kind = .scalar type → second.bytes.slice? (offset + field.offset) type.size =
        first.bytes.slice? (offset + field.offset) type.size)
    (htext : ∀ {layout offset field word content}, invariant layout offset →
      field ∈ layout.fields → field.kind = .text →
      first.bytes.readSlot (offset + field.offset) = .ok word → first.text word content →
      ∃ other, second.bytes.readSlot (offset + field.offset) = .ok other ∧
        second.text other content)
    (href : ∀ {layout offset field target word key}, invariant layout offset →
      field ∈ layout.fields → field.kind = .ref target →
      first.bytes.readSlot (offset + field.offset) = .ok word → first.ref target.id word key →
      ∃ other, second.bytes.readSlot (offset + field.offset) = .ok other ∧
        second.ref target.id other key)
    {layout : RecordLayout} {offset : Nat} (hlayout : invariant layout offset)
    {values : List Value} (h : AllHeldAt registry first layout.fields offset values) :
    AllHeldAt registry second layout.fields offset values := by
  -- embedded records have less depth
  induction hdepth : layout.depth using Nat.strongRecOn generalizing layout offset values with
  | ind depth ih =>
      rw [allHeldAt_iff] at h ⊢
      refine forall₂_imp_of_mem (fun field hfield value hvalue => ?_) h
      cases hkind : field.kind with
      | scalar type =>
          rw [hkind, heldAt_scalar_iff] at hvalue
          obtain ⟨number, rfl, htype, hbytes⟩ := hvalue
          exact heldAt_scalar_iff.2
            ⟨number, rfl, htype, (hscalar hlayout hfield hkind).trans hbytes⟩
      | text =>
          rw [hkind, heldAt_text_iff] at hvalue
          obtain ⟨content, rfl, word, hword, hcontent⟩ := hvalue
          exact heldAt_text_iff.2 ⟨content, rfl, htext hlayout hfield hkind hword hcontent⟩
      | component target =>
          rw [hkind, heldAt_component_iff] at hvalue
          obtain ⟨inner, values, rfl, hinner, hvalues⟩ := hvalue
          obtain ⟨position, hposition⟩ := hknown hlayout
          have hlt := (hsound position layout hposition).2.depth_lt field hfield target inner
            hkind hinner
          exact heldAt_component_iff.2 ⟨inner, values, rfl, hinner, ih inner.depth (hdepth ▸ hlt)
            (hembedded hlayout hfield hkind hinner) hvalues rfl⟩
      | ref target =>
          rw [hkind, heldAt_ref_iff] at hvalue
          obtain ⟨key, rfl, word, hword, hkey⟩ := hvalue
          exact heldAt_ref_iff.2 ⟨key, rfl, href hlayout hfield hkind hword hkey⟩

end Value

/-- The words of two stores at a pointer stand for the same text or key. -/
def Store.AgreeAt (first second : Store) (pointer : PointerSlot) : Prop :=
  ∃ word other, first.bytes.readSlot pointer.offset = .ok word ∧
    second.bytes.readSlot pointer.offset = .ok other ∧
    match pointer.kind with
    | .text => ∃ content, first.text word content ∧ second.text other content
    | .ref id => ∃ key, first.ref id word key ∧ second.ref id other key

/-- **Stores that hold the same values agree at every pointer** of the record. -/
theorem Store.agreeAt_of_allHeldAt {registry : Registry} (hsound : registry.Sound)
    {first second : Store} {layout : RecordLayout}
    (hknown : ∃ position, registry.layout? position = some layout) {offset : Nat}
    {values : List Value} (hfirst : Value.AllHeldAt registry first layout.fields offset values)
    (hsecond : Value.AllHeldAt registry second layout.fields offset values) {slot : PointerSlot}
    (hslot : slot ∈ layout.slots) : first.AgreeAt second (slot.shift offset) := by
  induction hdepth : layout.depth using Nat.strongRecOn generalizing layout offset values slot with
  | ind depth ih =>
      obtain ⟨position, hlayout⟩ := hknown
      obtain ⟨field, hfield, hcases⟩ := (hsound position layout hlayout).2.slot_cases hslot
      rw [Value.allHeldAt_iff] at hfirst hsecond
      obtain ⟨value, hvalue, hother⟩ := exists_of_forall₂_of_mem hfirst hsecond hfield
      rcases hcases with ⟨hslotkind, hoffset⟩ | ⟨target, inner, hkind, hinner, hlt, own, hown, rfl⟩
      · -- the pointer is a field of the record itself
        rw [PointerSlot.shift, hoffset]
        cases hkind : field.kind with
        | scalar type => simp [hkind, FieldKind.slotKind?] at hslotkind
        | component target => simp [hkind, FieldKind.slotKind?] at hslotkind
        | text =>
            rw [hkind] at hslotkind
            rw [hkind, Value.heldAt_text_iff] at hvalue hother
            obtain ⟨content, rfl, word, hword, hcontent⟩ := hvalue
            obtain ⟨_, heq, other, hotherword, hsame⟩ := hother
            cases heq
            refine ⟨word, other, hword, hotherword, ?_⟩
            rw [← Option.some_inj.1 hslotkind]
            exact ⟨content, hcontent, hsame⟩
        | ref target =>
            rw [hkind] at hslotkind
            rw [hkind, Value.heldAt_ref_iff] at hvalue hother
            obtain ⟨key, rfl, word, hword, hkey⟩ := hvalue
            obtain ⟨_, heq, other, hotherword, hsame⟩ := hother
            cases heq
            refine ⟨word, other, hword, hotherword, ?_⟩
            rw [← Option.some_inj.1 hslotkind]
            exact ⟨key, hkey, hsame⟩
      · rw [hkind, Value.heldAt_component_iff] at hvalue hother
        obtain ⟨layout, values, rfl, hlayout, hvalues⟩ := hvalue
        obtain ⟨other, others, heq, hotherlayout, hothers⟩ := hother
        cases hlayout.symm.trans hinner
        cases hotherlayout.symm.trans hinner
        obtain ⟨-, rfl⟩ := Value.component.inj heq
        have hagree := ih inner.depth (hdepth ▸ hlt) ⟨target.id, hinner⟩ hvalues hothers hown rfl
        simpa only [PointerSlot.shift, Nat.add_assoc] using hagree

/-! ### Reading the values of a record -/

/-- What a view reads, where `key?` tells the key of the instance at a position. -/
def View.store (view : View) (key? : Nat → Option InstanceKey) : Store :=
  { bytes := view.bytes
    text := fun word content => view.textAt word = .ok content
    ref := fun id word key => ∃ found, view.recordAt id word = .ok found ∧
      found.map (fun record => key? record.offset) = key.map some }

/-- The value of a field that has been read, where `read` reads embedded records. -/
def FieldView.toValue (key? : Nat → Option InstanceKey) (owner : String)
    (read : RecordView → Except ImageError (List Value)) : FieldView → Except ImageError Value
  | .scalar number => .ok (.scalar number)
  | .text content => .ok (.text content)
  | .component inner => do
      let values ← read inner
      .ok (.component inner.layout.id values)
  | .ref none => .ok (.ref none)
  | .ref (some target) =>
      match key? target.offset with
      | some key => .ok (.ref (some key))
      | none => .error (.invalidReference owner target.offset)

/-- The value of a reference that has been read, if the key of its target is known. -/
theorem FieldView.toValue_ref_eq_ok_iff {key? : Nat → Option InstanceKey} {owner : String}
    {read : RecordView → Except ImageError (List Value)} {found : Option RecordView}
    {value : Value} :
    (FieldView.ref found).toValue key? owner read = .ok value ↔
      ∃ key, value = .ref key ∧ found.map (fun record => key? record.offset) = key.map some := by
  cases found with
  | none =>
      rw [toValue, Except.ok.injEq]
      constructor
      · rintro rfl
        exact ⟨none, rfl, rfl⟩
      · rintro ⟨key, rfl, hkey⟩
        rw [Option.map_eq_none_iff.1 hkey.symm]
  | some record =>
      rw [toValue, Option.map_some]
      cases hknown : key? record.offset with
      | none => simp
      | some key => simp [eq_comm]

namespace RecordView

/-- How the embedded records of a record are read: not at all, or with one level less. -/
def readEmbedded (key? : Nat → Option InstanceKey) :
    (nesting : Nat) → RecordView → Except ImageError (List Value)
  | 0, inner => .error (.unknownTypeId inner.layout.id 0)
  | nesting + 1, inner => toValues key? nesting inner

theorem toValues_eq {record : RecordView} (key? : Nat → Option InstanceKey) (nesting : Nat) :
    record.toValues key? nesting = record.layout.fields.mapM fun field =>
      record.readField field >>=
        FieldView.toValue key? record.layout.name (readEmbedded key? nesting) := by
  rw [toValues.eq_def]
  refine congrArg (List.mapM · record.layout.fields) (funext fun field => ?_)
  refine congrArg (record.readField field >>= ·) (funext fun value => ?_)
  cases nesting with
  | zero => rcases value with _ | _ | _ | _ | _ <;> rfl
  | succ nesting => rcases value with _ | _ | _ | _ | _ <;> rfl

/-- A field reads as the value that is held there, if its embedded record does. -/
theorem toValue_eq_ok_iff {record : RecordView} {key? : Nat → Option InstanceKey}
    {field : FieldLayout} {value : Value} {read : RecordView → Except ImageError (List Value)}
    (hread : ∀ target layout values, field.kind = .component target →
      record.view.registry.layout? target.id = some layout →
      (read ⟨record.view, layout, record.offset + field.offset⟩ = .ok values ↔
        Value.AllHeldAt record.view.registry (record.view.store key?) layout.fields
          (record.offset + field.offset) values)) :
    (∃ found, record.readField field = .ok found ∧
        found.toValue key? record.layout.name read = .ok value) ↔
      value.HeldAt record.view.registry (record.view.store key?) field.kind
        (record.offset + field.offset) := by
  cases hkind : field.kind with
  | scalar type =>
      simp only [readField_scalar_iff hkind, Value.heldAt_scalar_iff]
      constructor
      · rintro ⟨_, ⟨span, hspan, rfl⟩, hvalue⟩
        cases hvalue
        refine ⟨_, rfl, rfl, ?_⟩
        rw [Scalar.bytes_ofBytes (Bytes.length_of_slice? hspan)]
        exact hspan
      · rintro ⟨number, rfl, rfl, hspan⟩
        exact ⟨_, ⟨_, hspan, rfl⟩, by rw [Scalar.ofBytes_bytes]; rfl⟩
  | text =>
      simp only [readField_text_iff hkind, Value.heldAt_text_iff]
      constructor
      · rintro ⟨_, ⟨word, content, hword, hcontent, rfl⟩, hvalue⟩
        cases hvalue
        exact ⟨content, rfl, word, hword, hcontent⟩
      · rintro ⟨content, rfl, word, hword, hcontent⟩
        exact ⟨_, ⟨word, content, hword, hcontent, rfl⟩, rfl⟩
  | component target =>
      simp only [readField_component_iff hkind, Value.heldAt_component_iff]
      constructor
      · rintro ⟨_, ⟨layout, hlayout, rfl⟩, hvalue⟩
        obtain ⟨values, hvalues, hvalue⟩ := bind_eq_ok_iff.1 hvalue
        cases hvalue
        exact ⟨layout, values, rfl, hlayout, (hread target layout values hkind hlayout).1 hvalues⟩
      · rintro ⟨layout, values, rfl, hlayout, hvalues⟩
        exact ⟨_, ⟨layout, hlayout, rfl⟩,
          bind_eq_ok_iff.2 ⟨values, (hread target layout values hkind hlayout).2 hvalues, rfl⟩⟩
  | ref target =>
      simp only [readField_ref_iff hkind, Value.heldAt_ref_iff]
      constructor
      · rintro ⟨_, ⟨word, found, hword, hfound, rfl⟩, hvalue⟩
        obtain ⟨key, rfl, hkey⟩ := FieldView.toValue_ref_eq_ok_iff.1 hvalue
        exact ⟨key, rfl, word, hword, found, hfound, hkey⟩
      · rintro ⟨key, rfl, word, hword, found, hfound, hkey⟩
        exact ⟨_, ⟨word, found, hword, hfound, rfl⟩,
          FieldView.toValue_ref_eq_ok_iff.2 ⟨key, rfl, hkey⟩⟩

/-- **A record reads as the values that are held there**, if it is read deep enough. -/
theorem toValues_eq_ok_iff {record : RecordView} {key? : Nat → Option InstanceKey} {nesting : Nat}
    {values : List Value} (hsound : record.view.registry.Sound)
    (hknown : ∃ position, record.view.registry.layout? position = some record.layout)
    (hdepth : record.layout.depth ≤ nesting) :
    record.toValues key? nesting = .ok values ↔
      Value.AllHeldAt record.view.registry (record.view.store key?) record.layout.fields
        record.offset values := by
  induction nesting using Nat.strongRecOn generalizing record values with
  | ind nesting ih =>
      obtain ⟨position, hlayout⟩ := hknown
      rw [toValues_eq, mapM_eq_ok_iff, Value.allHeldAt_iff]
      refine forall₂_congr_of_mem ?_
      intro field hfield value
      rw [bind_eq_ok_iff]
      refine toValue_eq_ok_iff ?_
      intro target layout values hkind hinner
      have hlt := (hsound position record.layout hlayout).2.depth_lt field hfield target layout
        hkind hinner
      cases nesting with
      | zero => omega
      | succ nesting =>
          exact @ih nesting (Nat.lt_succ_self nesting)
            ⟨record.view, layout, record.offset + field.offset⟩ values hsound ⟨target.id, hinner⟩
            (Nat.le_of_lt_succ (Nat.lt_of_lt_of_le hlt hdepth))

end RecordView

/-! ### Scenes -/

namespace Scan

/-- The key of the entry at a position. -/
def key? (found : Scan) (offset : Nat) : Option InstanceKey :=
  (found.entries.map Entry.offset).zipIdx.lookup offset

/-- The records of a scene are held at the entries that the scan found. -/
def Shows (found : Scan) (registry : Registry) (store : Store) (scene : Scene) : Prop :=
  List.Forall₂ (fun entry record => record.typeId = entry.layout.id ∧
    Value.AllHeldAt registry store entry.layout.fields entry.offset record.values)
    found.entries scene

end Scan

/-- **An image holds the scene that it shows.** -/
theorem Framed.toScene_eq_ok_iff {registry : Registry} {base : Nat} {bytes : Bytes} {found : Scan}
    (h : Framed registry base bytes found) (hsound : registry.Sound) {scene : Scene} :
    (found.view registry base bytes).toScene = .ok scene ↔
      found.Shows registry ((found.view registry base bytes).store found.key?) scene := by
  have hkeys : (found.view registry base bytes).instances.map RecordView.offset =
      found.entries.map Entry.offset := by
    rw [h.instances_eq, List.map_map]
    rfl
  rw [View.toScene, hkeys, h.instances_eq, mapM_eq_ok_iff, List.forall₂_map_left_iff, Scan.Shows]
  refine forall₂_congr_of_mem ?_
  intro entry hentry record
  have hvalues : ∀ values, (entry.record (found.view registry base bytes)).toValues found.key?
      entry.layout.depth = .ok values ↔ Value.AllHeldAt registry
        ((found.view registry base bytes).store found.key?) entry.layout.fields entry.offset
        values := fun values =>
    RecordView.toValues_eq_ok_iff hsound (h.fits entry hentry).known (Nat.le_refl _)
  rw [bind_eq_ok_iff]
  constructor
  · rintro ⟨values, hread, hrecord⟩
    cases hrecord
    exact ⟨rfl, (hvalues values).1 hread⟩
  · rintro ⟨htype, hheld⟩
    refine ⟨record.values, (hvalues record.values).2 hheld, ?_⟩
    rw [Except.ok.injEq]
    exact congrArg (Record.mk · record.values) htype.symm

end ScenePack
