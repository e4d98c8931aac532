/-
**Scenes that can be stored.**

A scene is well formed if each record holds one value for each field of its type, of the right kind,
and so do the records embedded in it.  A well-formed scene that passes the check can be stored:
moreover, no text holds a zero byte, and references lead to records of the right type.

Main definitions:

* `Value.Formed`, `Record.Formed`, `Scene.Formed` — well-formed values, records and scenes;
* `Value.Storable`, `Record.Storable` — values and records that can be stored.

Main results:

* `Scene.storable_of_check` — **a well-formed scene that passes the check can be stored**;
* `Scene.check_of_storable` — **a scene that can be stored passes the check**.
-/

import ScenePack.Proofs.Outcome
import ScenePack.Proofs.Text
import ScenePack.Scene.Check

set_option relaxedAutoImplicit false
set_option autoImplicit false

namespace ScenePack

/-! ### Well-formed values -/

namespace Value

mutual

/-- A value suits a field of a kind, and so do the values of embedded records. -/
def Formed (registry : Registry) (kind : FieldKind Target) (value : Value) : Prop :=
  kind.accepts value = true ∧
    match value with
    | .component typeId values => ∃ layout, registry.layout? typeId = some layout ∧
        AllFormed registry layout.fields values
    | _ => True

/-- There is one value for each field, and it suits the field. -/
def AllFormed (registry : Registry) (fields : List FieldLayout) (values : List Value) : Prop :=
  match values, fields with
  | [], [] => True
  | value :: values, field :: fields =>
      Formed registry field.kind value ∧ AllFormed registry fields values
  | _, _ => False

end

section Kinds

variable {registry : Registry} {value : Value}

theorem formed_scalar_iff {type : ScalarType} :
    value.Formed registry (.scalar type) ↔
      ∃ number, value = .scalar number ∧ number.type = type := by
  cases value <;> simp [Formed, FieldKind.accepts]

theorem formed_text_iff :
    value.Formed registry .text ↔ ∃ content, value = .text content := by
  cases value <;> simp [Formed, FieldKind.accepts]

theorem formed_component_iff {target : Target} :
    value.Formed registry (.component target) ↔
      ∃ layout values, value = .component target.id values ∧
        registry.layout? target.id = some layout ∧ AllFormed registry layout.fields values := by
  cases value with
  | component typeId values =>
      simp only [Formed, FieldKind.accepts, decide_eq_true_eq, component.injEq]
      constructor
      · rintro ⟨rfl, layout, hlayout, hvalues⟩
        exact ⟨layout, values, ⟨rfl, rfl⟩, hlayout, hvalues⟩
      · rintro ⟨layout, _, ⟨rfl, rfl⟩, hlayout, hvalues⟩
        exact ⟨rfl, layout, hlayout, hvalues⟩
  | scalar number => simp [Formed, FieldKind.accepts]
  | text content => simp [Formed, FieldKind.accepts]
  | ref key => simp [Formed, FieldKind.accepts]

theorem formed_ref_iff {target : Target} :
    value.Formed registry (.ref target) ↔ ∃ key, value = .ref key := by
  cases value <;> simp [Formed, FieldKind.accepts]

end Kinds

/-- Values suit fields if each of them suits its field. -/
theorem allFormed_iff {registry : Registry} {fields : List FieldLayout} {values : List Value} :
    AllFormed registry fields values ↔
      List.Forall₂ (fun field value => Formed registry field.kind value) fields values := by
  induction fields generalizing values with
  | nil => cases values <;> simp [AllFormed]
  | cons field fields ih =>
      cases values with
      | nil => simp [AllFormed]
      | cons value values => simp [AllFormed, ih]

mutual

/-- A value of a scene can be stored in a field of a kind. -/
def Storable (registry : Registry) (scene : Scene) (kind : FieldKind Target) (value : Value) :
    Prop :=
  match value, kind with
  | .scalar number, .scalar type => number.type = type
  | .text content, .text => ∀ text, content = some text → 0 ∉ Utf8.encode text
  | .component typeId values, .component target => typeId = target.id ∧
      ∃ layout, registry.layout? typeId = some layout ∧
        AllStorable registry scene layout.fields values
  | .ref key, .ref target => ∀ old, key = some old →
      ∃ record, scene[old]? = some record ∧ record.typeId = target.id
  | _, _ => False

/-- There is one value for each field, and it can be stored there. -/
def AllStorable (registry : Registry) (scene : Scene) (fields : List FieldLayout)
    (values : List Value) : Prop :=
  match values, fields with
  | [], [] => True
  | value :: values, field :: fields =>
      Storable registry scene field.kind value ∧ AllStorable registry scene fields values
  | _, _ => False

end

section Kinds

variable {registry : Registry} {scene : Scene} {value : Value}

theorem storable_scalar_iff {type : ScalarType} :
    value.Storable registry scene (.scalar type) ↔
      ∃ number, value = .scalar number ∧ number.type = type := by
  cases value <;> simp [Storable]

theorem storable_text_iff :
    value.Storable registry scene .text ↔ ∃ content, value = .text content ∧
      ∀ text, content = some text → 0 ∉ Utf8.encode text := by
  cases value <;> simp [Storable]

theorem storable_component_iff {target : Target} :
    value.Storable registry scene (.component target) ↔
      ∃ layout values, value = .component target.id values ∧
        registry.layout? target.id = some layout ∧
        AllStorable registry scene layout.fields values := by
  cases value with
  | component typeId values =>
      simp only [Storable, component.injEq]
      constructor
      · rintro ⟨rfl, layout, hlayout, hvalues⟩
        exact ⟨layout, values, ⟨rfl, rfl⟩, hlayout, hvalues⟩
      · rintro ⟨layout, _, ⟨rfl, rfl⟩, hlayout, hvalues⟩
        exact ⟨rfl, layout, hlayout, hvalues⟩
  | scalar number => simp [Storable]
  | text content => simp [Storable]
  | ref key => simp [Storable]

theorem storable_ref_iff {target : Target} :
    value.Storable registry scene (.ref target) ↔ ∃ key, value = .ref key ∧
      ∀ old, key = some old → ∃ record, scene[old]? = some record ∧ record.typeId = target.id := by
  cases value <;> simp [Storable]

end Kinds

/-- Values can be stored in a record if each of them can be stored in its field. -/
theorem allStorable_iff {registry : Registry} {scene : Scene} {fields : List FieldLayout}
    {values : List Value} :
    AllStorable registry scene fields values ↔
      List.Forall₂ (fun field value => Storable registry scene field.kind value) fields values := by
  induction fields generalizing values with
  | nil => cases values <;> simp [AllStorable]
  | cons field fields ih =>
      cases values with
      | nil => simp [AllStorable]
      | cons value values => simp [AllStorable, ih]

mutual

/-- A value that can be stored suits its field. -/
theorem Storable.formed {registry : Registry} {scene : Scene} {kind : FieldKind Target}
    (value : Value) (h : value.Storable registry scene kind) : value.Formed registry kind := by
  cases kind with
  | scalar type => exact formed_scalar_iff.2 (storable_scalar_iff.1 h)
  | text =>
      obtain ⟨content, hvalue, -⟩ := storable_text_iff.1 h
      exact formed_text_iff.2 ⟨content, hvalue⟩
  | component target =>
      cases value with
      | scalar number => exact h.elim
      | text content => exact h.elim
      | component typeId values =>
          obtain ⟨rfl, layout, hlayout, hvalues⟩ := h
          exact formed_component_iff.2
            ⟨layout, values, rfl, hlayout, AllStorable.allFormed values hvalues⟩
      | ref key => exact h.elim
  | ref target =>
      obtain ⟨key, hvalue, -⟩ := storable_ref_iff.1 h
      exact formed_ref_iff.2 ⟨key, hvalue⟩

theorem AllStorable.allFormed {registry : Registry} {scene : Scene} {fields : List FieldLayout}
    (values : List Value) (h : AllStorable registry scene fields values) :
    AllFormed registry fields values := by
  cases values with
  | nil =>
      cases fields with
      | nil => trivial
      | cons field fields => exact h.elim
  | cons value values =>
      cases fields with
      | nil => exact h.elim
      | cons field fields =>
          rw [AllStorable] at h
          rw [AllFormed]
          exact ⟨Storable.formed value h.1, AllStorable.allFormed values h.2⟩

end

end Value

/-- A record of a known type holds one value for each field, that suits the field. -/
def Record.Formed (registry : Registry) (record : Record) : Prop :=
  ∃ layout, registry.layout? record.typeId = some layout ∧
    Value.AllFormed registry layout.fields record.values

/-- All records of a scene are well formed.  Where references lead to is left open. -/
def Scene.Formed (registry : Registry) (scene : Scene) : Prop :=
  ∀ record ∈ scene, record.Formed registry

/-- A record of a scene can be stored in the layout of its type. -/
def Record.Storable (registry : Registry) (scene : Scene) (record : Record) : Prop :=
  ∃ layout, registry.layout? record.typeId = some layout ∧
    Value.AllStorable registry scene layout.fields record.values

/-! ### The check -/

namespace Scene

variable {registry : Registry} {scene : Scene}

/-- A reference passes the check if it leads to a record of the right type. -/
theorem checkRef_eq_ok_iff {owner : RecordLayout} {field : FieldLayout} {target : Target}
    {key : InstanceKey} :
    checkRef registry scene owner field target key = .ok () ↔
      ∃ record, scene[key]? = some record ∧ record.typeId = target.id := by
  unfold checkRef
  split
  · next hnone => simp [hnone]
  · next record hsome =>
      rw [hsome]
      constructor
      · intro h
        split at h
        · next htype => exact ⟨record, rfl, htype⟩
        · cases h
      · rintro ⟨_, hrecord, htype⟩
        cases hrecord
        exact if_pos htype

section Kinds

variable {owner : RecordLayout} {field : FieldLayout}

theorem checkValue_scalar_iff {number : Scalar} :
    checkValue registry scene owner field (.scalar number) = .ok () ↔
      field.kind = .scalar number.type := by
  rw [checkValue.eq_def]
  cases field.kind <;> simp [FieldKind.accepts, eq_comm]

theorem checkValue_text_iff {content : Option String} :
    checkValue registry scene owner field (.text content) = .ok () ↔
      field.kind = .text ∧ ∀ text, content = some text → 0 ∉ Utf8.encode text := by
  rw [checkValue.eq_def]
  cases content <;> cases field.kind <;> simp [FieldKind.accepts, ← Utf8.contains_zero_iff]

/-- An embedded record passes the check in a field for its type, if its values do. -/
theorem checkValue_component_iff {typeId : TypeId} {values : List Value} :
    checkValue registry scene owner field (.component typeId values) = .ok () ↔
      ∃ target layout, field.kind = .component target ∧ typeId = target.id ∧
        registry.layout? typeId = some layout ∧
        checkValues registry scene layout layout.fields values = .ok () := by
  rw [checkValue.eq_def]
  cases hkind : field.kind with
  | scalar type => simp [FieldKind.accepts]
  | text => simp [FieldKind.accepts]
  | ref target => simp [FieldKind.accepts]
  | component target =>
      dsimp only
      constructor
      · intro h
        split at h
        · next htype =>
            split at h
            · cases h
            · next layout hlayout => exact ⟨target, layout, rfl, htype, hlayout, h⟩
        · cases h
      · rintro ⟨_, layout, hsame, htype, hlayout, hvalues⟩
        cases hsame
        rw [if_pos htype, hlayout]
        exact hvalues

/-- A reference passes the check in a reference field, if it leads to a record of the right
type. -/
theorem checkValue_ref_iff {key : Option InstanceKey} :
    checkValue registry scene owner field (.ref key) = .ok () ↔
      ∃ target, field.kind = .ref target ∧ ∀ old, key = some old →
        ∃ record, scene[old]? = some record ∧ record.typeId = target.id := by
  rw [checkValue.eq_def]
  cases key <;> cases field.kind <;> simp [FieldKind.accepts, checkRef_eq_ok_iff]

end Kinds

mutual

/-- A well-formed value that passes the check can be stored. -/
theorem storable_of_checkValue {owner : RecordLayout} {field : FieldLayout} (value : Value)
    (hformed : value.Formed registry field.kind)
    (h : checkValue registry scene owner field value = .ok ()) :
    value.Storable registry scene field.kind := by
  cases value with
  | scalar number =>
      rw [checkValue_scalar_iff.1 h]
      exact Value.storable_scalar_iff.2 ⟨number, rfl, rfl⟩
  | text content =>
      obtain ⟨hkind, hfree⟩ := checkValue_text_iff.1 h
      rw [hkind]
      exact Value.storable_text_iff.2 ⟨content, rfl, hfree⟩
  | component typeId values =>
      obtain ⟨target, layout, hkind, rfl, hlayout, hcheck⟩ := checkValue_component_iff.1 h
      rw [Value.Formed] at hformed
      obtain ⟨-, other, hother, hvalues⟩ := hformed
      cases hother.symm.trans hlayout
      rw [hkind]
      exact Value.storable_component_iff.2
        ⟨layout, values, rfl, hlayout, allStorable_of_checkValues values hvalues hcheck⟩
  | ref key =>
      obtain ⟨target, hkind, hkey⟩ := checkValue_ref_iff.1 h
      rw [hkind]
      exact Value.storable_ref_iff.2 ⟨key, rfl, hkey⟩

/-- Well-formed values that pass the check can be stored. -/
theorem allStorable_of_checkValues {owner : RecordLayout} {fields : List FieldLayout}
    (values : List Value)
    (hformed : Value.AllFormed registry fields values)
    (h : checkValues registry scene owner fields values = .ok ()) :
    Value.AllStorable registry scene fields values := by
  cases values with
  | nil =>
      cases fields with
      | nil => trivial
      | cons field fields => exact hformed.elim
  | cons value values =>
      cases fields with
      | nil => exact hformed.elim
      | cons field fields =>
          rw [Value.AllFormed] at hformed
          rw [checkValues] at h
          obtain ⟨_, hvalue, hvalues⟩ := bind_eq_ok_iff.1 h
          rw [Value.AllStorable]
          exact ⟨storable_of_checkValue value hformed.1 hvalue,
            allStorable_of_checkValues values hformed.2 hvalues⟩

end

/-- **A well-formed scene that passes the check can be stored.** -/
theorem storable_of_check (hformed : scene.Formed registry) (h : scene.check registry = .ok ()) :
    ∀ record ∈ scene, record.Storable registry scene := by
  intro record hrecord
  obtain ⟨layout, hlayout, hvalues⟩ := hformed record hrecord
  have hcheck := forM_eq_ok_iff.1 h record hrecord
  rw [checkRecord, hlayout] at hcheck
  exact ⟨layout, hlayout, allStorable_of_checkValues record.values hvalues hcheck⟩

mutual

theorem checkValue_of_storable {owner : RecordLayout} {field : FieldLayout} (value : Value)
    (h : value.Storable registry scene field.kind) :
    checkValue registry scene owner field value = .ok () := by
  cases hkind : field.kind with
  | scalar type =>
      rw [hkind] at h
      obtain ⟨number, rfl, rfl⟩ := Value.storable_scalar_iff.1 h
      exact checkValue_scalar_iff.2 hkind
  | text =>
      rw [hkind] at h
      obtain ⟨content, rfl, hfree⟩ := Value.storable_text_iff.1 h
      exact checkValue_text_iff.2 ⟨hkind, hfree⟩
  | component target =>
      rw [hkind] at h
      cases value with
      | scalar number => exact h.elim
      | text content => exact h.elim
      | component typeId values =>
          obtain ⟨htype, layout, hlayout, hvalues⟩ := h
          exact checkValue_component_iff.2
            ⟨target, layout, hkind, htype, hlayout, checkValues_of_allStorable values hvalues⟩
      | ref key => exact h.elim
  | ref target =>
      rw [hkind] at h
      obtain ⟨key, rfl, hkey⟩ := Value.storable_ref_iff.1 h
      exact checkValue_ref_iff.2 ⟨target, hkind, hkey⟩

theorem checkValues_of_allStorable {owner : RecordLayout} {fields : List FieldLayout}
    (values : List Value) (h : Value.AllStorable registry scene fields values) :
    checkValues registry scene owner fields values = .ok () := by
  cases values with
  | nil => simp [checkValues]
  | cons value values =>
      cases fields with
      | nil => simp [checkValues]
      | cons field fields =>
          rw [Value.AllStorable] at h
          rw [checkValues]
          exact bind_eq_ok_iff.2 ⟨(), checkValue_of_storable value h.1,
            checkValues_of_allStorable values h.2⟩

end

/-- **A scene that can be stored passes the check.** -/
theorem check_of_storable (h : ∀ record ∈ scene, record.Storable registry scene) :
    scene.check registry = .ok () := by
  refine forM_eq_ok_iff.2 fun record hrecord => ?_
  obtain ⟨layout, hlayout, hvalues⟩ := h record hrecord
  rw [checkRecord, hlayout]
  exact checkValues_of_allStorable record.values hvalues

theorem known_of_check (h : scene.check registry = .ok ()) :
    ∀ record ∈ scene, ∃ layout, registry.layout? record.typeId = some layout ∧
      checkValues registry scene layout layout.fields record.values = .ok () := by
  intro record hrecord
  have hcheck := forM_eq_ok_iff.1 h record hrecord
  unfold checkRecord at hcheck
  split at hcheck
  · cases hcheck
  · next layout hlayout => exact ⟨layout, hlayout, hcheck⟩

theorem typed_of_check (h : scene.check registry = .ok ()) :
    ∀ record ∈ scene, ∃ layout, registry.layout? record.typeId = some layout := by
  intro record hrecord
  obtain ⟨layout, hlayout, -⟩ := known_of_check h record hrecord
  exact ⟨layout, hlayout⟩

end Scene

end ScenePack
