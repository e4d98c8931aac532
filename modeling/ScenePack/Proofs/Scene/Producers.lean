/-
**Where records come from.**

A record is made of zeros, by setting a field of another one, from the text of a scene, or from an
image.  A value is only checked against the kind of its field, so an embedded record is trusted to
be well formed; the records that can be embedded are those that were made in one of these ways, and
all of them make well-formed records.

Main definitions:

* `Value.Whole` — a value whose embedded record, if it is one, is well formed.

Main results:

* `Record.Formed.set_outcome` — **setting a field of a well-formed record** keeps it well formed, or
  fails for a reason that the caller can see;
* `Scene.formed_of_read` — **a text is read as a well-formed scene**;
* `View.formed_of_toScene` — **an image is read as a well-formed scene**.
-/

import ScenePack.Image.Buffer
import ScenePack.Proofs.Image.Contents
import ScenePack.Proofs.Scene.Zero
import ScenePack.Scene.Source

set_option relaxedAutoImplicit false
set_option autoImplicit false

namespace ScenePack

variable {registry : Registry}

/-! ### Setting a field -/

/-- A value that is an embedded record is well formed.  All other values are. -/
def Value.Whole (registry : Registry) : Value → Prop
  | .component typeId values => Record.Formed registry ⟨typeId, values⟩
  | .scalar _ | .text _ | .ref _ => True

/-- A field accepts a value by its kind, and trusts an embedded record. -/
theorem Value.formed_of_accepts {kind : FieldKind Target} {value : Value}
    (haccepts : kind.accepts value = true) (hwhole : value.Whole registry) :
    value.Formed registry kind := by
  unfold Value.Formed
  refine ⟨haccepts, ?_⟩
  cases value with
  | component typeId values => exact hwhole
  | scalar number => trivial
  | text content => trivial
  | ref key => trivial

theorem Value.Formed.whole {kind : FieldKind Target} {value : Value}
    (h : value.Formed registry kind) : value.Whole registry := by
  unfold Value.Formed at h
  cases value with
  | component typeId values => exact h.2
  | scalar number => trivial
  | text content => trivial
  | ref key => trivial

/-- **When a field is set.** -/
theorem Record.set_eq_ok_iff {record changed : Record} {field : String} {value : Value} :
    record.set registry field value = .ok changed ↔
      ∃ layout placed index, registry.layout? record.typeId = some layout ∧
        layout.find? field = some (placed, index) ∧ placed.kind.accepts value = true ∧
        index < record.values.length ∧
        changed = ⟨record.typeId, record.values.set index value⟩ := by
  unfold Record.set
  constructor
  · intro h
    split at h
    · cases h
    next layout hlayout =>
    split at h
    · cases h
    next placed index hfind =>
    split at h
    · cases h
    next haccepts =>
    split at h
    · cases h
    next hlt =>
    have haccepts : placed.kind.accepts value = true := by simpa using haccepts
    exact ⟨layout, placed, index, hlayout, hfind, haccepts, Nat.not_le.1 hlt,
      (Except.ok.inj h).symm⟩
  · rintro ⟨layout, placed, index, hlayout, hfind, haccepts, hlt, rfl⟩
    rw [hlayout]
    dsimp only
    rw [hfind]
    dsimp only
    rw [haccepts, if_neg (by decide), if_neg (Nat.not_le.2 hlt)]

theorem Record.Formed.length_eq {record : Record} (h : record.Formed registry)
    {layout : RecordLayout} (hlayout : registry.layout? record.typeId = some layout) :
    record.values.length = layout.fields.length := by
  obtain ⟨own, hown, hvalues⟩ := h
  cases hown.symm.trans hlayout
  exact (Value.allFormed_iff.1 hvalues).length_eq.symm

theorem Value.AllFormed.set {fields : List FieldLayout} {values : List Value}
    (h : AllFormed registry fields values) {index : Nat} {field : FieldLayout}
    (hfield : fields[index]? = some field) {value : Value}
    (hvalue : value.Formed registry field.kind) :
    AllFormed registry fields (values.set index value) := by
  rw [allFormed_iff] at h ⊢
  exact forall₂_set h hfield hvalue

theorem Record.Formed.set {record changed : Record} (h : record.Formed registry) {field : String}
    {value : Value} (hwhole : value.Whole registry)
    (hset : record.set registry field value = .ok changed) : changed.Formed registry := by
  obtain ⟨layout, placed, index, hlayout, hfind, haccepts, -, rfl⟩ := Record.set_eq_ok_iff.1 hset
  obtain ⟨own, hown, hvalues⟩ := h
  cases hown.symm.trans hlayout
  exact ⟨layout, hlayout,
    hvalues.set (RecordLayout.getElem?_of_find? hfind).1 (Value.formed_of_accepts haccepts hwhole)⟩

/-- **Setting a field of a well-formed record** keeps it well formed or fails; it never finds that
the field has no value in the record. -/
theorem Record.Formed.set_outcome {record : Record} (h : record.Formed registry) (field : String)
    {value : Value} (hwhole : value.Whole registry) :
    match record.set registry field value with
    | .ok changed => changed.Formed registry
    | .error error => ∀ owner name, error ≠ .missingValue owner name := by
  cases hset : record.set registry field value with
  | ok changed => exact h.set hwhole hset
  | error error =>
      rintro owner name rfl
      unfold Record.set at hset
      split at hset
      · cases hset
      next layout hlayout =>
      split at hset
      · cases hset
      next placed index hfind =>
      split at hset
      · cases hset
      split at hset
      · next hmissing =>
          have hplace := (RecordLayout.getElem?_of_find? hfind).1
          have hlt := (List.getElem?_eq_some_iff.1 hplace).1
          have hlength := h.length_eq hlayout
          omega
      · cases hset

/-! ### Scenes as text -/

theorem Scalar.type_of_ofNumber? {type : ScalarType} {number : JsonNumber} {value : Scalar}
    (h : ofNumber? type number = some value) : value.type = type := by
  have hint : number.toInt?.bind (ofInt? type) = some value → value.type = type := by
    intro hbind
    obtain ⟨integer, -, hvalue⟩ := Option.bind_eq_some_iff.1 hbind
    rw [ofInt?] at hvalue
    split at hvalue
    · cases hvalue
      rfl
    · cases hvalue
  cases type with
  | f32 =>
      rw [ofNumber?] at h
      split at h
      · cases h
        rfl
      · cases h
  | f64 =>
      cases h
      rfl
  | i8 => exact hint h
  | u8 => exact hint h
  | i16 => exact hint h
  | u16 => exact hint h
  | i32 => exact hint h
  | u32 => exact hint h
  | i64 => exact hint h
  | u64 => exact hint h

namespace Scene

variable {ids : InstanceIds}

/-- A reference that is read leads to an instance that has an id. -/
theorem exists_id_of_convertRef {owner : RecordLayout} {field : FieldLayout} {json : Json}
    {key : InstanceKey} (h : convertRef ids owner field json = .ok key) :
    ∃ id, ids.lookup id = some key := by
  unfold convertRef at h
  split at h
  · split at h
    · split at h
      · next hfound =>
          cases h
          exact ⟨_, hfound⟩
      · cases h
    · cases h
  · cases h

/-- **What a value is read as**, by the kind of its field. -/
theorem cases_of_convertValue {owner : RecordLayout} {field : FieldLayout} {json : Json}
    {value : Value} (h : convertValue registry ids owner field json = .ok value) :
    (∃ number, field.kind = .scalar number.type ∧ value = .scalar number) ∨
      (∃ content, field.kind = .text ∧ value = .text content) ∨
      (∃ found target layout values, json = .object found ∧ field.kind = .component target ∧
        registry.layout? target.id = some layout ∧
        convertFields registry ids layout (registry.zeroRecord layout).values found =
          .ok values ∧ value = .component layout.id values) ∨
      ∃ target key, field.kind = .ref target ∧ value = .ref key ∧
        ∀ old, key = some old → ∃ id, ids.lookup id = some old := by
  rw [convertValue.eq_def] at h
  split at h
  · next number type hkind =>
      split at h
      · next found hfound =>
          cases h
          exact .inl ⟨found, hkind.trans (congrArg _ (Scalar.type_of_ofNumber? hfound).symm), rfl⟩
      · cases h
  · next hkind =>
      cases h
      exact .inr (.inl ⟨_, hkind, rfl⟩)
  · next hkind =>
      cases h
      exact .inr (.inl ⟨_, hkind, rfl⟩)
  · next found target hkind =>
      split at h
      · cases h
      next layout hlayout =>
      obtain ⟨values, hvalues, rfl⟩ := map_eq_ok_iff.1 h
      exact .inr (.inr (.inl ⟨found, target, layout, values, rfl, hkind, hlayout, hvalues, rfl⟩))
  · next target hkind =>
      cases h
      exact .inr (.inr (.inr ⟨target, none, hkind, rfl, nofun⟩))
  · next target _ hkind =>
      obtain ⟨key, hkey, rfl⟩ := map_eq_ok_iff.1 h
      refine .inr (.inr (.inr ⟨target, some key, hkind, rfl, ?_⟩))
      intro old hold
      obtain rfl := Option.some_inj.1 hold
      exact exists_id_of_convertRef hkey
  · cases h

mutual

/-- A value that is read suits its field. -/
theorem formed_of_convertValue (hgrounded : registry.Grounded) {owner : RecordLayout}
    {field : FieldLayout} (json : Json) {value : Value}
    (h : convertValue registry ids owner field json = .ok value) :
    value.Formed registry field.kind := by
  obtain ⟨number, hkind, rfl⟩ | ⟨content, hkind, rfl⟩ |
    ⟨found, target, layout, values, hjson, hkind, hlayout, hvalues, rfl⟩ |
    ⟨target, key, hkind, rfl, -⟩ := cases_of_convertValue h
  · rw [hkind]
    exact Value.formed_scalar_iff.2 ⟨number, rfl, rfl⟩
  · rw [hkind]
    exact Value.formed_text_iff.2 ⟨content, rfl⟩
  · rw [hkind, hgrounded.id_eq hlayout]
    refine Value.formed_component_iff.2 ⟨layout, values, rfl, hlayout, ?_⟩
    cases json with
    | object members =>
        rw [← Json.object.inj hjson] at hvalues
        exact formed_of_convertFields hgrounded members
          (Registry.allFormed_zeroRecord hgrounded (Registry.mem_types_of_layout? hlayout)) hvalues
    | _ => cases hjson
  · rw [hkind]
    exact Value.formed_ref_iff.2 ⟨key, rfl⟩

/-- Well-formed values stay so if the fields of a text are read into them. -/
theorem formed_of_convertFields (hgrounded : registry.Grounded) {layout : RecordLayout}
    (fields : List (String × Json)) {values changed : List Value}
    (hvalues : Value.AllFormed registry layout.fields values)
    (h : convertFields registry ids layout values fields = .ok changed) :
    Value.AllFormed registry layout.fields changed := by
  cases fields with
  | nil =>
      rw [convertFields] at h
      cases h
      exact hvalues
  | cons entry rest =>
      obtain ⟨name, json⟩ := entry
      rw [convertFields] at h
      split at h
      · cases h
      next field index hfind =>
      obtain ⟨value, hvalue, hrest⟩ := bind_eq_ok_iff.1 h
      refine formed_of_convertFields hgrounded rest ?_ hrest
      exact hvalues.set (RecordLayout.getElem?_of_find? hfind).1
        (formed_of_convertValue hgrounded json hvalue)

end

theorem formed_of_convertInstance (hgrounded : registry.Grounded) {source : InstanceSource}
    {record : Record} (h : convertInstance registry ids source = .ok record) :
    record.Formed registry := by
  unfold convertInstance at h
  split at h
  · cases h
  next layout hnamed =>
  obtain ⟨values, hvalues, rfl⟩ := map_eq_ok_iff.1 h
  obtain ⟨position, hlayout⟩ := Registry.exists_layout?_of_named? hnamed
  have hid : (registry.zeroRecord layout).typeId = position := hgrounded.id_eq hlayout
  exact ⟨layout, hid.symm ▸ hlayout, formed_of_convertFields hgrounded source.fields
    (Registry.allFormed_zeroRecord hgrounded (Registry.mem_types_of_layout? hlayout)) hvalues⟩

/-- **A text is read as a well-formed scene.** -/
theorem formed_of_read (hgrounded : registry.Grounded) {text : String} {scene : Scene}
    (h : Scene.read registry text = .ok scene) : scene.Formed registry := by
  unfold Scene.read at h
  split at h
  · cases h
  next sources _ =>
  unfold ofSource at h
  split at h
  · cases h
  intro record hrecord
  obtain ⟨source, -, hconvert⟩ := exists_mem_of_forall₂ (mapM_eq_ok_iff.1 h) hrecord
  exact formed_of_convertInstance hgrounded hconvert

end Scene

/-! ### Images -/

/-- The values that are read from a record suit its fields. -/
theorem RecordView.allFormed_of_toValues {record : RecordView}
    (hgrounded : record.view.registry.Grounded) {key? : Nat → Option InstanceKey} {nesting : Nat}
    {values : List Value} (h : record.toValues key? nesting = .ok values) :
    Value.AllFormed record.view.registry record.layout.fields values := by
  induction nesting using Nat.strongRecOn generalizing record values with
  | ind nesting ih =>
      rw [toValues_eq, mapM_eq_ok_iff] at h
      refine Value.allFormed_iff.2 (forall₂_imp_of_mem (fun field _ value hfield => ?_) h)
      obtain ⟨found, hfound, hvalue⟩ := bind_eq_ok_iff.1 hfield
      cases hkind : field.kind with
      | scalar type =>
          obtain ⟨span, -, rfl⟩ := (readField_scalar_iff hkind).1 hfound
          cases hvalue
          exact Value.formed_scalar_iff.2 ⟨_, rfl, rfl⟩
      | text =>
          obtain ⟨word, content, -, -, rfl⟩ := (readField_text_iff hkind).1 hfound
          cases hvalue
          exact Value.formed_text_iff.2 ⟨_, rfl⟩
      | component target =>
          obtain ⟨layout, hlayout, rfl⟩ := (readField_component_iff hkind).1 hfound
          obtain ⟨inner, hinner, hvalue⟩ := bind_eq_ok_iff.1 hvalue
          cases hvalue
          cases nesting with
          | zero => cases hinner
          | succ nesting =>
              rw [hgrounded.id_eq hlayout]
              exact Value.formed_component_iff.2 ⟨layout, inner, rfl, hlayout,
                @ih nesting (Nat.lt_succ_self nesting)
                  ⟨record.view, layout, record.offset + field.offset⟩ hgrounded inner hinner⟩
      | ref target =>
          obtain ⟨word, target, -, -, rfl⟩ := (readField_ref_iff hkind).1 hfound
          obtain ⟨key, rfl, -⟩ := FieldView.toValue_ref_eq_ok_iff.1 hvalue
          exact Value.formed_ref_iff.2 ⟨_, rfl⟩

namespace View

variable {view : View}

theorem registry_of_ofScan {base : Nat} {bytes : Bytes} {found : Scan}
    (h : ofScan registry base bytes found = .ok view) : view.registry = registry := by
  obtain ⟨header, -, hok⟩ := bind_eq_ok_iff.1 h
  cases hok
  rfl

theorem registry_of_ofBytes {base : Nat} {bytes : Bytes}
    (h : ofBytes registry base bytes = .ok view) : view.registry = registry := by
  obtain ⟨found, -, h⟩ := bind_eq_ok_iff.1 h
  exact registry_of_ofScan h

theorem registry_of_resolve {buffer : Buffer} (h : (buffer.resolve registry).1 = .ok view) :
    view.registry = registry := by
  unfold Buffer.resolve at h
  split at h
  · cases h
  split at h
  · cases h
  split at h
  · cases h
  · next hview =>
      cases h
      exact registry_of_ofScan hview

theorem known_of_mem_instances {record : RecordView} (h : record ∈ view.instances) :
    record.view = view ∧ ∃ position, view.registry.layout? position = some record.layout := by
  obtain ⟨place, -, hentry⟩ := List.mem_filterMap.1 h
  unfold entry? at hentry
  split at hentry
  · cases hentry
  next layout hlayout =>
  split at hentry
  · cases hentry
    exact ⟨rfl, place.1, hlayout⟩
  · cases hentry

/-- **An image is read as a well-formed scene.** -/
theorem formed_of_toScene (hgrounded : view.registry.Grounded) {scene : Scene}
    (h : view.toScene = .ok scene) : scene.Formed view.registry := by
  intro record hrecord
  obtain ⟨shown, hshown, hread⟩ := exists_mem_of_forall₂ (mapM_eq_ok_iff.1 h) hrecord
  obtain ⟨values, hvalues, hok⟩ := bind_eq_ok_iff.1 hread
  cases hok
  obtain ⟨hview, position, hlayout⟩ := known_of_mem_instances hshown
  have hid : shown.layout.id = position := hgrounded.id_eq hlayout
  refine ⟨shown.layout, hid.symm ▸ hlayout, ?_⟩
  rw [← hview] at hgrounded ⊢
  exact RecordView.allFormed_of_toValues hgrounded hvalues

end View

end ScenePack
