/-
**Completed records.**

A record that was made for another registry may have more or fewer values than its type has fields
here.  Values and fields are compared as far as both go, and so they are packed: values without a
field are left out, and fields without a value hold zeros.  What is packed is the completed record.

Main definitions:

* `Value.complete`, `Record.complete`, `Scene.complete` — values, records and scenes with one value
  for each field.

Main results:

* `Record.allTexts_complete_sublist` — completing adds no texts;
* `Scene.storable_complete` — **a scene that passes the check can be stored once it is completed**;
* `Scene.complete_of_formed` — a well-formed scene is complete;
* `Scene.renumbered_complete_iff` — **only a well-formed scene is**;
* `Scene.stored_complete` — completing keeps the order of an image.
-/

import ScenePack.Proofs.Scene.Rearranged
import ScenePack.Proofs.Scene.Zero

set_option relaxedAutoImplicit false
set_option autoImplicit false

namespace ScenePack

/-! ### Completing -/

namespace Value

mutual

/-- A value whose embedded record, if it is one, has one value for each field. -/
def complete (registry : Registry) (value : Value) : Value :=
  match value with
  | .component typeId values =>
      match registry.layout? typeId with
      | none => .component typeId values
      | some layout => .component typeId (completeAll registry layout.depth layout.fields values)
  | value => value

/-- One value for each field: values without a field are left out, and fields without a value get
the zeros that are built down to `nesting` levels. -/
def completeAll (registry : Registry) (nesting : Nat) (fields : List FieldLayout)
    (values : List Value) : List Value :=
  match values, fields with
  | [], fields => fields.map fun field => registry.zeroValue nesting field.kind
  | _ :: _, [] => []
  | value :: values, _ :: fields =>
      complete registry value :: completeAll registry nesting fields values

end

end Value

/-- The record with one value for each field of its type. -/
def Record.complete (registry : Registry) (record : Record) : Record :=
  match registry.layout? record.typeId with
  | none => record
  | some layout =>
      ⟨record.typeId, Value.completeAll registry layout.depth layout.fields record.values⟩

/-- A stored record with one value for each field. -/
def StoredRecord.complete (registry : Registry) (entry : StoredRecord) : StoredRecord :=
  { entry with record := entry.record.complete registry }

/-- The scene of the completed records. -/
def Scene.complete (registry : Registry) (scene : Scene) : Scene :=
  scene.map (Record.complete registry)

section Completing

variable {registry : Registry}

theorem Value.complete_component {typeId : TypeId} {values : List Value} {layout : RecordLayout}
    (h : registry.layout? typeId = some layout) :
    (component typeId values).complete registry =
      component typeId (completeAll registry layout.depth layout.fields values) := by
  rw [complete, h]

theorem Record.complete_of_layout? {record : Record} {layout : RecordLayout}
    (h : registry.layout? record.typeId = some layout) :
    record.complete registry =
      ⟨record.typeId, Value.completeAll registry layout.depth layout.fields record.values⟩ := by
  rw [complete, h]

theorem Record.typeId_complete (record : Record) :
    (record.complete registry).typeId = record.typeId := by
  unfold complete
  split <;> rfl

/-! ### Texts -/

namespace Value

/-- Values without texts have none. -/
theorem allTexts_eq_nil {values : List Value} (h : ∀ value ∈ values, value.texts = []) :
    allTexts values = [] := by
  induction values with
  | nil => rfl
  | cons value values ih =>
      obtain ⟨hvalue, hvalues⟩ := List.forall_mem_cons.1 h
      rw [allTexts, hvalue, ih hvalues, List.append_nil]

theorem texts_zeroValue (registry : Registry) (nesting : Nat) (kind : FieldKind Target) :
    (registry.zeroValue nesting kind).texts = [] := by
  induction nesting generalizing kind with
  | zero => cases kind <;> rfl
  | succ nesting ih =>
      cases kind with
      | scalar type => rfl
      | text => rfl
      | ref target => rfl
      | component target =>
          rw [Registry.zeroValue]
          split
          · rfl
          · exact allTexts_eq_nil (List.forall_mem_map.2 fun field _ => ih field.kind)

mutual

/-- Completing a value adds no texts, and may leave some out. -/
theorem texts_complete_sublist (value : Value) :
    (value.complete registry).texts.Sublist value.texts := by
  cases value with
  | scalar number => exact .refl _
  | text content => exact .refl _
  | component typeId values =>
      rw [complete]
      split
      · exact .refl _
      · exact allTexts_completeAll_sublist values
  | ref key => exact .refl _

theorem allTexts_completeAll_sublist {nesting : Nat} {fields : List FieldLayout}
    (values : List Value) :
    (allTexts (completeAll registry nesting fields values)).Sublist (allTexts values) := by
  cases values with
  | nil =>
      rw [completeAll, allTexts_eq_nil
        (List.forall_mem_map.2 fun field _ => texts_zeroValue registry nesting field.kind)]
      exact List.nil_sublist _
  | cons value values =>
      cases fields with
      | nil => exact List.nil_sublist _
      | cons field fields =>
          rw [completeAll, allTexts, allTexts]
          exact (texts_complete_sublist value).append (allTexts_completeAll_sublist values)

end

end Value

theorem Record.allTexts_complete_sublist (record : Record) :
    (Value.allTexts (record.complete registry).values).Sublist (Value.allTexts record.values) := by
  unfold complete
  split
  · exact .refl _
  · exact Value.allTexts_completeAll_sublist record.values

/-! ### Completed scenes can be stored -/

namespace Scene

variable {scene : Scene}

/-- At each key of a scene, the other one has a record of the same type. -/
def TypedAlike (scene other : Scene) : Prop :=
  ∀ (key : InstanceKey) (record : Record), scene[key]? = some record →
    ∃ found, other[key]? = some found ∧ found.typeId = record.typeId

theorem typedAlike_complete (registry : Registry) (scene : Scene) :
    scene.TypedAlike (scene.complete registry) := by
  intro key record hkey
  refine ⟨record.complete registry, ?_, record.typeId_complete⟩
  rw [complete, List.getElem?_map, hkey]
  rfl

mutual

/-- A value that passes the check can be stored once it is completed, in a scene whose records are
of the same types. -/
theorem storable_complete_of_checkValue (hgrounded : registry.Grounded) {other : Scene}
    (hother : scene.TypedAlike other)
    {owner : RecordLayout} {field : FieldLayout} (value : Value)
    (h : checkValue registry scene owner field value = .ok ()) :
    (value.complete registry).Storable registry other field.kind := by
  cases value with
  | scalar number =>
      rw [checkValue_scalar_iff.1 h]
      exact Value.storable_scalar_iff.2 ⟨number, rfl, rfl⟩
  | text content =>
      obtain ⟨hkind, hfree⟩ := checkValue_text_iff.1 h
      rw [hkind]
      exact Value.storable_text_iff.2 ⟨content, rfl, hfree⟩
  | component typeId values =>
      obtain ⟨target, layout, hkind, rfl, hlayout, hvalues⟩ := checkValue_component_iff.1 h
      rw [hkind, Value.complete_component hlayout]
      exact Value.storable_component_iff.2 ⟨layout, _, rfl, hlayout,
        allStorable_completeAll_of_checkValues hgrounded hother values
          (hgrounded.embedded (Registry.mem_types_of_layout? hlayout)) hvalues⟩
  | ref key =>
      obtain ⟨target, hkind, hkey⟩ := checkValue_ref_iff.1 h
      rw [hkind]
      refine Value.storable_ref_iff.2 ⟨key, rfl, fun old hold => ?_⟩
      obtain ⟨record, hrecord, htype⟩ := hkey old hold
      obtain ⟨found, hfound, hsame⟩ := hother old record hrecord
      exact ⟨found, hfound, hsame.trans htype⟩

/-- Values that pass the check can be stored once they are completed. -/
theorem allStorable_completeAll_of_checkValues (hgrounded : registry.Grounded) {other : Scene}
    (hother : scene.TypedAlike other)
    {owner : RecordLayout} {nesting : Nat} {fields : List FieldLayout} (values : List Value)
    (hshallow : registry.Shallow nesting fields)
    (h : checkValues registry scene owner fields values = .ok ()) :
    Value.AllStorable registry other fields
      (Value.completeAll registry nesting fields values) := by
  cases values with
  | nil =>
      rw [Value.completeAll]
      exact (Registry.zeros_zeroValue hgrounded hshallow).allStorable hgrounded hshallow other
  | cons value values =>
      cases fields with
      | nil =>
          rw [Value.completeAll]
          trivial
      | cons field fields =>
          rw [checkValues] at h
          obtain ⟨_, hvalue, hvalues⟩ := bind_eq_ok_iff.1 h
          rw [Value.completeAll, Value.AllStorable]
          exact ⟨storable_complete_of_checkValue hgrounded hother value hvalue,
            allStorable_completeAll_of_checkValues hgrounded hother values
              (List.forall_mem_cons.1 hshallow).2 hvalues⟩

end

/-- **A scene that passes the check can be stored once it is completed.** -/
theorem storable_complete (hgrounded : registry.Grounded) (h : scene.check registry = .ok ()) :
    ∀ record ∈ scene.complete registry, record.Storable registry (scene.complete registry) := by
  refine List.forall_mem_map.2 fun record hrecord => ?_
  obtain ⟨layout, hlayout, hvalues⟩ := known_of_check h record hrecord
  rw [Record.complete_of_layout? hlayout]
  exact ⟨layout, hlayout, allStorable_completeAll_of_checkValues hgrounded
    (typedAlike_complete registry scene) record.values
    (hgrounded.embedded (Registry.mem_types_of_layout? hlayout)) hvalues⟩

end Scene

/-! ### Well-formed scenes are complete -/

namespace Value

mutual

theorem complete_of_formed {kind : FieldKind Target} (value : Value)
    (h : value.Formed registry kind) : value.complete registry = value := by
  cases value with
  | scalar number => rfl
  | text content => rfl
  | component typeId values =>
      rw [Formed] at h
      obtain ⟨-, layout, hlayout, hvalues⟩ := h
      rw [complete_component hlayout, completeAll_of_allFormed values hvalues]
  | ref key => rfl

theorem completeAll_of_allFormed {nesting : Nat} {fields : List FieldLayout} (values : List Value)
    (h : AllFormed registry fields values) :
    completeAll registry nesting fields values = values := by
  cases values with
  | nil =>
      cases fields with
      | nil => rw [completeAll, List.map_nil]
      | cons field fields => exact h.elim
  | cons value values =>
      cases fields with
      | nil => exact h.elim
      | cons field fields =>
          rw [AllFormed] at h
          rw [completeAll, complete_of_formed value h.1, completeAll_of_allFormed values h.2]

end

mutual

/-- A value that passes the check is well formed if completing it changes nothing but the keys of
references. -/
theorem formed_of_rename_complete {scene : Scene} {move : InstanceKey → InstanceKey}
    {owner : RecordLayout} {field : FieldLayout} (value : Value)
    (h : Scene.checkValue registry scene owner field value = .ok ())
    (hsame : (value.complete registry).rename move = value.rename move) :
    value.Formed registry field.kind := by
  cases value with
  | scalar number =>
      rw [Scene.checkValue_scalar_iff.1 h]
      exact formed_scalar_iff.2 ⟨number, rfl, rfl⟩
  | text content =>
      rw [(Scene.checkValue_text_iff.1 h).1]
      exact formed_text_iff.2 ⟨content, rfl⟩
  | component typeId values =>
      obtain ⟨target, layout, hkind, rfl, hlayout, hvalues⟩ := Scene.checkValue_component_iff.1 h
      rw [complete_component hlayout, rename_component, rename_component] at hsame
      rw [hkind]
      exact formed_component_iff.2 ⟨layout, values, rfl, hlayout,
        allFormed_of_renameAll_completeAll values hvalues (component.inj hsame).2⟩
  | ref key =>
      obtain ⟨target, hkind, -⟩ := Scene.checkValue_ref_iff.1 h
      rw [hkind]
      exact formed_ref_iff.2 ⟨key, rfl⟩

theorem allFormed_of_renameAll_completeAll {scene : Scene} {move : InstanceKey → InstanceKey}
    {owner : RecordLayout} {nesting : Nat} {fields : List FieldLayout} (values : List Value)
    (h : Scene.checkValues registry scene owner fields values = .ok ())
    (hsame : renameAll move (completeAll registry nesting fields values) =
      renameAll move values) :
    AllFormed registry fields values := by
  cases values with
  | nil =>
      cases fields with
      | nil => trivial
      | cons field fields =>
          rw [completeAll, List.map_cons, renameAll, renameAll] at hsame
          cases hsame
  | cons value values =>
      cases fields with
      | nil =>
          rw [completeAll, renameAll, renameAll] at hsame
          cases hsame
      | cons field fields =>
          rw [Scene.checkValues] at h
          obtain ⟨_, hvalue, hvalues⟩ := bind_eq_ok_iff.1 h
          rw [completeAll, renameAll, renameAll] at hsame
          obtain ⟨hfirst, hrest⟩ := List.cons.inj hsame
          rw [AllFormed]
          exact ⟨formed_of_rename_complete value hvalue hfirst,
            allFormed_of_renameAll_completeAll values hvalues hrest⟩

end

end Value

namespace Scene

variable {scene : Scene}

theorem complete_of_formed (h : scene.Formed registry) : scene.complete registry = scene := by
  refine (List.map_congr_left fun record hrecord => ?_).trans (List.map_id scene)
  obtain ⟨layout, hlayout, hvalues⟩ := h record hrecord
  rw [Record.complete_of_layout? hlayout, Value.completeAll_of_allFormed record.values hvalues]
  rfl

/-! ### The order of the records -/

theorem order_complete (registry : Registry) (scene : Scene) :
    (scene.complete registry).order = scene.order.map (Prod.map (Record.complete registry) id) := by
  rw [order, complete, List.zipIdx_map, order]
  refine (List.map_mergeSort fun a _ b _ => ?_).symm
  simp only [keyOrder, Prod.map_fst, Record.typeId_complete]

theorem newKey_complete (registry : Registry) (scene : Scene) :
    (scene.complete registry).newKey = scene.newKey := by
  funext key
  rw [newKey, newKey, order_complete, List.map_map]
  rfl

/-- **Only a well-formed scene is complete**, up to the order of its records. -/
theorem renumbered_complete_iff (h : scene.check registry = .ok ()) :
    (scene.complete registry).renumbered = scene.renumbered ↔ scene.Formed registry := by
  constructor
  · intro hsame record hrecord
    obtain ⟨layout, hlayout, hvalues⟩ := known_of_check h record hrecord
    obtain ⟨key, hkey⟩ := List.mem_iff_getElem?.1 hrecord
    have hplace : (record, key) ∈ scene.order :=
      scene.order_perm.mem_iff.2 (List.mem_zipIdx_iff_getElem?.2 hkey)
    rw [renumbered, renumbered, order_complete, newKey_complete, List.map_map] at hsame
    have hrecords := List.map_inj_left.1 hsame (record, key) hplace
    have hcompleted := congrArg Record.values hrecords
    simp only [Function.comp, Prod.map, Record.complete_of_layout? hlayout] at hcompleted
    exact ⟨layout, hlayout,
      Value.allFormed_of_renameAll_completeAll record.values hvalues hcompleted⟩
  · intro hformed
    rw [complete_of_formed hformed]

theorem storedOf_complete (registry : Registry) (scene : Scene) (layout : RecordLayout) :
    (scene.complete registry).storedOf layout =
      (scene.storedOf layout).map (StoredRecord.complete registry) := by
  rw [storedOf, complete, List.zipIdx_map, List.filter_map, storedOf, List.map_map, List.map_map]
  have htype : ((fun entry : Record × InstanceKey => decide (entry.1.typeId = layout.id)) ∘
      Prod.map (Record.complete registry) id) =
        fun entry => decide (entry.1.typeId = layout.id) := by
    funext entry
    simp only [Function.comp, Prod.map_fst, Record.typeId_complete]
  rw [htype]
  rfl

/-- **Completing keeps the order of an image.** -/
theorem stored_complete (registry : Registry) (scene : Scene) :
    (scene.complete registry).stored registry =
      (scene.stored registry).map (StoredRecord.complete registry) := by
  rw [stored, stored, List.map_flatMap]
  exact congrArg (registry.types.flatMap ·) (funext (storedOf_complete registry scene))

end Scene

end Completing

end ScenePack
