/-
**Packing succeeds.**

The check of a scene finds everything that can go wrong when it is packed: references that lead
nowhere and embedded records of unknown types.  So a scene that passes the check can be packed,
also if its records have more or fewer values than their types have fields.

Main results:

* `Scene.exists_position` — every record of a known type has a position;
* `exists_writeValue` — a value that passes the check can be written;
* `Scene.exists_pack_iff` — **the scenes that pass the check can be packed**, and no others.
-/

import ScenePack.Proofs.Image.Packed
import ScenePack.Proofs.Scene.Rearranged
import ScenePack.Proofs.Scene.Zero

set_option relaxedAutoImplicit false
set_option autoImplicit false

namespace ScenePack

variable {registry : Registry} {scene : Scene} {position? : InstanceKey → Option Nat}

/-! ### Positions -/

theorem exists_lookup_zip {keys : List InstanceKey} {values : List Nat} {key : InstanceKey}
    (h : key ∈ keys) (hlength : keys.length ≤ values.length) :
    ∃ value, (keys.zip values).lookup key = some value := by
  cases hlookup : (keys.zip values).lookup key with
  | some value => exact ⟨value, rfl⟩
  | none =>
      have hkey : key ∈ (keys.zip values).map Prod.fst := by rwa [List.map_fst_zip hlength]
      obtain ⟨pair, hpair, rfl⟩ := List.mem_map.1 hkey
      simpa using List.lookup_eq_none_iff.1 hlookup pair hpair

/-- **Every record of a known type has a position.** -/
theorem Scene.exists_position (hgrounded : registry.Grounded) (config : PackConfig)
    {key : InstanceKey} {record : Record} (hrecord : scene[key]? = some record)
    {layout : RecordLayout} (hlayout : registry.layout? record.typeId = some layout) :
    ∃ position, (scene.arrange registry config).position? key = some position := by
  have hentry : (⟨key, record, layout⟩ : StoredRecord) ∈ scene.storedOf layout :=
    mem_storedOf_iff.2 ⟨hrecord, (hgrounded.id_eq hlayout).symm, rfl⟩
  have hstored : (⟨key, record, layout⟩ : StoredRecord) ∈ scene.stored registry :=
    List.mem_flatMap.2 ⟨layout, Registry.mem_types_of_layout? hlayout, hentry⟩
  exact exists_lookup_zip (List.mem_map_of_mem hstored) (by simp [arrange])

/-! ### Writing -/

mutual

/-- **A value that passes the check can be written**, whatever it is written after. -/
theorem exists_writeValue
    (hposition : ∀ {key record}, scene[key]? = some record →
      ∃ position, position? key = some position)
    {owner : RecordLayout} {field : FieldLayout} {ownerName fieldName : String} (value : Value)
    (pool : TextPool) (h : Scene.checkValue registry scene owner field value = .ok ()) :
    ∃ result, writeValue registry position? ownerName fieldName value pool = .ok result := by
  cases value with
  | scalar number => exact ⟨_, by rw [writeValue]⟩
  | text content =>
      cases content with
      | none => exact ⟨_, by rw [writeValue]⟩
      | some text => exact ⟨_, by rw [writeValue]⟩
  | component typeId values =>
      obtain ⟨target, layout, -, -, hlayout, hvalues⟩ := Scene.checkValue_component_iff.1 h
      obtain ⟨result, hresult⟩ := exists_writeFields hposition values [] pool hvalues
      rw [writeValue, hlayout]
      exact ⟨_, bind_eq_ok_iff.2 ⟨result, hresult, rfl⟩⟩
  | ref key =>
      cases key with
      | none => exact ⟨_, by rw [writeValue]⟩
      | some key =>
          obtain ⟨target, -, hkey⟩ := Scene.checkValue_ref_iff.1 h
          obtain ⟨record, hrecord, -⟩ := hkey key rfl
          obtain ⟨position, hfound⟩ := hposition hrecord
          exact ⟨_, by rw [writeValue, hfound]⟩

theorem exists_writeFields
    (hposition : ∀ {key record}, scene[key]? = some record →
      ∃ position, position? key = some position)
    {owner : RecordLayout} {fields : List FieldLayout} (values : List Value) (written : Bytes)
    (pool : TextPool) (h : Scene.checkValues registry scene owner fields values = .ok ()) :
    ∃ result, writeFields registry position? owner fields values written pool = .ok result := by
  cases values with
  | nil => exact ⟨_, by rw [writeFields.eq_def]⟩
  | cons value values =>
      cases fields with
      | nil => exact ⟨_, by rw [writeFields.eq_def]⟩
      | cons field fields =>
          rw [Scene.checkValues] at h
          obtain ⟨_, hvalue, hvalues⟩ := bind_eq_ok_iff.1 h
          obtain ⟨⟨bytes, next⟩, hbytes⟩ := exists_writeValue hposition value pool hvalue
          obtain ⟨result, hresult⟩ := exists_writeFields hposition values
            (written.padTo field.offset ++ bytes) next hvalues
          rw [writeFields]
          exact ⟨result, bind_eq_ok_iff.2 ⟨_, hbytes, hresult⟩⟩

end

theorem exists_writeRecords
    (hposition : ∀ {key record}, scene[key]? = some record →
      ∃ position, position? key = some position)
    {places : List (StoredRecord × Nat)}
    (h : ∀ place ∈ places, Scene.checkValues registry scene place.1.layout place.1.layout.fields
      place.1.record.values = .ok ()) (written : Bytes) (pool : TextPool) :
    ∃ result, writeRecords registry position? places written pool = .ok result := by
  induction places generalizing written pool with
  | nil => exact ⟨_, rfl⟩
  | cons place rest ih =>
      obtain ⟨hplace, hrest⟩ := List.forall_mem_cons.1 h
      obtain ⟨⟨bytes, next⟩, hbytes⟩ := exists_writeFields hposition place.1.record.values [] pool
        hplace
      obtain ⟨result, hresult⟩ :=
        ih hrest (written.padTo place.2 ++ bytes.padTo place.1.layout.size) next
      exact ⟨result, bind_eq_ok_iff.2
        ⟨_, bind_eq_ok_iff.2 ⟨(bytes, next), hbytes, rfl⟩, hresult⟩⟩

theorem Scene.checkValues_of_mem_stored (hgrounded : registry.Grounded)
    (hcheck : scene.check registry = .ok ()) {entry : StoredRecord}
    (hentry : entry ∈ scene.stored registry) :
    checkValues registry scene entry.layout entry.layout.fields entry.record.values = .ok () := by
  obtain ⟨layout, hlayout, hentry⟩ := List.mem_flatMap.1 hentry
  obtain ⟨hrecord, htype, hsame⟩ := mem_storedOf_iff.1 hentry
  obtain ⟨own, hown, hvalues⟩ := known_of_check hcheck _ (List.mem_of_getElem? hrecord)
  obtain ⟨position, hposition⟩ := List.mem_iff_getElem?.1 hlayout
  -- the layout of the type of a stored record is the one it is stored with
  have hid : layout.id = position := hgrounded.id_eq hposition
  rw [htype, hid] at hown
  obtain rfl : layout = own := Option.some_inj.1 (hposition.symm.trans hown)
  rw [hsame]
  exact hvalues

/-- **The scenes that pass the check can be packed**, and no others. -/
theorem Scene.exists_pack_iff (hgrounded : registry.Grounded) (config : PackConfig) :
    (∃ bytes, scene.pack registry config = .ok bytes) ↔ scene.check registry = .ok () := by
  constructor
  · rintro ⟨bytes, hpack⟩
    exact (pack_eq_ok_iff.1 hpack).1
  · intro hcheck
    have hposition : ∀ {key record}, scene[key]? = some record →
        ∃ position, (scene.arrange registry config).position? key = some position := by
      intro key record hrecord
      obtain ⟨layout, hlayout, -⟩ := known_of_check hcheck record (List.mem_of_getElem? hrecord)
      exact exists_position hgrounded config hrecord hlayout
    have hplaces : ∀ place ∈ (scene.arrange registry config).places,
        checkValues registry scene place.1.layout place.1.layout.fields place.1.record.values =
          .ok () := fun place hplace =>
      checkValues_of_mem_stored hgrounded hcheck (Arrangement.mem_stored_of_mem_places hplace)
    obtain ⟨⟨out, pool⟩, hwrite⟩ := exists_writeRecords hposition hplaces
      (scene.arrange registry config).front
      ⟨(scene.arrange registry config).textAt, config.shareTexts, []⟩
    exact ⟨_, pack_eq_ok_iff.2 ⟨hcheck, out, pool, hwrite, rfl⟩⟩

namespace Scene

variable {config : PackConfig}

/-- The sizes that are measured are those of the arrangement. -/
theorem measure_eq_ok_iff {sizes : ImageSizes} :
    scene.measure registry config = .ok sizes ↔
      scene.check registry = .ok () ∧ (scene.arrange registry config).sizes = sizes := by
  rw [measure, bind_eq_ok_iff]
  constructor
  · rintro ⟨_, hcheck, hok⟩
    exact ⟨hcheck, Except.ok.inj hok⟩
  · rintro ⟨hcheck, rfl⟩
    exact ⟨(), hcheck, rfl⟩

/-- The scenes that pass the check can be measured, and no others. -/
theorem exists_measure_iff :
    (∃ sizes, scene.measure registry config = .ok sizes) ↔ scene.check registry = .ok () := by
  simp only [measure_eq_ok_iff, exists_and_left, exists_eq', and_true]

theorem measure_eq_error_iff {error : SceneError} :
    scene.measure registry config = .error error ↔ scene.check registry = .error error := by
  rw [measure, bind_eq_error_iff]
  refine or_iff_left ?_
  rintro ⟨_, -, hok⟩
  cases hok

/-- Packing a scene fails as its check does. -/
theorem pack_eq_error_iff (hgrounded : registry.Grounded) {error : SceneError} :
    scene.pack registry config = .error error ↔ scene.check registry = .error error := by
  constructor
  · intro h
    rcases bind_eq_error_iff.1 h with hcheck | ⟨_, hcheck, -⟩
    · exact hcheck
    · obtain ⟨bytes, hbytes⟩ := (exists_pack_iff hgrounded config).2 hcheck
      cases h.symm.trans hbytes
  · intro h
    rw [pack, h]
    rfl

end Scene

end ScenePack
