/-
**Views with guards.**

A view computes the positions of ranges, of words of the directory and of fields anew, and does not
repeat the checks of the scan that it was made from.  It does not need to: its tables are those of
the scan, and every record that it comes to lies inside, whatever the words of the image hold.

Main definitions:

* `Guarded.ranges`, `Guarded.instance?`, `Guarded.instances` — what the tables list, with guards;
* `Guarded.readField`, `Guarded.field`, `Guarded.bytes` — the fields and the bytes of a record;
* `Guarded.toScene` — the scene that an image holds;
* `Guarded.Shows` — a view that shows with guards what it shows without;
* `View.Fits`, `RecordView.Fits` — a view whose tables lie inside, and a record that does.

Main results:

* `Guarded.typeAt?_eq` — **the running count of the instances stays inside**, whatever the index;
* `View.Fits.fits_of_reached` — **every record that is reached lies inside**;
* `Guarded.readField_eq` — no guard stops the reading of a field of a record that lies inside;
* `decode_never_stopped` — **no guard ever stops the decoder**, on any bytes.
-/

import ScenePack.Proofs.Image.Guarded
import ScenePack.Proofs.Image.Transparency

set_option relaxedAutoImplicit false
set_option autoImplicit false

namespace ScenePack

namespace Guarded

/-- The view of an image whose pointers hold positions plus `base`. -/
def ofBytes (registry : Registry) (base : Nat) (bytes : Bytes) : Except DecodeFault View := do
  let found ← scan registry base bytes
  lift (View.ofScan registry base bytes found)

/-! ### Instances -/

/-- What cannot be read is left out, but not what a guard stops. -/
def optional {α : Type} : Except DecodeFault α → Except DecodeFault (Option α)
  | .ok value => .ok (some value)
  | .error (.image _) => .ok none
  | .error .outside => .error .outside

/-- The ranges, in order. -/
def ranges (view : View) : Except DecodeFault (List Range) := do
  let found ← (List.range view.header.rangeCount).mapM fun index => do
    let position ← tablePosition view.rangesAt index Range.size
    optional (readRange view.bytes position)
  .ok (found.filterMap id)

/-- The record of the directory at an index, of the given type. -/
def entry? (view : View) (index : Nat) (typeId : TypeId) :
    Except DecodeFault (Option RecordView) :=
  match view.registry.layout? typeId with
  | none => .ok none
  | some layout => do
      let entry ← optional (readEntry view.bytes view.base view.directoryAt layout index)
      .ok (entry.map fun entry => ⟨view, layout, entry.offset⟩)

/-- The type of the range that covers an index, where the ranges start at `first`. -/
def typeAt? : List Range → (first index : Nat) → Except DecodeFault (Option TypeId)
  | [], _, _ => .ok none
  | range :: rest, first, index => do
      let stop ← word (first + range.count)
      if index < stop then .ok (some range.typeId) else typeAt? rest stop index

/-- The instance at a position of the directory. -/
def instance? (view : View) (index : Nat) : Except DecodeFault (Option RecordView) := do
  let ranges ← ranges view
  let typeId ← typeAt? ranges 0 index
  match typeId with
  | none => .ok none
  | some typeId => entry? view index typeId

/-- The instances in the order of the directory. -/
def instances (view : View) : Except DecodeFault (List RecordView) := do
  let ranges ← ranges view
  let found ← (Range.spread ranges).zipIdx.mapM fun place => entry? view place.2 place.1
  .ok (found.filterMap id)

/-! ### Records -/

/-- The text that a word leads to, none for zero. -/
def textAt (view : View) (value : Nat) : Except DecodeFault (Option String) :=
  if value = 0 then .ok none
  else do
    let offset ← lift (offsetOf value view.base view.bytes.length)
    let text ← readText view.bytes offset
    .ok (some text)

/-- The record of a type that a word leads to, none for zero. -/
def recordAt (view : View) (typeId : TypeId) (value : Nat) :
    Except DecodeFault (Option RecordView) :=
  if value = 0 then .ok none
  else
    match view.registry.layout? typeId with
    | none => .error (.image (.unknownTypeId typeId 0))
    | some layout => do
        let offset ← region value view.base view.bytes.length 1 layout.size layout.align
        .ok (some ⟨view, layout, offset⟩)

/-- The bytes of a record. -/
def bytes (record : RecordView) : Except DecodeFault Bytes := do
  let stop ← word (record.offset + record.layout.size)
  part record.view.bytes record.offset stop

/-- The value of a field. -/
def readField (record : RecordView) (field : FieldLayout) : Except DecodeFault FieldView := do
  let view := record.view
  let position ← word (record.offset + field.offset)
  match field.kind with
  | .scalar type => do
      let stop ← word (position + type.size)
      match view.bytes.slice? position type.size with
      | some bytes => .ok (.scalar (Scalar.ofBytes type bytes))
      | none => .error (.image (.truncated stop view.bytes.length))
  | .text => do
      let value ← readSlot view.bytes position
      let text ← textAt view value
      .ok (.text text)
  | .component target =>
      match view.registry.layout? target.id with
      | some layout => .ok (.component ⟨view, layout, position⟩)
      | none => .error (.image (.unknownTypeId target.id 0))
  | .ref target => do
      let value ← readSlot view.bytes position
      let record ← recordAt view target.id value
      .ok (.ref record)

/-- The value of the named field. -/
def field (record : RecordView) (name : String) : Except DecodeFault FieldView :=
  match record.layout.field? name with
  | some placed => readField record placed
  | none => .error (.image (.unknownField record.layout.name name))

/-- The values of a record, where `key?` tells the key of the instance at a position.  Embedded
records are read down to `nesting` levels. -/
def toValues (key? : Nat → Option InstanceKey) :
    (nesting : Nat) → RecordView → Except DecodeFault (List Value)
  | nesting, record => record.layout.fields.mapM fun placed => do
      match ← readField record placed with
      | .scalar value => .ok (.scalar value)
      | .text value => .ok (.text value)
      | .component inner =>
          match nesting with
          | 0 => .error (.image (.unknownTypeId inner.layout.id 0))
          | nesting + 1 => do
              let values ← toValues key? nesting inner
              .ok (.component inner.layout.id values)
      | .ref none => .ok (.ref none)
      | .ref (some target) =>
          match key? target.offset with
          | some key => .ok (.ref (some key))
          | none => .error (.image (.invalidReference record.layout.name target.offset))

/-- The scene that an image holds.  References become places in the directory. -/
def toScene (view : View) : Except DecodeFault Scene := do
  let listed ← instances view
  let keys := (listed.map RecordView.offset).zipIdx
  listed.mapM fun record => do
    let values ← toValues (fun offset => keys.lookup offset) record.layout.depth record
    .ok ⟨record.layout.id, values⟩

/-- A view that shows with guards what it shows without: its tables, the scene that it holds, and of
every record that is reached the bytes, the fields and the values. -/
structure Shows (view : View) : Prop where
  ranges : Guarded.ranges view = .ok view.ranges
  instance? : ∀ index, Guarded.instance? view index = .ok (view.instance? index)
  instances : Guarded.instances view = .ok view.instances
  scene : toScene view = lift view.toScene
  bytes : ∀ record, view.Reached record → Guarded.bytes record = .ok record.bytes
  placed : ∀ record, view.Reached record → ∀ field ∈ record.layout.fields,
    readField record field = lift (record.readField field)
  named : ∀ record, view.Reached record → ∀ name, field record name = lift (record.field name)
  values : ∀ record, view.Reached record → ∀ key? nesting,
    toValues key? nesting record = lift (record.toValues key? nesting)

end Guarded

/-! ### What lies inside -/

/-- A view of an image that an address space can hold: its tables lie inside, and its ranges cover
the directory. -/
structure View.Fits (view : View) : Prop where
  sound : view.registry.Sound
  space : view.bytes.length < Address.space
  rangeTable : view.rangesAt + view.header.rangeCount * Range.size ≤ view.bytes.length
  directory : view.directoryAt + view.header.count * Address.width ≤ view.bytes.length
  counted : (Range.spread view.ranges).length = view.header.count

/-- A record of a known type that lies inside its image. -/
structure RecordView.Fits (record : RecordView) : Prop where
  known : ∃ position, record.view.registry.layout? position = some record.layout
  inside : record.offset + record.layout.size ≤ record.view.bytes.length

/-- The view of an image whose fixed parts are in place. -/
theorem Framed.view_fits {registry : Registry} (hsound : registry.Sound) {base : Nat}
    {bytes : Bytes} {found : Scan} (h : Framed registry base bytes found)
    (hlength : bytes.length < Address.space) : (found.view registry base bytes).Fits where
  sound := hsound
  space := hlength
  rangeTable := (region_eq_ok_iff.1 h.rangesAt).2.1
  directory := (region_eq_ok_iff.1 h.directoryAt).2.1
  counted := h.view_lists.1

namespace RecordView.Fits

variable {record : RecordView} {field : FieldLayout}

theorem field_inside (h : record.Fits) (hsound : record.view.registry.Sound)
    (hfield : field ∈ record.layout.fields) :
    record.offset + field.offset + field.size ≤ record.view.bytes.length := by
  obtain ⟨position, hlayout⟩ := h.known
  have hinside := (hsound position record.layout hlayout).2.inside field hfield
  have hrecord := h.inside
  omega

/-- **A record that is embedded** in one that lies inside lies inside. -/
theorem embedded (h : record.Fits) (hsound : record.view.registry.Sound)
    (hfield : field ∈ record.layout.fields) {inner : RecordView}
    (hread : record.readField field = .ok (.component inner)) :
    inner.view = record.view ∧ inner.Fits := by
  obtain ⟨target, layout, hkind, hlayout, rfl⟩ := RecordView.kind_of_readField_component hread
  obtain ⟨position, hknown⟩ := h.known
  have hsize : field.size = layout.size :=
    (hsound position record.layout hknown).2.size_eq hfield
      (Registry.extent?_of_component hkind hlayout)
  exact ⟨rfl, ⟨target.id, hlayout⟩, hsize ▸ h.field_inside hsound hfield⟩

end RecordView.Fits

/-- A field that reads as a reference leads to the record that its word leads to. -/
theorem RecordView.recordAt_of_readField {record inner : RecordView} {field : FieldLayout}
    (h : record.readField field = .ok (.ref (some inner))) :
    ∃ target value, record.view.recordAt target value = .ok (some inner) := by
  cases hkind : field.kind with
  | scalar type =>
      obtain ⟨_, _, hvalue⟩ := (readField_scalar_iff hkind).1 h
      cases hvalue
  | text =>
      obtain ⟨_, _, _, _, hvalue⟩ := (readField_text_iff hkind).1 h
      cases hvalue
  | component target =>
      obtain ⟨_, _, hvalue⟩ := (readField_component_iff hkind).1 h
      cases hvalue
  | ref target =>
      obtain ⟨value, found, -, hrecord, hvalue⟩ := (readField_ref_iff hkind).1 h
      cases hvalue
      exact ⟨target.id, value, hrecord⟩

/-- A record that a word leads to lies inside. -/
theorem View.fits_of_recordAt {view : View} {typeId : TypeId} {value : Nat} {record : RecordView}
    (h : view.recordAt typeId value = .ok (some record)) : record.view = view ∧ record.Fits := by
  rcases View.recordAt_eq_ok_iff.1 h with
    ⟨-, hnone⟩ | ⟨-, layout, target, hlayout, -, hinside, -, hsome⟩
  · cases hnone
  · cases hsome
    exact ⟨rfl, ⟨typeId, hlayout⟩, hinside⟩

theorem View.fits_of_entry? {view : View} {index : Nat} {typeId : TypeId} {record : RecordView}
    (h : view.entry? index typeId = some record) : record.view = view ∧ record.Fits := by
  unfold View.entry? at h
  split at h
  · cases h
  next layout hlayout =>
  split at h
  · next entry hentry =>
      cases h
      obtain ⟨rfl, hinside, -, -⟩ := readEntry_eq_ok_iff.1 hentry
      exact ⟨rfl, ⟨typeId, hlayout⟩, hinside⟩
  · cases h

/-- **Every record that is reached lies inside**, whatever the words hold that lead to it. -/
theorem View.Fits.fits_of_reached {view : View} (h : view.Fits) {record : RecordView}
    (hrecord : view.Reached record) : record.view = view ∧ record.Fits := by
  induction hrecord with
  | listed hlisted =>
      obtain ⟨place, -, hentry⟩ := List.mem_filterMap.1 hlisted
      exact View.fits_of_entry? hentry
  | @read record inner field value _ hfield hread hinner ih =>
      obtain ⟨hview, hfits⟩ := ih
      have hsound : record.view.registry.Sound := hview ▸ h.sound
      cases value with
      | scalar value => cases hinner
      | text value => cases hinner
      | component embedded =>
          cases hinner
          obtain ⟨hsame, hinside⟩ := hfits.embedded hsound hfield hread
          exact ⟨hsame.trans hview, hinside⟩
      | ref target =>
          obtain rfl : target = some inner := hinner
          obtain ⟨target, value, hvalue⟩ := RecordView.recordAt_of_readField hread
          obtain ⟨hsame, hinside⟩ := View.fits_of_recordAt hvalue
          exact ⟨hsame.trans hview, hinside⟩

namespace Guarded

/-! ### The tables of a view -/

section Tables

variable {view : View}

/-- What the decoder cannot read is left out. -/
theorem optional_lift {α : Type} (outcome : Except ImageError α) :
    optional (lift outcome) = .ok outcome.toOption := by
  cases outcome <;> rfl

theorem mapM_eq_ok_map {α β : Type} {step : α → Except DecodeFault β} {f : α → β} {items : List α}
    (h : ∀ item ∈ items, step item = .ok (f item)) : items.mapM step = .ok (items.map f) :=
  mapM_eq_ok_iff.2 (List.forall₂_map_right_iff.2 (List.forall₂_same.2 h))

theorem ranges_eq (h : view.Fits) : ranges view = .ok view.ranges := by
  have hspace := h.space
  have hread : ∀ index ∈ List.range view.header.rangeCount,
      (do
        let position ← tablePosition view.rangesAt index Range.size
        optional (readRange view.bytes position)) =
      Except.ok (Range.decode? view.bytes (view.rangesAt + index * Range.size)) := by
    intro index hindex
    have hinside := item_inside (List.mem_range.1 hindex) h.rangeTable
    refine bind_eq_ok_iff.2 ⟨_, tablePosition_eq (by omega), ?_⟩
    rw [readRange_eq (by omega), optional_lift, Bytes.readRange]
    cases Range.decode? view.bytes (view.rangesAt + index * Range.size) <;> rfl
  refine bind_eq_ok_iff.2 ⟨_, mapM_eq_ok_map hread, ?_⟩
  rw [List.filterMap_map]
  rfl

theorem entry?_eq (h : view.Fits) {index : Nat} (hindex : index < view.header.count)
    (typeId : TypeId) : entry? view index typeId = .ok (view.entry? index typeId) := by
  have hinside := item_inside hindex h.directory
  unfold entry? View.entry?
  cases hlayout : view.registry.layout? typeId with
  | none => rfl
  | some layout =>
      dsimp only
      rw [readEntry_eq h.space (h.sound _ layout hlayout).2.align_pos hinside, optional_lift]
      cases ScenePack.readEntry view.bytes view.base view.directoryAt layout index <;> rfl

/-- **The running count of the instances stays inside**, whatever the index is. -/
theorem typeAt?_eq {ranges : List Range} {first : Nat}
    (h : first + (Range.spread ranges).length < Address.space) (index : Nat) :
    typeAt? ranges first index = .ok (View.typeAt? ranges first index) := by
  induction ranges generalizing first with
  | nil => rfl
  | cons range rest ih =>
      rw [Range.spread_cons, List.length_append, List.length_replicate] at h
      refine bind_eq_ok_iff.2 ⟨_, word_eq (by omega), ?_⟩
      rw [View.typeAt?]
      split
      · rfl
      · exact ih (by omega)

/-- An index that a range covers is a place in the directory. -/
theorem lt_of_typeAt? {ranges : List Range} {first index : Nat} {typeId : TypeId}
    (h : View.typeAt? ranges first index = some typeId) :
    index < first + (Range.spread ranges).length := by
  induction ranges generalizing first with
  | nil => cases h
  | cons range rest ih =>
      rw [Range.spread_cons, List.length_append, List.length_replicate]
      rw [View.typeAt?] at h
      split at h
      · omega
      · have := ih h
        omega

/-- An instance is found without a guard, whatever its index is. -/
theorem instance?_eq (h : view.Fits) (index : Nat) :
    instance? view index = .ok (view.instance? index) := by
  have hroom : 0 + (Range.spread view.ranges).length < Address.space := by
    have hwidth : view.header.count ≤ view.header.count * Address.width :=
      Nat.le_mul_of_pos_right _ (by decide)
    have hdirectory := h.directory
    have hspace := h.space
    rw [h.counted]
    omega
  refine bind_eq_ok_iff.2 ⟨_, ranges_eq h, ?_⟩
  refine bind_eq_ok_iff.2 ⟨_, typeAt?_eq hroom index, ?_⟩
  rw [View.instance?]
  cases htype : View.typeAt? view.ranges 0 index with
  | none => rfl
  | some typeId =>
      have hindex := lt_of_typeAt? htype
      rw [h.counted, Nat.zero_add] at hindex
      exact entry?_eq h hindex typeId

theorem instances_eq (h : view.Fits) : instances view = .ok view.instances := by
  refine bind_eq_ok_iff.2 ⟨_, ranges_eq h, ?_⟩
  have hread : ∀ place ∈ (Range.spread view.ranges).zipIdx,
      entry? view place.2 place.1 = .ok (view.entry? place.2 place.1) := fun place hplace =>
    entry?_eq h (h.counted ▸ List.snd_lt_of_mem_zipIdx hplace) place.1
  refine bind_eq_ok_iff.2 ⟨_, mapM_eq_ok_map hread, ?_⟩
  rw [List.filterMap_map]
  rfl

end Tables

/-! ### Records that lie inside -/

section Records

variable {record : RecordView}

theorem textAt_eq (view : View) (value : Nat) : textAt view value = lift (view.textAt value) := by
  unfold textAt View.textAt
  split
  · rfl
  · exact bind_eq_lift rfl fun offset _ => bind_eq_lift (readText_eq _ _) fun _ _ => rfl

theorem recordAt_eq {view : View} (h : view.Fits) (typeId : TypeId) (value : Nat) :
    recordAt view typeId value = lift (view.recordAt typeId value) := by
  unfold recordAt View.recordAt
  split
  · rfl
  cases hlayout : view.registry.layout? typeId with
  | none => rfl
  | some layout =>
      exact bind_eq_lift (region_eq (h.sound _ layout hlayout).2.align_pos h.space) fun _ _ => rfl

theorem bytes_eq (h : record.view.Fits) (hfits : record.Fits) :
    bytes record = .ok record.bytes :=
  bind_eq_ok_iff.2
    ⟨_, word_eq (Nat.lt_of_le_of_lt hfits.inside h.space), part_eq hfits.inside⟩

/-- **No guard stops the reading of a field** of a record that lies inside. -/
theorem readField_eq (h : record.view.Fits) (hfits : record.Fits) {field : FieldLayout}
    (hfield : field ∈ record.layout.fields) :
    readField record field = lift (record.readField field) := by
  obtain ⟨position, hlayout⟩ := hfits.known
  have hshape := (h.sound position record.layout hlayout).2
  have hinside : record.offset + field.offset + field.size < Address.space :=
    Nat.lt_of_le_of_lt (hfits.field_inside h.sound hfield) h.space
  refine bind_eq_lift_of_ok (word_eq (by omega)) ?_
  rw [RecordView.readField]
  cases hkind : field.kind with
  | scalar type =>
      have hwidth : field.size = type.size := hshape.size_eq hfield (by rw [hkind]; rfl)
      refine bind_eq_lift_of_ok (word_eq (hwidth ▸ hinside)) ?_
      dsimp only
      cases record.view.bytes.slice? (record.offset + field.offset) type.size <;> rfl
  | text =>
      have hwidth : field.size = Address.width := hshape.size_eq hfield (by rw [hkind]; rfl)
      refine bind_eq_lift (readSlot_eq (hwidth ▸ hinside)) fun value _ => ?_
      exact bind_eq_lift (textAt_eq _ _) fun _ _ => rfl
  | component target =>
      dsimp only
      cases record.view.registry.layout? target.id <;> rfl
  | ref target =>
      have hwidth : field.size = Address.width := hshape.size_eq hfield (by rw [hkind]; rfl)
      refine bind_eq_lift (readSlot_eq (hwidth ▸ hinside)) fun value _ => ?_
      exact bind_eq_lift (recordAt_eq h _ _) fun _ _ => rfl

theorem mem_of_field? {layout : RecordLayout} {name : String} {placed : FieldLayout}
    (h : layout.field? name = some placed) : placed ∈ layout.fields := by
  obtain ⟨place, hplace, rfl⟩ := Option.map_eq_some_iff.1 h
  exact List.mem_of_getElem? (RecordLayout.getElem?_of_find? hplace).1

/-- No guard stops the reading of a field by its name. -/
theorem field_eq (h : record.view.Fits) (hfits : record.Fits) (name : String) :
    field record name = lift (record.field name) := by
  rw [field, RecordView.field]
  cases hplaced : record.layout.field? name with
  | none => rfl
  | some placed => exact readField_eq h hfits (mem_of_field? hplaced)

/-- **No guard stops the reading of all values** of a record, down to any level. -/
theorem toValues_eq (h : record.view.Fits) (hfits : record.Fits)
    (key? : Nat → Option InstanceKey) (nesting : Nat) :
    toValues key? nesting record = lift (record.toValues key? nesting) := by
  induction nesting using Nat.strongRecOn generalizing record with
  | ind nesting ih =>
      rw [toValues.eq_def, RecordView.toValues.eq_def]
      refine mapM_eq_lift fun field hfield => ?_
      refine bind_eq_lift (readField_eq h hfits hfield) fun value hread => ?_
      cases value with
      | scalar value => rfl
      | text value => rfl
      | component inner =>
          cases nesting with
          | zero => rfl
          | succ nesting =>
              obtain ⟨hview, hinside⟩ := hfits.embedded h.sound hfield hread
              exact bind_eq_lift (ih nesting (Nat.lt_succ_self nesting) (hview ▸ h) hinside)
                fun _ _ => rfl
      | ref target =>
          cases target with
          | none => rfl
          | some target =>
              dsimp only
              cases key? target.offset <;> rfl

end Records

/-- **A view whose tables lie inside shows with guards what it shows without.** -/
theorem shows_of_fits {view : View} (h : view.Fits) : Shows view := by
  -- every record that is reached lies inside, and belongs to the view
  have hreached : ∀ record, view.Reached record → record.view.Fits ∧ record.Fits := by
    intro record hrecord
    obtain ⟨hview, hfits⟩ := h.fits_of_reached hrecord
    exact ⟨hview ▸ h, hfits⟩
  constructor
  · exact ranges_eq h
  · exact instance?_eq h
  · exact instances_eq h
  · refine bind_eq_lift_of_ok (instances_eq h) (mapM_eq_lift fun record hrecord => ?_)
    obtain ⟨hview, hfits⟩ := hreached record (.listed hrecord)
    exact bind_eq_lift (toValues_eq hview hfits _ _) fun _ _ => rfl
  · intro record hrecord
    obtain ⟨hview, hfits⟩ := hreached record hrecord
    exact bytes_eq hview hfits
  · intro record hrecord field hfield
    obtain ⟨hview, hfits⟩ := hreached record hrecord
    exact readField_eq hview hfits hfield
  · intro record hrecord
    obtain ⟨hview, hfits⟩ := hreached record hrecord
    exact field_eq hview hfits
  · intro record hrecord
    obtain ⟨hview, hfits⟩ := hreached record hrecord
    exact toValues_eq hview hfits

end Guarded

/-! ### Untrusted bytes -/

/-- **No guard ever stops the decoder.**  With a guard at each sum, product, remainder and part,
the relocation of any bytes to any base comes to the same as without, and so do the scan behind a
view and all that the view shows, if an address space can hold the bytes.  The view may be one of a
buffer that has just been resolved, which is not scanned again. -/
theorem decode_never_stopped {registry : Registry} (hexact : registry.Exact) (base : Nat)
    {bytes : Bytes} (hlength : bytes.length < Address.space) :
    Guarded.relocate registry base bytes =
        (Guarded.lift (relocate registry base bytes).1, (relocate registry base bytes).2) ∧
      Guarded.ofBytes registry base bytes = Guarded.lift (View.ofBytes registry base bytes) ∧
      (∀ view, View.ofBytes registry base bytes = .ok view → Guarded.Shows view) ∧
      ∀ view, ((Buffer.ofBytes base bytes).resolve registry).1 = .ok view →
        Guarded.Shows view := by
  have hsound := hexact.sound
  refine ⟨Guarded.relocate_eq hsound base hlength, ?_, ?_, ?_⟩
  · exact Guarded.bind_eq_lift (Guarded.scan_eq hsound hlength) fun _ _ => rfl
  · intro view hview
    obtain ⟨found, haccepted, rfl⟩ := (View.ofBytes_eq_ok_iff hsound).1 hview
    exact Guarded.shows_of_fits (haccepted.view_fits hsound hlength)
  · intro view hview
    obtain ⟨found, hrebased, -, rfl, -⟩ := Buffer.rebased_of_resolve hsound (Prod.ext hview rfl)
    exact Guarded.shows_of_fits (hrebased.framed.view_fits hsound
      (hrebased.patched.length_eq ▸ hlength))

/-- No guard stops the decoder on the image of the sample, which is relocated by 4096 and read. -/
theorem decode_never_stopped_sample :
    Sample.registry.Exact ∧ Sample.image.length < Address.space ∧
      Guarded.relocate Sample.registry 4096 Sample.image = (.ok 5, Sample.relocated) ∧
      Guarded.Shows Sample.view := by
  have hlength : Sample.image.length < Address.space := by decide
  obtain ⟨hrelocate, -, -, -⟩ := decode_never_stopped Sample.exact 4096 hlength
  obtain ⟨-, -, hshows, -⟩ := decode_never_stopped Sample.exact 0 hlength
  rw [Sample.relocate_image] at hrelocate
  exact ⟨Sample.exact, hlength, hrelocate, hshows _ Sample.ofBytes_image⟩

end ScenePack
