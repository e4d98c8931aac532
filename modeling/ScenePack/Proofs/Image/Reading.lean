/-
**Reading an accepted image.**

A scan walks over the pointers that the layouts of the instances list.  A view goes from record to
record instead, along embedded records and references, and looks at fields.  Whatever way it takes,
it comes only to records that the scan holds, so nothing that it reads can fail.

Main definitions:

* `View.Reached` — the records that are reached from the instances by reading fields;
* `RecordView.Reads` — what the value of a field has to be, by the bytes of the image;
* `View.Readable` — a view whose scene and records can all be read.

Main results:

* `Accepted.exists_readField` — every field of a record that the scan holds is read;
* `Accepted.holds_of_reached` — **every record that is reached is held by the scan**;
* `View.readable_of_ofBytes` — **an image that has a view can be read**, along every path.
-/

import ScenePack.Proofs.Image.Stored

set_option relaxedAutoImplicit false
set_option autoImplicit false

namespace ScenePack

/-! ### Paths -/

/-- The records that are reached from the instances by reading fields: embedded records, and
records that references lead to. -/
inductive View.Reached (view : View) : RecordView → Prop where
  | listed {record : RecordView} (h : record ∈ view.instances) : Reached view record
  | read {record inner : RecordView} {field : FieldLayout} {value : FieldView}
      (h : Reached view record) (hfield : field ∈ record.layout.fields)
      (hread : record.readField field = .ok value) (hrecord : value.asRecord = some inner) :
      Reached view inner

/-! ### Values of fields -/

/-- What the value of a field has to be.  A number has the bytes of the field.  A text or a
reference is missing exactly if the word of the field is zero; otherwise the word leads to the text,
which ends at the first zero byte, or to an instance of the type that the field names. -/
def RecordView.Reads (record : RecordView) (field : FieldLayout) : FieldView → Prop
  | .scalar value => field.kind = .scalar value.type ∧
      record.view.bytes.slice? (record.offset + field.offset) value.type.size = some value.bytes
  | .text none => field.kind = .text ∧
      record.view.bytes.word? Address.width (record.offset + field.offset) = some 0
  | .text (some text) => field.kind = .text ∧ ∃ target rest,
      record.view.base + target ≠ 0 ∧
      record.view.bytes.word? Address.width (record.offset + field.offset) =
        some (record.view.base + target) ∧
      record.view.bytes.drop target = Utf8.encode text ++ 0 :: rest ∧ 0 ∉ Utf8.encode text
  | .component inner => ∃ target, field.kind = .component target ∧
      inner.view = record.view ∧ inner.offset = record.offset + field.offset ∧
      inner.layout.id = target.id ∧ inner.layout.name = target.name
  | .ref none => (∃ target, field.kind = .ref target) ∧
      record.view.bytes.word? Address.width (record.offset + field.offset) = some 0
  | .ref (some found) => ∃ target, field.kind = .ref target ∧
      record.view.base + found.offset ≠ 0 ∧
      record.view.bytes.word? Address.width (record.offset + field.offset) =
        some (record.view.base + found.offset) ∧
      found ∈ record.view.instances ∧
      found.layout.id = target.id ∧ found.layout.name = target.name

/-- The bytes of a number that is read are the bytes read. -/
theorem Scalar.bytes_ofBytes {type : ScalarType} {span : Bytes} (h : span.length = type.size) :
    (ofBytes type span).bytes = span := by
  have hlt : Word.decode span < Word.limit type.size := h ▸ Word.decode_lt span
  change Word.encode type.size (Word.decode span % Word.limit type.size) = span
  rw [Nat.mod_eq_of_lt hlt, ← h, Word.encode_decode]

namespace Accepted

variable {registry : Registry} {base : Nat} {bytes : Bytes} {found : Scan}

/-- **Every field of a record that the scan holds is read**, and its value is what it has to be. -/
theorem exists_readField (h : Accepted registry base bytes found) (hsound : registry.Sound)
    {record : RecordView} (hview : record.view = found.view registry base bytes)
    (hholds : found.Holds registry bytes.length record.layout record.offset) {field : FieldLayout}
    (hfield : field ∈ record.layout.fields) :
    ∃ value, record.readField field = .ok value ∧ record.Reads field value := by
  obtain ⟨position, hlayout⟩ := hholds.known
  have hshape := (hsound position record.layout hlayout).2
  have hinside := hholds.field_inside hsound hfield
  -- the word of a text or a reference has been checked
  have hpointer : ∀ kind, field.kind.slotKind? = some kind →
      ∃ word, bytes.readSlot (record.offset + field.offset) = .ok word ∧
        (word ≠ 0 → found.Leads bytes base kind word) := by
    intro kind hkind
    exact h.leads _ (hholds.pointer_of_slotKind? hsound hfield hkind)
  cases hkind : field.kind with
  | scalar type =>
      have hwidth : field.size = type.size := hshape.size_eq hfield (by rw [hkind]; rfl)
      obtain ⟨span, hspan⟩ : ∃ span,
          bytes.slice? (record.offset + field.offset) type.size = some span :=
        Bytes.exists_slice? (hwidth ▸ hinside)
      refine ⟨.scalar (.ofBytes type span), (RecordView.readField_scalar_iff hkind).2
        ⟨span, by rw [hview]; exact hspan, rfl⟩, hkind, ?_⟩
      rw [Scalar.bytes_ofBytes (Bytes.length_of_slice? hspan), hview]
      exact hspan
  | text =>
      obtain ⟨word, hword, hleads⟩ := hpointer .text (by rw [hkind]; rfl)
      have hread := Bytes.readSlot_eq_ok_iff.1 hword
      by_cases hzero : word = 0
      · refine ⟨.text none, (RecordView.readField_text_iff hkind).2 ⟨word, none,
          by rw [hview]; exact hword, View.textAt_eq_ok_iff.2 (Or.inl ⟨hzero, rfl⟩), rfl⟩,
          hkind, ?_⟩
        rw [hview, ← hzero]
        exact hread
      · obtain ⟨target, htarget, -, text, htext⟩ := hleads hzero
        obtain ⟨rfl, -⟩ := offsetOf_eq_ok_iff.1 htarget
        obtain ⟨hfree, rest, hrest⟩ := Bytes.readText_eq_ok_iff.1 htext
        refine ⟨.text (some text), (RecordView.readField_text_iff hkind).2 ⟨base + target,
          some text, by rw [hview]; exact hword, View.textAt_eq_ok_iff.2 (Or.inr ⟨hzero, target,
            text, by rw [hview]; rfl, by rw [hview]; exact htext, rfl⟩), rfl⟩,
          hkind, target, rest, ?_⟩
        rw [hview]
        exact ⟨hzero, hread, hrest, hfree⟩
  | component target =>
      obtain ⟨inner, hinner, hname⟩ := hshape.target field hfield target (by rw [hkind]; rfl)
      exact ⟨.component ⟨record.view, inner, record.offset + field.offset⟩,
        (RecordView.readField_component_iff hkind).2 ⟨inner, by rw [hview]; exact hinner, rfl⟩,
        target, hkind, rfl, rfl, (hsound target.id inner hinner).1, hname⟩
  | ref target =>
      obtain ⟨word, hword, hleads⟩ := hpointer (.ref target.id) (by rw [hkind]; rfl)
      have hread := Bytes.readSlot_eq_ok_iff.1 hword
      by_cases hzero : word = 0
      · refine ⟨.ref none, (RecordView.readField_ref_iff hkind).2 ⟨word, none,
          by rw [hview]; exact hword, View.recordAt_eq_ok_iff.2 (Or.inl ⟨hzero, rfl⟩), rfl⟩,
          ⟨target, hkind⟩, ?_⟩
        rw [hview, ← hzero]
        exact hread
      · obtain ⟨offset, htarget, entry, hentry, rfl, hid⟩ := hleads hzero
        obtain ⟨rfl, -⟩ := offsetOf_eq_ok_iff.1 htarget
        -- the entry has the layout that the field names
        obtain ⟨inner, hinner, hname⟩ := hshape.target field hfield target (by rw [hkind]; rfl)
        have hfits := h.fits entry hentry
        obtain ⟨place, hplace⟩ := hfits.known
        have heq : entry.layout = inner := by
          rw [← (hsound place entry.layout hplace).1, hid, hinner, Option.some_inj] at hplace
          exact hplace.symm
        have hlisted : entry.record record.view ∈ record.view.instances := by
          rw [hview]
          exact h.mem_instances_iff.2 ⟨entry, hentry, rfl⟩
        refine ⟨.ref (some (entry.record record.view)), (RecordView.readField_ref_iff hkind).2
          ⟨base + entry.offset, _, by rw [hview]; exact hword, View.recordAt_eq_ok_iff.2 (Or.inr
            ⟨hzero, entry.layout, entry.offset, ?_, by rw [hview]; rfl, ?_, hfits.aligned, rfl⟩),
            rfl⟩, target, hkind, ?_, ?_, hlisted, hid,
            (congrArg RecordLayout.name heq).trans hname⟩
        · rw [hview, heq]
          exact hinner
        · rw [hview]
          exact hfits.inside
        · rw [hview]
          exact hzero
        · rw [hview]
          exact hread

/-- **Every record that is reached is held by the scan.** -/
theorem holds_of_reached (h : Accepted registry base bytes found) (hsound : registry.Sound)
    {record : RecordView} (hrecord : (found.view registry base bytes).Reached record) :
    record.view = found.view registry base bytes ∧
      found.Holds registry bytes.length record.layout record.offset := by
  induction hrecord with
  | listed hlisted => exact h.holds_of_stored hsound (.listed hlisted)
  | @read record inner field value _ hfield hread hinner ih =>
      obtain ⟨hview, hholds⟩ := ih
      obtain ⟨_, hvalue, hreads⟩ := h.exists_readField hsound hview hholds hfield
      rw [hread] at hvalue
      cases hvalue
      cases value with
      | scalar value => cases hinner
      | text value => cases hinner
      | component embedded =>
          cases hinner
          obtain ⟨target, layout, hkind, hlayout, rfl⟩ :=
            RecordView.kind_of_readField_component hread
          rw [hview] at hlayout
          exact ⟨hview, hholds.embedded hsound hfield hkind hlayout⟩
      | ref target =>
          -- a reference leads back to an instance
          obtain rfl : target = some inner := hinner
          obtain ⟨_, _, _, _, hlisted, _, _⟩ := hreads
          rw [hview] at hlisted
          exact h.holds_of_stored hsound (.listed hlisted)

/-! ### Scenes -/

/-- Every record that the scan holds has values, if the keys of all instances are known. -/
theorem exists_toValues (h : Accepted registry base bytes found) (hsound : registry.Sound)
    {key? : Nat → Option InstanceKey}
    (hkey : ∀ entry ∈ found.entries, ∃ key, key? entry.offset = some key) {nesting : Nat}
    {record : RecordView} (hview : record.view = found.view registry base bytes)
    (hholds : found.Holds registry bytes.length record.layout record.offset)
    (hdepth : record.layout.depth ≤ nesting) :
    ∃ values, record.toValues key? nesting = .ok values := by
  induction nesting using Nat.strongRecOn generalizing record with
  | ind nesting ih =>
      rw [RecordView.toValues.eq_def]
      refine exists_mapM_eq_ok ?_
      intro field hfield
      obtain ⟨value, hread, hreads⟩ := h.exists_readField hsound hview hholds hfield
      rw [hread]
      cases value with
      | scalar value => exact ⟨_, rfl⟩
      | text value => exact ⟨_, rfl⟩
      | component inner =>
          obtain ⟨target, layout, hkind, hlayout, rfl⟩ :=
            RecordView.kind_of_readField_component hread
          obtain ⟨position, hknown⟩ := hholds.known
          rw [hview] at hlayout
          have hlt := (hsound position record.layout hknown).2.depth_lt field hfield target layout
            hkind hlayout
          cases nesting with
          | zero => omega
          | succ nesting =>
              obtain ⟨values, hvalues⟩ := @ih nesting (Nat.lt_succ_self nesting)
                ⟨record.view, layout, record.offset + field.offset⟩ hview
                (hholds.embedded hsound hfield hkind hlayout)
                (Nat.le_of_lt_succ (Nat.lt_of_lt_of_le hlt hdepth))
              exact ⟨.component layout.id values,
                bind_eq_ok_iff.2 ⟨_, rfl, bind_eq_ok_iff.2 ⟨values, hvalues, rfl⟩⟩⟩
      | ref target =>
          cases target with
          | none => exact ⟨_, rfl⟩
          | some target =>
              obtain ⟨_, _, _, _, hlisted, _, _⟩ := hreads
              rw [hview] at hlisted
              obtain ⟨entry, hentry, rfl⟩ := h.mem_instances_iff.1 hlisted
              obtain ⟨key, hkey⟩ := hkey entry hentry
              refine ⟨.ref (some key), ?_⟩
              dsimp only [Entry.record]
              simp only [bind, Except.bind, hkey]

/-- **An accepted image holds a scene.** -/
theorem exists_toScene (h : Accepted registry base bytes found) (hsound : registry.Sound) :
    ∃ scene, (found.view registry base bytes).toScene = .ok scene := by
  let view := found.view registry base bytes
  let key? : Nat → Option InstanceKey := fun offset =>
    (view.instances.map RecordView.offset).zipIdx.lookup offset
  have hkey : ∀ entry ∈ found.entries, ∃ key, key? entry.offset = some key := by
    intro entry hentry
    have hlisted : entry.record view ∈ view.instances :=
      h.mem_instances_iff.2 ⟨entry, hentry, rfl⟩
    exact exists_lookup_zipIdx (List.mem_map_of_mem (f := RecordView.offset) hlisted)
  refine exists_mapM_eq_ok ?_
  intro record hrecord
  obtain ⟨hview, hholds⟩ := h.holds_of_stored hsound (.listed hrecord)
  obtain ⟨values, hvalues⟩ := h.exists_toValues hsound hkey hview hholds (Nat.le_refl _)
  exact ⟨⟨record.layout.id, values⟩, bind_eq_ok_iff.2 ⟨values, hvalues, rfl⟩⟩

end Accepted

/-! ### Views that can be read -/

/-- A view that can be read: it shows a scene, and every field of every record that is reached reads
as what it has to be, by its place in the record or by its name. -/
structure View.Readable (view : View) : Prop where
  scene : ∃ scene, view.toScene = .ok scene
  placed : ∀ record, view.Reached record → ∀ field ∈ record.layout.fields,
    ∃ value, record.readField field = .ok value ∧ record.Reads field value
  named : ∀ record, view.Reached record → ∀ name ∈ record.layout.fields.map FieldLayout.name,
    ∃ field ∈ record.layout.fields, field.name = name ∧
      ∃ value, record.field name = .ok value ∧ record.Reads field value

theorem RecordLayout.exists_field? {layout : RecordLayout} {name : String}
    (h : name ∈ layout.fields.map FieldLayout.name) :
    ∃ field ∈ layout.fields, field.name = name ∧ layout.field? name = some field := by
  obtain ⟨field, hfield, rfl⟩ := List.mem_map.1 h
  obtain ⟨index, hindex⟩ := List.mem_iff_getElem?.1 hfield
  have hpair : (field, index) ∈ layout.fields.zipIdx := List.mem_zipIdx_iff_getElem?.2 hindex
  cases hfind : layout.find? field.name with
  | none => simpa using List.find?_eq_none.1 hfind _ hpair
  | some place =>
      obtain ⟨first, position⟩ := place
      obtain ⟨hplace, hname⟩ := RecordLayout.getElem?_of_find? hfind
      exact ⟨first, List.mem_of_getElem? hplace, hname, by rw [field?, hfind]; rfl⟩

/-- **An image that has a view can be read**, along any path of embedded records and references. -/
theorem View.readable_of_ofBytes {registry : Registry} (hexact : registry.Exact) {base : Nat}
    {bytes : Bytes} {view : View} (hview : View.ofBytes registry base bytes = .ok view) :
    view.Readable := by
  have hsound := hexact.sound
  obtain ⟨found, haccepted, rfl⟩ := (View.ofBytes_eq_ok_iff hsound).1 hview
  have hplaced : ∀ record, (found.view registry base bytes).Reached record →
      ∀ field ∈ record.layout.fields,
        ∃ value, record.readField field = .ok value ∧ record.Reads field value := by
    intro record hrecord field hfield
    obtain ⟨hrecordview, hholds⟩ := haccepted.holds_of_reached hsound hrecord
    exact haccepted.exists_readField hsound hrecordview hholds hfield
  refine ⟨haccepted.exists_toScene hsound, hplaced, ?_⟩
  intro record hrecord name hname
  obtain ⟨field, hfield, hfieldname, hfind⟩ := RecordLayout.exists_field? hname
  obtain ⟨value, hvalue, hreads⟩ := hplaced record hrecord field hfield
  refine ⟨field, hfield, hfieldname, value, ?_, hreads⟩
  rw [RecordView.field, hfind]
  exact hvalue

/-- The image of the sample can be read. -/
theorem View.readable_of_ofBytes_sample :
    Sample.registry.Exact ∧ View.ofBytes Sample.registry 0 Sample.image = .ok Sample.view ∧
      Sample.view.Readable :=
  ⟨Sample.exact, Sample.ofBytes_image, readable_of_ofBytes Sample.exact Sample.ofBytes_image⟩

end ScenePack
