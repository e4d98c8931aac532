/-
**Stored records.**

The records of an image are the instances of its directory and the records embedded in them, at any
depth.  A scan does not look at embedded records: it checks the pointers that the layout of an
instance lists.  Both ways lead to the same pointers.

Main definitions:

* `Scan.view` — the view of an accepted image;
* `View.Stored` — the instances and the records embedded in them;
* `View.PointerAt` — a text or reference field of a stored record, by its position;
* `Scan.Holds` — a record whose pointers were checked, and that no other word reaches into.

Main results:

* `View.ofBytes_eq_ok_iff` — an image has a view exactly if it is accepted;
* `Framed.instances_eq` — the instances are the entries that the scan found;
* `Accepted.holds_of_stored` — **every stored record is held by the scan**;
* `Accepted.pointerAt_iff` — **the pointers of stored records are those that were checked**.
-/

import ScenePack.Image.View
import ScenePack.Proofs.Image.Words

set_option relaxedAutoImplicit false
set_option autoImplicit false

namespace ScenePack

/-! ### The view of an accepted image -/

/-- The view of an image in which a scan found `found`. -/
def Scan.view (found : Scan) (registry : Registry) (base : Nat) (bytes : Bytes) : View :=
  ⟨registry, base, bytes, found.header, found.rangesAt, found.directoryAt⟩

/-- The record of an entry, as a view shows it. -/
def Entry.record (view : View) (entry : Entry) : RecordView := ⟨view, entry.layout, entry.offset⟩

/-- The view of what a scan found takes the header that the scan read. -/
theorem View.ofScan_eq {registry : Registry} {base : Nat} {bytes : Bytes} {found : Scan}
    (h : bytes.readHeader = .ok found.header) :
    View.ofScan registry base bytes found = .ok (found.view registry base bytes) := by
  rw [View.ofScan, h]
  rfl

/-- **An image has a view exactly if it is accepted.** -/
theorem View.ofBytes_eq_ok_iff {registry : Registry} (hsound : registry.Sound) {base : Nat}
    {bytes : Bytes} {view : View} :
    View.ofBytes registry base bytes = .ok view ↔
      ∃ found, Accepted registry base bytes found ∧ view = found.view registry base bytes := by
  rw [View.ofBytes, bind_eq_ok_iff]
  constructor
  · rintro ⟨found, hscan, hview⟩
    have haccepted := (scan_eq_ok_iff hsound).1 hscan
    rw [View.ofScan_eq haccepted.header] at hview
    exact ⟨found, haccepted, (Except.ok.inj hview).symm⟩
  · rintro ⟨found, haccepted, rfl⟩
    exact ⟨found, (scan_eq_ok_iff hsound).2 haccepted, View.ofScan_eq haccepted.header⟩

theorem Bytes.readRange_eq_ok_iff {bytes : Bytes} {position : Nat} {range : Range} :
    bytes.readRange position = .ok range ↔ Range.decode? bytes position = some range := by
  rw [readRange]
  cases Range.decode? bytes position with
  | none => simp
  | some found => simp

/-- The ranges of a view are those of the scan: they cover the directory, which lists the
entries. -/
theorem Framed.view_lists {registry : Registry} {base : Nat} {bytes : Bytes} {found : Scan}
    (h : Framed registry base bytes found) :
    (Range.spread (found.view registry base bytes).ranges).length = found.header.count ∧
      List.Forall₂ (Lists registry bytes base found.directoryAt)
        (Range.spread (found.view registry base bytes).ranges).zipIdx found.entries := by
  obtain ⟨ranges, hranges, -, hcount, hlists⟩ := h.listed
  have hview : (found.view registry base bytes).ranges = ranges :=
    filterMap_eq_of_forall₂ (hranges.imp fun _ _ hrange => Bytes.readRange_eq_ok_iff.1 hrange)
  rw [hview]
  exact ⟨hcount, hlists⟩

/-- What the directory lists at a place is what the view shows there. -/
theorem Lists.entry?_eq (view : View) {place : TypeId × Nat} {entry : Entry}
    (h : Lists view.registry view.bytes view.base view.directoryAt place entry) :
    view.entry? place.2 place.1 = some (entry.record view) := by
  obtain ⟨layout, hlayout, hentry⟩ := h
  obtain ⟨rfl, -⟩ := readEntry_eq_ok_iff.1 hentry
  rw [View.entry?, hlayout]
  dsimp only
  rw [hentry]
  rfl

/-- **The instances of a view are the entries that the scan found.** -/
theorem Framed.instances_eq {registry : Registry} {base : Nat} {bytes : Bytes} {found : Scan}
    (h : Framed registry base bytes found) :
    (found.view registry base bytes).instances =
      found.entries.map (Entry.record (found.view registry base bytes)) := by
  obtain ⟨-, hlists⟩ := h.view_lists
  refine filterMap_eq_of_forall₂ (List.forall₂_map_right_iff.2 (hlists.imp ?_))
  intro place entry hlisted
  exact Lists.entry?_eq (found.view registry base bytes) hlisted

theorem Framed.mem_instances_iff {registry : Registry} {base : Nat} {bytes : Bytes} {found : Scan}
    (h : Framed registry base bytes found) {record : RecordView} :
    record ∈ (found.view registry base bytes).instances ↔
      ∃ entry ∈ found.entries, entry.record (found.view registry base bytes) = record := by
  rw [h.instances_eq]
  exact List.mem_map

namespace Sample

/-- The image of one node that is tagged `"a"` and followed by itself. -/
def image : Bytes :=
  [40, 1, 32, 1, 4294967296, 48, 7, 0, 96, 0, 48, 0].flatMap (Word.encode Address.width) ++ [97, 0]

/-- The view of that image. -/
def view : View := ⟨registry, 0, image, ⟨40, 1, 32, 1⟩, 32, 40⟩

theorem ofBytes_image : View.ofBytes registry 0 image = .ok view := by cbv

end Sample

/-! ### Reading a field -/

namespace RecordView

variable {record : RecordView} {field : FieldLayout} {value : FieldView}

theorem readField_scalar_iff {type : ScalarType} (hkind : field.kind = .scalar type) :
    record.readField field = .ok value ↔
      ∃ span, record.view.bytes.slice? (record.offset + field.offset) type.size = some span ∧
        value = .scalar (.ofBytes type span) := by
  simp only [readField, hkind]
  cases record.view.bytes.slice? (record.offset + field.offset) type.size with
  | none => simp
  | some span => simp [eq_comm]

theorem readField_text_iff (hkind : field.kind = .text) :
    record.readField field = .ok value ↔
      ∃ word text, record.view.bytes.readSlot (record.offset + field.offset) = .ok word ∧
        record.view.textAt word = .ok text ∧ value = .text text := by
  simp only [readField, hkind, bind_eq_ok_iff, Except.ok.injEq, eq_comm (a := value),
    exists_and_left]

theorem readField_component_iff {target : Target} (hkind : field.kind = .component target) :
    record.readField field = .ok value ↔
      ∃ layout, record.view.registry.layout? target.id = some layout ∧
        value = .component ⟨record.view, layout, record.offset + field.offset⟩ := by
  simp only [readField, hkind]
  cases record.view.registry.layout? target.id with
  | none => simp
  | some layout => simp [eq_comm]

theorem readField_ref_iff {target : Target} (hkind : field.kind = .ref target) :
    record.readField field = .ok value ↔
      ∃ word found, record.view.bytes.readSlot (record.offset + field.offset) = .ok word ∧
        record.view.recordAt target.id word = .ok found ∧ value = .ref found := by
  simp only [readField, hkind, bind_eq_ok_iff, Except.ok.injEq, eq_comm (a := value),
    exists_and_left]

/-- A field that reads as an embedded record embeds a type of the registry. -/
theorem kind_of_readField_component {inner : RecordView}
    (h : record.readField field = .ok (.component inner)) :
    ∃ target layout, field.kind = .component target ∧
      record.view.registry.layout? target.id = some layout ∧
      inner = ⟨record.view, layout, record.offset + field.offset⟩ := by
  cases hkind : field.kind with
  | scalar type =>
      obtain ⟨_, _, hvalue⟩ := (readField_scalar_iff hkind).1 h
      cases hvalue
  | text =>
      obtain ⟨_, _, _, _, hvalue⟩ := (readField_text_iff hkind).1 h
      cases hvalue
  | ref target =>
      obtain ⟨_, _, _, _, hvalue⟩ := (readField_ref_iff hkind).1 h
      cases hvalue
  | component target =>
      obtain ⟨layout, hlayout, hvalue⟩ := (readField_component_iff hkind).1 h
      cases hvalue
      exact ⟨target, layout, rfl, hlayout, rfl⟩

end RecordView

namespace View

variable {view : View}

theorem textAt_eq_ok_iff {word : Nat} {text : Option String} :
    view.textAt word = .ok text ↔
      (word = 0 ∧ text = none) ∨ (word ≠ 0 ∧ ∃ target content, word = view.base + target ∧
        view.bytes.readText target = .ok content ∧ text = some content) := by
  unfold textAt
  split
  · next hzero => simp [hzero, eq_comm]
  · next hzero =>
      simp only [hzero, false_and, false_or, ne_eq, not_false_eq_true, true_and, bind_eq_ok_iff,
        offsetOf_eq_ok_iff, Except.ok.injEq]
      constructor
      · rintro ⟨target, ⟨hword, -⟩, content, hcontent, rfl⟩
        exact ⟨target, content, hword, hcontent, rfl⟩
      · rintro ⟨target, content, hword, hcontent, rfl⟩
        have hinside := Bytes.le_of_readText hcontent
        rw [textSize] at hinside
        exact ⟨target, ⟨hword, by omega⟩, content, hcontent, rfl⟩

theorem recordAt_eq_ok_iff {typeId : TypeId} {word : Nat} {record : Option RecordView} :
    view.recordAt typeId word = .ok record ↔
      (word = 0 ∧ record = none) ∨ (word ≠ 0 ∧ ∃ layout target,
        view.registry.layout? typeId = some layout ∧ word = view.base + target ∧
        target + layout.size ≤ view.bytes.length ∧ target % layout.align = 0 ∧
        record = some ⟨view, layout, target⟩) := by
  unfold recordAt
  split
  · next hzero => simp [hzero, eq_comm]
  · next hzero =>
      simp only [hzero, false_and, false_or, ne_eq, not_false_eq_true, true_and]
      cases hlayout : view.registry.layout? typeId with
      | none => simp
      | some layout =>
          simp only [bind_eq_ok_iff, region_eq_ok_iff, Except.ok.injEq, Nat.one_mul,
            Option.some.injEq]
          constructor
          · rintro ⟨target, ⟨hword, hinside, halign⟩, rfl⟩
            exact ⟨layout, target, rfl, hword, hinside, halign, rfl⟩
          · rintro ⟨_, target, rfl, hword, hinside, halign, rfl⟩
            exact ⟨target, ⟨hword, hinside, halign⟩, rfl⟩

end View

/-! ### Records that the scan holds -/

/-- A record of an accepted image: it lies inside, its pointers were checked, and no other word
that holds a position reaches into it. -/
structure Scan.Holds (registry : Registry) (found : Scan) (length : Nat) (layout : RecordLayout)
    (offset : Nat) : Prop where
  known : ∃ position, registry.layout? position = some layout
  inside : offset + layout.size ≤ length
  pointers : ∀ slot ∈ layout.slots, slot.shift offset ∈ found.pointers
  owned : ∀ word ∈ found.words, word + Address.width ≤ offset ∨ offset + layout.size ≤ word ∨
    ∃ slot ∈ layout.slots, word = offset + slot.offset

theorem Accepted.holds_of_entry {registry : Registry} {base : Nat} {bytes : Bytes} {found : Scan}
    (h : Accepted registry base bytes found) (hsound : registry.Sound) {entry : Entry}
    (hentry : entry ∈ found.entries) :
    found.Holds registry bytes.length entry.layout entry.offset := by
  have hfits := h.fits entry hentry
  obtain ⟨hheader, -, hdirectory, hrecords⟩ := h.disjoint_parts
  have hspan : entry.span.start < entry.span.stop := by
    have := hfits.size_pos hsound
    simp only [Entry.span]
    omega
  have hfirst : Span.Disjoint ⟨0, Header.size⟩ entry.span := hheader entry.span
    (List.mem_cons_of_mem _ (List.mem_cons_of_mem _ (List.mem_map_of_mem hentry)))
  refine ⟨hfits.known, hfits.inside, fun slot hslot =>
    Scan.mem_pointers_iff.2 ⟨entry, hentry, slot, hslot, rfl⟩, fun word hword => ?_⟩
  -- a word outside of the span of the entry is not a concern
  suffices hcases : (entry.span.stop ≤ word ∨ word + Address.width ≤ entry.span.start) ∨
      ∃ slot ∈ entry.layout.slots, word = entry.offset + slot.offset by
    rcases hcases with (hafter | hbefore) | hown
    · exact Or.inr (Or.inl hafter)
    · exact Or.inl hbefore
    · exact Or.inr (Or.inr hown)
  rcases List.mem_append.1 hword with hword | hword
  · refine Or.inl ?_
    rcases Scan.holdsWord_of_mem_tableSlots hword with rfl | rfl | hword
    · exact hfirst.word_outside ⟨by decide, by decide⟩ hspan
    · exact hfirst.word_outside ⟨by decide, by decide⟩ hspan
    · exact (hdirectory entry hentry).word_outside hword hspan
  · obtain ⟨pointer, hpointer, rfl⟩ := List.mem_map.1 hword
    obtain ⟨other, hother, slot, hslot, rfl⟩ := Scan.mem_pointers_iff.1 hpointer
    by_cases heq : other = entry
    · exact Or.inr ⟨slot, heq ▸ hslot, by rw [heq]; rfl⟩
    · refine Or.inl ?_
      have hsymm : Std.Symm fun a b : Entry => a.span.Disjoint b.span := ⟨fun _ _ hab => hab.symm⟩
      have hapart : other.span.Disjoint entry.span := hrecords.forall hother hentry heq
      exact hapart.word_outside
        (h.holdsWord_record hsound hother (List.mem_map_of_mem hslot)) hspan

namespace Scan.Holds

variable {registry : Registry} {found : Scan} {length offset : Nat} {layout : RecordLayout}

theorem field_inside (h : found.Holds registry length layout offset) (hsound : registry.Sound)
    {field : FieldLayout} (hfield : field ∈ layout.fields) :
    offset + field.offset + field.size ≤ length := by
  obtain ⟨position, hlayout⟩ := h.known
  have hinside := (hsound position layout hlayout).2.inside field hfield
  have hrecord := h.inside
  omega

/-- The pointer of a field was checked. -/
theorem pointer_of_slotsOf (h : found.Holds registry length layout offset)
    (hsound : registry.Sound) {field : FieldLayout} (hfield : field ∈ layout.fields)
    {slot : PointerSlot} (hslot : slot ∈ registry.slotsOf field) :
    slot ∈ layout.slots ∧ slot.shift offset ∈ found.pointers := by
  obtain ⟨position, hlayout⟩ := h.known
  have hmem : slot ∈ layout.slots := by
    rw [(hsound position layout hlayout).2.slots_eq]
    exact List.mem_flatMap.2 ⟨field, hfield, hslot⟩
  exact ⟨hmem, h.pointers slot hmem⟩

/-- The pointer of a text or reference field was checked. -/
theorem pointer_of_slotKind? (h : found.Holds registry length layout offset)
    (hsound : registry.Sound) {field : FieldLayout} (hfield : field ∈ layout.fields)
    {kind : SlotKind} (hkind : field.kind.slotKind? = some kind) :
    ⟨offset + field.offset, kind⟩ ∈ found.pointers := by
  have hslot : ⟨field.offset, kind⟩ ∈ registry.slotsOf field := by
    rw [Registry.slotsOf_of_slotKind? hkind]
    exact List.mem_singleton_self _
  exact (h.pointer_of_slotsOf hsound hfield hslot).2

/-- A word that reaches into a field is one of its pointers. -/
theorem owned_field (h : found.Holds registry length layout offset) (hsound : registry.Sound)
    {field : FieldLayout} (hfield : field ∈ layout.fields) {word : Nat}
    (hword : word ∈ found.words) :
    word + Address.width ≤ offset + field.offset ∨ offset + field.offset + field.size ≤ word ∨
      ∃ slot ∈ registry.slotsOf field, word = offset + slot.offset := by
  obtain ⟨position, hlayout⟩ := h.known
  have hinside := (hsound position layout hlayout).2.inside field hfield
  rcases h.owned word hword with hbefore | hafter | ⟨slot, hslot, rfl⟩
  · exact Or.inl (by omega)
  · exact Or.inr (Or.inl (by omega))
  · rcases hsound.slot_apart hlayout hfield hslot with hown | hbefore | hafter
    · exact Or.inr (Or.inr ⟨slot, hown, rfl⟩)
    · exact Or.inl (by omega)
    · exact Or.inr (Or.inl (by omega))

/-- **The scan holds the records embedded in a record that it holds.** -/
theorem embedded (h : found.Holds registry length layout offset) (hsound : registry.Sound)
    {field : FieldLayout} (hfield : field ∈ layout.fields) {target : Target}
    {inner : RecordLayout} (hkind : field.kind = .component target)
    (hinner : registry.layout? target.id = some inner) :
    found.Holds registry length inner (offset + field.offset) := by
  obtain ⟨position, hlayout⟩ := h.known
  have hextent := Registry.extent?_of_component hkind hinner
  have hsize : field.size = inner.size := (hsound position layout hlayout).2.size_eq hfield hextent
  have hslots : registry.slotsOf field = inner.slots.map (PointerSlot.shift field.offset) :=
    Registry.slotsOf_eq hextent
  refine ⟨⟨target.id, hinner⟩, hsize ▸ h.field_inside hsound hfield, ?_, ?_⟩
  · intro slot hslot
    have hmem : slot.shift field.offset ∈ registry.slotsOf field :=
      hslots ▸ List.mem_map_of_mem hslot
    have hpointer := (h.pointer_of_slotsOf hsound hfield hmem).2
    simpa only [PointerSlot.shift, Nat.add_assoc] using hpointer
  · intro word hword
    rcases h.owned_field hsound hfield hword with hbefore | hafter | ⟨slot, hslot, rfl⟩
    · exact Or.inl hbefore
    · exact Or.inr (Or.inl (hsize ▸ hafter))
    · rw [hslots] at hslot
      obtain ⟨own, hown, rfl⟩ := List.mem_map.1 hslot
      exact Or.inr (Or.inr ⟨own, hown, (Nat.add_assoc _ _ _).symm⟩)

end Scan.Holds

/-! ### Stored records -/

namespace View

/-- The records of an image: the instances, and the records embedded in stored ones. -/
inductive Stored (view : View) : RecordView → Prop where
  | listed {record : RecordView} (h : record ∈ view.instances) : Stored view record
  | embedded {record inner : RecordView} {field : FieldLayout} (h : Stored view record)
      (hfield : field ∈ record.layout.fields)
      (hread : record.readField field = .ok (.component inner)) : Stored view inner

end View

/-- A text or reference field of a stored record, by its position in the image. -/
def View.PointerAt (view : View) (pointer : PointerSlot) : Prop :=
  ∃ record field, view.Stored record ∧ field ∈ record.layout.fields ∧
    field.kind.slotKind? = some pointer.kind ∧ pointer.offset = record.offset + field.offset

namespace Accepted

variable {registry : Registry} {base : Nat} {bytes : Bytes} {found : Scan}

/-- **Every stored record is held by the scan.** -/
theorem holds_of_stored (h : Accepted registry base bytes found) (hsound : registry.Sound)
    {record : RecordView} (hrecord : (found.view registry base bytes).Stored record) :
    record.view = found.view registry base bytes ∧
      found.Holds registry bytes.length record.layout record.offset := by
  induction hrecord with
  | listed hlisted =>
      obtain ⟨entry, hentry, rfl⟩ := h.mem_instances_iff.1 hlisted
      exact ⟨rfl, h.holds_of_entry hsound hentry⟩
  | embedded _ hfield hread ih =>
      obtain ⟨hview, hholds⟩ := ih
      obtain ⟨target, layout, hkind, hlayout, rfl⟩ :=
        RecordView.kind_of_readField_component hread
      rw [hview] at hlayout
      exact ⟨hview, hholds.embedded hsound hfield hkind hlayout⟩

/-- The pointers that the layout of a stored record lists are fields of stored records. -/
theorem pointerAt_of_mem_slots (h : Accepted registry base bytes found) (hsound : registry.Sound)
    {record : RecordView} (hrecord : (found.view registry base bytes).Stored record)
    {slot : PointerSlot} (hslot : slot ∈ record.layout.slots) :
    (found.view registry base bytes).PointerAt (slot.shift record.offset) := by
  -- a pointer of an embedded record is found there, in a record of less depth
  induction hdepth : record.layout.depth using Nat.strongRecOn generalizing record slot with
  | ind depth ih =>
      obtain ⟨hview, hholds⟩ := h.holds_of_stored hsound hrecord
      obtain ⟨position, hlayout⟩ := hholds.known
      obtain ⟨field, hfield, hcases⟩ :=
        (hsound position record.layout hlayout).2.slot_cases hslot
      rcases hcases with ⟨hkind, hoffset⟩ | ⟨target, inner, hkind, hinner, hlt, own, hown, rfl⟩
      · exact ⟨record, field, hrecord, hfield, hkind, by rw [PointerSlot.shift, hoffset]⟩
      · have hread : record.readField field =
            .ok (.component ⟨record.view, inner, record.offset + field.offset⟩) :=
          (RecordView.readField_component_iff hkind).2 ⟨inner, by rw [hview]; exact hinner, rfl⟩
        have hpointer := ih inner.depth (hdepth ▸ hlt) (hrecord.embedded hfield hread) hown rfl
        simpa only [PointerSlot.shift, Nat.add_assoc] using hpointer

/-- **The pointers of stored records are those that were checked.** -/
theorem pointerAt_iff (h : Accepted registry base bytes found) (hsound : registry.Sound)
    {pointer : PointerSlot} :
    (found.view registry base bytes).PointerAt pointer ↔ pointer ∈ found.pointers := by
  constructor
  · rintro ⟨record, field, hrecord, hfield, hkind, hoffset⟩
    obtain ⟨-, hholds⟩ := h.holds_of_stored hsound hrecord
    have hpointer := hholds.pointer_of_slotKind? hsound hfield hkind
    rw [← hoffset] at hpointer
    exact hpointer
  · intro hpointer
    obtain ⟨entry, hentry, slot, hslot, rfl⟩ := Scan.mem_pointers_iff.1 hpointer
    have hlisted : (found.view registry base bytes).Stored
        (entry.record (found.view registry base bytes)) :=
      .listed (h.mem_instances_iff.2 ⟨entry, hentry, rfl⟩)
    exact h.pointerAt_of_mem_slots hsound hlisted hslot

end Accepted

end ScenePack
