/-
**What is written.**

Values are written one after the other, while the pool of texts grows.  Wherever the bytes of a
value stand in the image, the value is held there: its words stand for what they were written for,
once the image has all its bytes and the pool all its texts.

Main definitions:

* `TextPool.Grows`, `TextPool.Holds` — texts are added at the end of a pool, and keep their
  positions;
* `Writing` — an image that is being written, by its final bytes and texts;
* `Writing.store` — what the words that are written stand for;
* `Writing.Wrote`, `Writing.WroteAll`, `Writing.WroteRecords` — the outcomes of writing a value, the
  values of fields, and records.

Main results:

* `TextPool.intern_holds` — a text has a position once it has been added;
* `Writing.wrote_of_writeValue` — **a value is held where it is written**;
* `Writing.wroteRecords_of_writeRecords` — **all records are held where they are written**.
-/

import ScenePack.Image.Pack
import ScenePack.Proofs.Image.Contents
import ScenePack.Proofs.Scene.Formed
import ScenePack.Proofs.Scene.Order

set_option relaxedAutoImplicit false
set_option autoImplicit false

namespace ScenePack

/-! ### Parts of byte strings -/

namespace Bytes

variable {bytes out front part : Bytes} {start : Nat}

/-- A part of what stands at a position stands there too. -/
theorem slice?_part (h : bytes.slice? start out.length = some out)
    (hpart : front ++ part <+: out) :
    bytes.slice? (start + front.length) part.length = some part := by
  obtain ⟨rest, rfl⟩ := hpart
  obtain ⟨hinside, hbytes⟩ := slice?_eq_some_iff.1 h
  simp only [List.length_append] at hinside hbytes
  refine slice?_eq_some_iff.2 ⟨by omega, ?_⟩
  intro i hi
  rw [Nat.add_assoc, hbytes _ (by omega), List.append_assoc,
    List.getElem?_append_right (Nat.le_add_right _ _), Nat.add_sub_cancel_left,
    List.getElem?_append_left hi]

theorem slice?_head (h : bytes.slice? start out.length = some out)
    (hpart : part <+: out) : bytes.slice? start part.length = some part :=
  @slice?_part bytes out [] part start h hpart

theorem prefix_padTo (size : Nat) (bytes : Bytes) : bytes <+: bytes.padTo size :=
  List.prefix_append _ _

theorem readSlot_of_slice? {word : Nat} (hword : word < Address.space)
    (h : bytes.slice? start (pointer word).length = some (pointer word)) :
    bytes.readSlot start = .ok word := by
  rw [pointer, Word.length_encode] at h
  rw [readSlot_eq_ok_iff, word?, h, Option.map_some, Word.decode_encode hword]

end Bytes

/-! ### Texts -/

namespace TextPool

variable {pool later last : TextPool} {text : String} {position : Nat}

/-- Texts have been added at the end of a pool. -/
structure Grows (pool later : TextPool) : Prop where
  start_eq : later.start = pool.start
  texts : pool.texts <+: later.texts

theorem Grows.refl (pool : TextPool) : pool.Grows pool := ⟨rfl, List.prefix_refl _⟩

theorem Grows.trans (h : pool.Grows later) (h' : later.Grows last) : pool.Grows last :=
  ⟨h'.start_eq.trans h.start_eq, h.texts.trans h'.texts⟩

/-- A text of a pool has a position. -/
def Holds (pool : TextPool) (text : String) (position : Nat) : Prop :=
  ∃ index, pool.texts[index]? = some text ∧ position = pool.position index

/-- A text keeps its position. -/
theorem Holds.grow (h : pool.Holds text position) (hgrows : pool.Grows later) :
    later.Holds text position := by
  obtain ⟨index, hindex, rfl⟩ := h
  obtain ⟨rest, hrest⟩ := hgrows.texts
  have hlt : index < pool.texts.length := (List.getElem?_eq_some_iff.1 hindex).1
  refine ⟨index, ?_, ?_⟩
  · rw [← hrest, List.getElem?_append_left hlt, hindex]
  · rw [TextPool.position, TextPool.position, hgrows.start_eq, ← hrest,
      List.take_append_of_le_length (Nat.le_of_lt hlt)]

/-- **A text has a position once it has been added.** -/
theorem intern_holds (pool : TextPool) (text : String) :
    pool.Grows (pool.intern text).2 ∧ (pool.intern text).2.Holds text (pool.intern text).1 := by
  unfold intern
  split
  · next index hfind =>
      split at hfind
      · obtain ⟨hlt, htext, -⟩ := List.findIdx?_eq_some_iff_getElem.1 hfind
        refine ⟨.refl pool, index, ?_, rfl⟩
        rw [List.getElem?_eq_getElem hlt, of_decide_eq_true htext]
      · cases hfind
  · refine ⟨⟨rfl, List.prefix_append _ _⟩, pool.texts.length, List.getElem?_concat_length, ?_⟩
    rw [TextPool.position, TextPool.position, List.take_append_of_le_length (Nat.le_refl _)]

theorem length_bytes (pool : TextPool) : pool.bytes.length = textsSize pool.texts := by
  rw [bytes]
  induction pool.texts with
  | nil => rfl
  | cons text rest ih =>
      rw [List.flatMap_cons, List.length_append, ih, textsSize, textSize, List.length_append]
      rfl

/-- A text stands at its position in the bytes of the pool. -/
theorem Holds.bytes_eq (h : pool.Holds text position) :
    ∃ front rest, pool.bytes = front ++ (Utf8.encode text ++ 0 :: rest) ∧
      position = pool.start + front.length := by
  obtain ⟨index, hindex, rfl⟩ := h
  obtain ⟨hlt, htext⟩ := List.getElem?_eq_some_iff.1 hindex
  let front : TextPool := ⟨pool.start, pool.shared, pool.texts.take index⟩
  let rest : TextPool := ⟨pool.start, pool.shared, pool.texts.drop (index + 1)⟩
  refine ⟨front.bytes, rest.bytes, ?_, ?_⟩
  · have hsplit : pool.texts = front.texts ++ text :: rest.texts := by
      rw [← htext, List.getElem_cons_drop, List.take_append_drop]
    rw [bytes, hsplit, List.flatMap_append, List.flatMap_cons, List.append_assoc]
    rfl
  · rw [length_bytes]
    rfl

end TextPool

/-! ### Spans that are written in order -/

/-- Writing the first of some spans in order leaves the others to be written. -/
theorem Span.InOrder.write {written out : Bytes} {span : Span} {spans : List Span} {stop : Nat}
    (h : InOrder written.length (span :: spans) stop)
    (hout : span.start + out.length = span.stop) :
    (written.padTo span.start).length = span.start ∧
      InOrder (written.padTo span.start ++ out).length spans stop := by
  obtain ⟨hstart, -, hrest⟩ := inOrder_cons_iff.1 h
  have hlength : (written.padTo span.start).length = span.start := by
    rw [Bytes.length_padTo]
    exact Nat.max_eq_left hstart
  refine ⟨hlength, ?_⟩
  rw [List.length_append, hlength, hout]
  exact hrest

/-- The positions of a field in its record. -/
def FieldLayout.span (field : FieldLayout) : Span := ⟨field.offset, field.offset + field.size⟩

/-- The fields of a sound layout are in order, from the start of the record. -/
theorem RecordLayout.Sound.inOrder_fields {registry : Registry} {layout : RecordLayout}
    (h : layout.Sound registry) :
    Span.InOrder ([] : Bytes).length (layout.fields.map FieldLayout.span) layout.size := by
  refine ⟨List.pairwise_map.2 h.ordered, List.forall_mem_map.2 ?_, Nat.zero_le _⟩
  intro field hfield
  exact ⟨Nat.zero_le _, Nat.le_add_right _ _, h.inside field hfield⟩

/-- A stored record at its position, as an entry of the directory. -/
def StoredRecord.entryAt (place : StoredRecord × Nat) : Entry := ⟨place.2, place.1.layout⟩

/-! ### An image that is being written -/

/-- An image that is being written, by its final bytes and texts. -/
structure Writing where
  registry : Registry
  scene : Scene
  position? : InstanceKey → Option Nat
  pool : TextPool
  bytes : Bytes
  sound : registry.Sound

/-- All positions that are written are addresses. -/
structure Writing.Fits (writing : Writing) : Prop where
  text_lt : ∀ {text position}, writing.pool.Holds text position → position < Address.space
  record_lt : ∀ {key position}, writing.position? key = some position → position < Address.space

/-- What the words that are written stand for: positions of texts in the pool, and positions of
records, which are known by their new keys. -/
def Writing.store (writing : Writing) : Store :=
  { bytes := writing.bytes
    text := fun word content =>
      match content with
      | none => word = 0
      | some text => writing.pool.Holds text word ∧ 0 ∉ Utf8.encode text
    ref := fun id word key =>
      match key with
      | none => word = 0
      | some key => ∃ old record, writing.position? old = some word ∧
          writing.scene[old]? = some record ∧ record.typeId = id ∧ key = writing.scene.newKey old }

namespace Writing

variable (writing : Writing) {pool next : TextPool} {out written : Bytes}

/-- The outcome of writing a value: bytes of the right count, a pool that may have grown, and the
value is held wherever the bytes stand. -/
structure Wrote (kind : FieldKind Target) (size : Nat) (value : Value) (pool : TextPool)
    (out : Bytes) (next : TextPool) : Prop where
  length_eq : out.length = size
  grows : pool.Grows next
  held : writing.Fits → next.Grows writing.pool → ∀ {position},
    writing.bytes.slice? position out.length = some out →
    (value.rename writing.scene.newKey).HeldAt writing.registry writing.store kind position

/-- The outcome of writing the values of fields after the bytes `written`. -/
structure WroteAll (fields : List FieldLayout) (size : Nat) (values : List Value) (written : Bytes)
    (pool : TextPool) (out : Bytes) (next : TextPool) : Prop where
  extends_written : written <+: out
  length_le : out.length ≤ size
  grows : pool.Grows next
  held : writing.Fits → next.Grows writing.pool → ∀ {offset},
    writing.bytes.slice? offset out.length = some out →
    Value.AllHeldAt writing.registry writing.store fields offset
      (Value.renameAll writing.scene.newKey values)

variable {writing}

/-! ### Values -/

/-- A word that stands for what it was written for is read as such. -/
theorem readSlot_of_pointer {word position : Nat} (hword : word < Address.space)
    (h : writing.bytes.slice? position (pointer word).length = some (pointer word)) :
    writing.store.bytes.readSlot position = .ok word :=
  Bytes.readSlot_of_slice? hword h

mutual

/-- **A value is held where it is written.** -/
theorem wrote_of_writeValue {owner field : String} {kind : FieldKind Target} {extent : Extent}
    {pool next : TextPool} {out : Bytes} (value : Value)
    (hstorable : value.Storable writing.registry writing.scene kind)
    (hextent : writing.registry.extent? kind = some extent)
    (h : writeValue writing.registry writing.position? owner field value pool = .ok (out, next)) :
    writing.Wrote kind extent.size value pool out next := by
  cases kind with
  | scalar type =>
      cases hextent
      cases value with
      | scalar number =>
          obtain rfl : number.type = type := hstorable
          cases h
          exact ⟨number.length_bytes, .refl _, fun _ _ _ hslice =>
            ⟨rfl, by rwa [Scalar.length_bytes] at hslice⟩⟩
      | text content => exact hstorable.elim
      | component typeId values => exact hstorable.elim
      | ref key => exact hstorable.elim
  | text =>
      cases hextent
      cases value with
      | scalar number => exact hstorable.elim
      | text content =>
          cases content with
          | none =>
              cases h
              exact ⟨Word.length_encode _ _, .refl _, fun _ _ _ hslice =>
                ⟨0, readSlot_of_pointer (by decide) hslice, rfl⟩⟩
          | some text =>
              cases h
              obtain ⟨hgrows, hholds⟩ := pool.intern_holds text
              refine ⟨Word.length_encode _ _, hgrows, ?_⟩
              intro hfits hlast _ hslice
              have hholds := hholds.grow hlast
              exact ⟨_, readSlot_of_pointer (hfits.text_lt hholds) hslice, hholds,
                hstorable text rfl⟩
      | component typeId values => exact hstorable.elim
      | ref key => exact hstorable.elim
  | component target =>
      cases value with
      | scalar number => exact hstorable.elim
      | text content => exact hstorable.elim
      | component typeId values =>
          obtain ⟨htype, layout, hlayout, hvalues⟩ := hstorable
          rw [Registry.extent?, ← htype, hlayout] at hextent
          cases hextent
          rw [writeValue, hlayout] at h
          obtain ⟨⟨inner, last⟩, hwrite, hok⟩ := bind_eq_ok_iff.1 h
          cases hok
          obtain ⟨hid, hsound⟩ := writing.sound typeId layout hlayout
          have hall := wroteAll_of_writeFields values hvalues hsound.extent
            hsound.inOrder_fields hwrite
          refine ⟨?_, hall.grows, ?_⟩
          · rw [Bytes.length_padTo]
            exact Nat.max_eq_left hall.length_le
          · intro hfits hlast _ hslice
            refine ⟨layout, htype ▸ hlayout, hid.symm, ?_⟩
            exact hall.held hfits hlast (Bytes.slice?_head hslice (Bytes.prefix_padTo _ _))
      | ref key => exact hstorable.elim
  | ref target =>
      cases hextent
      cases value with
      | scalar number => exact hstorable.elim
      | text content => exact hstorable.elim
      | component typeId values => exact hstorable.elim
      | ref key =>
          cases key with
          | none =>
              cases h
              exact ⟨Word.length_encode _ _, .refl _, fun _ _ _ hslice =>
                ⟨0, readSlot_of_pointer (by decide) hslice, rfl⟩⟩
          | some old =>
              rw [writeValue] at h
              split at h
              · next position hposition =>
                  cases h
                  obtain ⟨record, hrecord, htype⟩ := hstorable old rfl
                  exact ⟨Word.length_encode _ _, .refl _, fun hfits _ _ hslice =>
                    ⟨position, readSlot_of_pointer (hfits.record_lt hposition) hslice,
                      old, record, hposition, hrecord, htype, rfl⟩⟩
              · cases h

theorem wroteAll_of_writeFields {owner : RecordLayout} {fields : List FieldLayout} {size : Nat}
    {pool next : TextPool} {out written : Bytes} (values : List Value)
    (hstorable : Value.AllStorable writing.registry writing.scene fields values)
    (hextent : ∀ field ∈ fields, ∃ extent,
      writing.registry.extent? field.kind = some extent ∧ field.size = extent.size)
    (hinOrder : Span.InOrder written.length (fields.map FieldLayout.span) size)
    (h : writeFields writing.registry writing.position? owner fields values written pool =
      .ok (out, next)) :
    writing.WroteAll fields size values written pool out next := by
  cases values with
  | nil =>
      cases fields with
      | nil =>
          cases h
          exact ⟨List.prefix_refl _, hinOrder.le, .refl _, fun _ _ _ _ => trivial⟩
      | cons field fields => exact hstorable.elim
  | cons value values =>
      cases fields with
      | nil => exact hstorable.elim
      | cons field fields =>
          rw [Value.AllStorable] at hstorable
          rw [writeFields] at h
          obtain ⟨⟨first, middle⟩, hfirst, hrest⟩ := bind_eq_ok_iff.1 h
          obtain ⟨⟨extent, hfield, hsize⟩, hextent⟩ := List.forall_mem_cons.1 hextent
          have hvalue := wrote_of_writeValue value hstorable.1 hfield hfirst
          have hend : field.offset + first.length = field.offset + field.size := by
            rw [hvalue.length_eq, hsize]
          obtain ⟨hlength, hnext⟩ := hinOrder.write hend
          have hall := wroteAll_of_writeFields values hstorable.2 hextent hnext hrest
          refine ⟨?_, hall.length_le, hvalue.grows.trans hall.grows, ?_⟩
          · exact ((Bytes.prefix_padTo _ _).trans (List.prefix_append _ _)).trans
              hall.extends_written
          · intro hfits hlast offset hslice
            rw [Value.renameAll, Value.AllHeldAt]
            refine ⟨hvalue.held hfits (hall.grows.trans hlast) ?_, hall.held hfits hlast hslice⟩
            have hpart := Bytes.slice?_part hslice hall.extends_written
            rw [hlength] at hpart
            exact hpart

end

/-! ### Records -/

/-- The outcome of writing records after the bytes `written`. -/
structure WroteRecords (writing : Writing) (places : List (StoredRecord × Nat)) (size : Nat)
    (written : Bytes) (pool : TextPool) (out : Bytes) (next : TextPool) : Prop where
  extends_written : written <+: out
  length_le : out.length ≤ size
  grows : pool.Grows next
  held : writing.Fits → next.Grows writing.pool → writing.bytes.slice? 0 out.length = some out →
    ∀ place ∈ places, Value.AllHeldAt writing.registry writing.store place.1.layout.fields place.2
      (Value.renameAll writing.scene.newKey place.1.record.values)

theorem wroteAll_of_writeRecord {entry : StoredRecord}
    (hlayout : writing.registry.layout? entry.record.typeId = some entry.layout)
    (hstorable : entry.record.Storable writing.registry writing.scene)
    (h : writeRecord writing.registry writing.position? entry pool = .ok (out, next)) :
    out.length = entry.layout.size ∧
      writing.WroteAll entry.layout.fields entry.layout.size entry.record.values [] pool out
        next := by
  obtain ⟨layout, hother, hvalues⟩ := hstorable
  cases hother.symm.trans hlayout
  obtain ⟨⟨inner, last⟩, hwrite, hok⟩ := bind_eq_ok_iff.1 h
  cases hok
  have hsound := (writing.sound _ _ hlayout).2
  have hall := wroteAll_of_writeFields entry.record.values hvalues hsound.extent
    hsound.inOrder_fields hwrite
  have hlength : (inner.padTo entry.layout.size).length = entry.layout.size := by
    rw [Bytes.length_padTo]
    exact Nat.max_eq_left hall.length_le
  refine ⟨hlength, List.prefix_append [] _, Nat.le_of_eq hlength, hall.grows, ?_⟩
  intro hfits hlast _ hslice
  exact hall.held hfits hlast (Bytes.slice?_head hslice (Bytes.prefix_padTo _ _))

/-- **All records are held where they are written.** -/
theorem wroteRecords_of_writeRecords {places : List (StoredRecord × Nat)} {size : Nat}
    (hlayout : ∀ place ∈ places,
      writing.registry.layout? place.1.record.typeId = some place.1.layout)
    (hstorable : ∀ place ∈ places, place.1.record.Storable writing.registry writing.scene)
    (hinOrder : Span.InOrder written.length
      (places.map fun place => (StoredRecord.entryAt place).span) size)
    (h : writeRecords writing.registry writing.position? places written pool = .ok (out, next)) :
    writing.WroteRecords places size written pool out next := by
  induction places generalizing written pool with
  | nil =>
      cases h
      exact ⟨List.prefix_refl _, hinOrder.le, .refl _,
        fun _ _ _ _ hplace => absurd hplace List.not_mem_nil⟩
  | cons place rest ih =>
      obtain ⟨entry, position⟩ := place
      obtain ⟨hfirst, hlayout⟩ := List.forall_mem_cons.1 hlayout
      obtain ⟨hrecord, hstorable⟩ := List.forall_mem_cons.1 hstorable
      obtain ⟨⟨bytes, middle⟩, hwrite, hrest⟩ := bind_eq_ok_iff.1 h
      obtain ⟨hsize, hone⟩ := wroteAll_of_writeRecord hfirst hrecord hwrite
      have hend : position + bytes.length = position + entry.layout.size := by rw [hsize]
      obtain ⟨hlength, hnext⟩ := hinOrder.write hend
      have hall := ih hlayout hstorable hnext hrest
      refine ⟨?_, hall.length_le, hone.grows.trans hall.grows, ?_⟩
      · exact ((Bytes.prefix_padTo _ _).trans (List.prefix_append _ _)).trans hall.extends_written
      · intro hfits hlast hslice
        refine List.forall_mem_cons.2 ⟨hone.held hfits (hall.grows.trans hlast) ?_,
          hall.held hfits hlast hslice⟩
        have hpart := Bytes.slice?_part hslice hall.extends_written
        rw [Nat.zero_add, hlength] at hpart
        exact hpart

end Writing

end ScenePack
