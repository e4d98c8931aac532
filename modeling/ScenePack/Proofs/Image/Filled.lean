/-
**What the second pass stores.**

The second pass goes through the records in the order of the image and stores what belongs to them
into a buffer of zero bytes, which has been made in the size that the first pass found.  Nothing but
the check of the scene in front of both makes sure that all of this stays inside the buffer and the
table of positions.  It does, and the bytes that come out are those of packing.

Main results:

* `Bytes.store_padTo` — storing a span behind what has been written appends it;
* `fillValue_of_writeValue` — a value that passes the check is stored inside its field;
* `fillRecords_of_writeRecords` — records are stored at their positions;
* `Scene.fill_of_pack` — **the pass succeeds after the check, and stores the packed image**.
-/

import ScenePack.Proofs.Image.Sized

set_option relaxedAutoImplicit false
set_option autoImplicit false

namespace ScenePack

/-! ### Storing into zero bytes -/

namespace Bytes

variable {written front rest span : Bytes} {start total : Nat}

theorem length_padTo_of_le {size : Nat} (h : written.length ≤ size) :
    (written.padTo size).length = size := by
  rw [length_padTo]
  exact Nat.max_eq_left h

theorem append_padTo (front rest : Bytes) (size : Nat) :
    front ++ rest.padTo size = (front ++ rest).padTo (front.length + size) := by
  rw [padTo, padTo, List.length_append, List.append_assoc, Nat.add_sub_add_left]

/-- A span takes the place of bytes of the same count. -/
theorem store_append {old : Bytes} (h : old.length = span.length) :
    store (front ++ old ++ rest) front.length span = .ok (front ++ span ++ rest) := by
  have hinside : front.length + span.length ≤ (front ++ old ++ rest).length := by
    simp only [List.length_append]
    omega
  have hfront : (front ++ old ++ rest).take front.length = front := by
    rw [List.append_assoc, List.take_left]
  have hrest : (front ++ old ++ rest).drop (front.length + span.length) = rest := by
    rw [← h, ← List.length_append, List.drop_left]
  rw [store, if_pos hinside, overwrite, hfront, hrest]

/-- **Storing a span behind what has been written appends it.** -/
theorem store_padTo (hstart : written.length ≤ start) (hstop : start + span.length ≤ total) :
    store (written.padTo total) start span =
      .ok ((written.padTo start ++ span).padTo total) := by
  have hlength := length_padTo_of_le hstart
  have hzeros : written.padTo total = written.padTo start ++ List.replicate span.length 0 ++
      List.replicate (total - (start + span.length)) 0 := by
    rw [padTo_append_replicate hstart, padTo_append_replicate (by omega)]
    congr 1
    omega
  have hstore := @store_append (written.padTo start)
    (List.replicate (total - (start + span.length)) 0) span (List.replicate span.length 0)
    List.length_replicate
  rw [hlength] at hstore
  have hpadded : (written.padTo start ++ span).padTo total = written.padTo start ++ span ++
      List.replicate (total - (start + span.length)) 0 := by
    conv_lhs => rw [padTo, List.length_append, hlength]
  rw [hzeros, hstore, hpadded]

/-- A span is stored in a gap that is filled up in front of other bytes. -/
theorem store_gap {stop : Nat} (h : written.length + span.length ≤ stop) :
    store ((written.padTo stop ++ rest).padTo total) written.length span =
      .ok (((written ++ span).padTo stop ++ rest).padTo total) := by
  have hzeros : written.padTo stop = written ++ List.replicate span.length 0 ++
      List.replicate (stop - (written.length + span.length)) 0 := by
    rw [padTo, List.append_assoc, List.replicate_append_replicate]
    congr 2
    omega
  have hpadded : (written ++ span).padTo stop = written ++ span ++
      List.replicate (stop - (written.length + span.length)) 0 := by
    rw [padTo, List.length_append]
  have hlength : (written.padTo stop ++ rest).length =
      ((written ++ span).padTo stop ++ rest).length := by
    simp only [List.length_append, length_padTo]
    omega
  have hstore := @store_append written
    (List.replicate (stop - (written.length + span.length)) 0 ++ rest ++
      List.replicate (total - (written.padTo stop ++ rest).length) 0) span
    (List.replicate span.length 0) List.length_replicate
  conv_lhs => rw [padTo, hzeros]
  conv_rhs => rw [padTo, ← hlength, hpadded]
  simpa only [List.append_assoc, hzeros] using hstore

end Bytes

/-! ### Values -/

section Values

variable {registry : Registry} {scene : Scene} {position? : InstanceKey → Option Nat}
  {table : List Nat} {total : Nat}

/-- A record is filled up to its size when its fields have been stored. -/
theorem fillValue_component {typeId : TypeId} {layout : RecordLayout} {values : List Value}
    {pool next : TextPool} {written inner : Bytes} {start : Nat}
    (hlayout : registry.layout? typeId = some layout) (hstart : written.length ≤ start)
    (hstop : start + layout.size ≤ total)
    (hfill : fillFields registry table start layout.fields values
      ((written.padTo start ++ []).padTo total) pool =
        .ok ((written.padTo start ++ inner).padTo total, next)) :
    fillValue registry table start (.component typeId values) (written.padTo total) pool =
      .ok ((written.padTo start ++ inner.padTo layout.size).padTo total, next) := by
  rw [List.append_nil, Bytes.padTo_padTo_of_le _ (Nat.le_trans (Nat.le_add_right _ _) hstop)]
    at hfill
  rw [fillValue, knownLayout_eq_ok_iff.2 hlayout, Bytes.append_padTo,
    Bytes.length_padTo_of_le hstart, Bytes.padTo_padTo_of_le _ hstop]
  exact hfill

mutual

/-- **A value that passes the check is stored inside its field.** -/
theorem fillValue_of_writeValue (hsound : registry.Sound) (hspace : total < Address.space)
    (htable : ∀ {key record position}, scene[key]? = some record →
      position? key = some position → table[key]? = some position)
    {owner : RecordLayout} {field : FieldLayout} {extent : Extent} {ownerName fieldName : String}
    {pool next : TextPool} {written out : Bytes} {start : Nat} (value : Value)
    (hcheck : Scene.checkValue registry scene owner field value = .ok ())
    (hextent : registry.extent? field.kind = some extent) (hstart : written.length ≤ start)
    (hstop : start + extent.size ≤ total)
    (h : writeValue registry position? ownerName fieldName value pool = .ok (out, next)) :
    out.length = extent.size ∧
      fillValue registry table start value (written.padTo total) pool =
        .ok ((written.padTo start ++ out).padTo total, next) := by
  cases value with
  | scalar number =>
      rw [Scene.checkValue_scalar_iff.1 hcheck] at hextent
      cases hextent
      cases h
      refine ⟨number.length_bytes, ?_⟩
      rw [fillValue]
      exact bind_eq_ok_iff.2 ⟨_, Bytes.store_padTo hstart
        (by rw [Scalar.length_bytes]; exact hstop), rfl⟩
  | text content =>
      rw [(Scene.checkValue_text_iff.1 hcheck).1] at hextent
      cases hextent
      have hword : ∀ word, start + (pointer word).length ≤ total := fun word => by
        rw [length_pointer]
        exact hstop
      cases content with
      | none =>
          cases h
          refine ⟨Word.length_encode _ _, ?_⟩
          rw [fillValue]
          exact bind_eq_ok_iff.2 ⟨_, Bytes.store_padTo hstart (hword 0), rfl⟩
      | some text =>
          cases h
          refine ⟨Word.length_encode _ _, ?_⟩
          rw [fillValue]
          exact bind_eq_ok_iff.2 ⟨_, Bytes.store_padTo hstart (hword _), rfl⟩
  | component typeId values =>
      obtain ⟨target, layout, hkind, rfl, hlayout, hvalues⟩ :=
        Scene.checkValue_component_iff.1 hcheck
      rw [hkind, Registry.extent?, hlayout] at hextent
      cases hextent
      rw [writeValue, hlayout] at h
      obtain ⟨⟨inner, last⟩, hwrite, hok⟩ := bind_eq_ok_iff.1 h
      cases hok
      have hlayoutSound := (hsound _ _ hlayout).2
      obtain ⟨hinner, hfill⟩ := fillFields_of_writeFields hsound hspace htable values hvalues
        hlayoutSound.extent hlayoutSound.inOrder_fields (Bytes.length_padTo_of_le hstart) hstop
        hwrite
      exact ⟨Bytes.length_padTo_of_le hinner, fillValue_component hlayout hstart hstop hfill⟩
  | ref key =>
      obtain ⟨target, hkind, hkey⟩ := Scene.checkValue_ref_iff.1 hcheck
      rw [hkind] at hextent
      cases hextent
      have hword : ∀ word, start + (pointer word).length ≤ total := fun word => by
        rw [length_pointer]
        exact hstop
      cases key with
      | none =>
          cases h
          refine ⟨Word.length_encode _ _, ?_⟩
          rw [fillValue]
          exact bind_eq_ok_iff.2 ⟨_, Bytes.store_padTo hstart (hword 0), rfl⟩
      | some key =>
          rw [writeValue] at h
          split at h
          · next position hposition =>
              cases h
              obtain ⟨record, hrecord, -⟩ := hkey key rfl
              refine ⟨Word.length_encode _ _, ?_⟩
              rw [fillValue, fetch_eq_ok_iff.2 (htable hrecord hposition)]
              exact bind_eq_ok_iff.2 ⟨_, rfl, bind_eq_ok_iff.2
                ⟨_, Bytes.store_padTo hstart (hword position), rfl⟩⟩
          · cases h

/-- Values that pass the check are stored inside their record, each behind those before it. -/
theorem fillFields_of_writeFields (hsound : registry.Sound) (hspace : total < Address.space)
    (htable : ∀ {key record position}, scene[key]? = some record →
      position? key = some position → table[key]? = some position)
    {owner other : RecordLayout} {fields : List FieldLayout} {size start : Nat}
    {pool next : TextPool} {front written out : Bytes} (values : List Value)
    (hcheck : Scene.checkValues registry scene owner fields values = .ok ())
    (hextent : ∀ field ∈ fields, ∃ extent,
      registry.extent? field.kind = some extent ∧ field.size = extent.size)
    (hinOrder : Span.InOrder written.length (fields.map FieldLayout.span) size)
    (hfront : front.length = start) (hstop : start + size ≤ total)
    (h : writeFields registry position? other fields values written pool = .ok (out, next)) :
    out.length ≤ size ∧
      fillFields registry table start fields values ((front ++ written).padTo total) pool =
        .ok ((front ++ out).padTo total, next) := by
  have hend := hinOrder.le
  cases values with
  | nil =>
      rw [writeFields.eq_def] at h
      cases h
      exact ⟨hend, by rw [fillFields.eq_def]⟩
  | cons value values =>
      cases fields with
      | nil =>
          rw [writeFields.eq_def] at h
          cases h
          exact ⟨hend, by rw [fillFields.eq_def]⟩
      | cons field fields =>
          rw [Scene.checkValues] at hcheck
          obtain ⟨_, hvalue, hvalues⟩ := bind_eq_ok_iff.1 hcheck
          rw [writeFields] at h
          obtain ⟨⟨first, middle⟩, hfirst, hrest⟩ := bind_eq_ok_iff.1 h
          obtain ⟨⟨extent, hfield, hsize⟩, hextent⟩ := List.forall_mem_cons.1 hextent
          obtain ⟨hbefore, -, hinside⟩ := Span.inOrder_cons_iff.1 hinOrder
          have hinside := hinside.le
          simp only [FieldLayout.span] at hbefore hinside
          obtain ⟨hlength, hstore⟩ := @fillValue_of_writeValue hsound hspace htable owner field
            extent other.name field.name pool middle (front ++ written) first
            (start + field.offset) value hvalue hfield (by rw [List.length_append]; omega)
            (by omega) hfirst
          have hfilled : field.offset + first.length = field.offset + field.size := by
            rw [hlength, hsize]
          have hnext := (hinOrder.write hfilled).2
          obtain ⟨hout, hfill⟩ := fillFields_of_writeFields hsound hspace htable values hvalues
            hextent hnext hfront hstop hrest
          refine ⟨hout, ?_⟩
          rw [fillFields, Address.sum_of_lt (by omega)]
          refine bind_eq_ok_iff.2 ⟨_, rfl, bind_eq_ok_iff.2 ⟨_, hstore, ?_⟩⟩
          rw [← hfront, ← Bytes.append_padTo, List.append_assoc, hfront]
          exact hfill

end

/-! ### Records -/

/-- The values of a record that passes the check are stored inside the record. -/
theorem fillRecord_of_writeRecord (hsound : registry.Sound) (hspace : total < Address.space)
    (htable : ∀ {key record position}, scene[key]? = some record →
      position? key = some position → table[key]? = some position)
    {entry : StoredRecord} {pool next : TextPool} {written out : Bytes} {start : Nat}
    (hlayout : registry.layout? entry.record.typeId = some entry.layout)
    (hcheck : Scene.checkValues registry scene entry.layout entry.layout.fields
      entry.record.values = .ok ())
    (hstart : written.length ≤ start) (hstop : start + entry.layout.size ≤ total)
    (h : writeRecord registry position? entry pool = .ok (out, next)) :
    out.length = entry.layout.size ∧
      fillValue registry table start (.ofRecord entry.record) (written.padTo total) pool =
        .ok ((written.padTo start ++ out).padTo total, next) := by
  obtain ⟨⟨inner, last⟩, hwrite, hok⟩ := bind_eq_ok_iff.1 h
  cases hok
  have hlayoutSound := (hsound _ _ hlayout).2
  obtain ⟨hinner, hfill⟩ := fillFields_of_writeFields hsound hspace htable entry.record.values
    hcheck hlayoutSound.extent hlayoutSound.inOrder_fields (Bytes.length_padTo_of_le hstart) hstop
    hwrite
  exact ⟨Bytes.length_padTo_of_le hinner, fillValue_component hlayout hstart hstop hfill⟩

theorem fillRecords_cons {key : InstanceKey} {record : Record} {position slot : Nat}
    {keys : List InstanceKey} {buffer stored next : Bytes} {pool later : TextPool}
    (hrecord : scene[key]? = some record) (hposition : table[key]? = some position)
    (hslot : buffer.store slot (pointer position) = .ok stored)
    (hfill : fillValue registry table position (.ofRecord record) stored pool =
      .ok (next, later)) :
    fillRecords registry scene table slot (key :: keys) buffer pool =
      fillRecords registry scene table (slot + Address.width) keys next later := by
  rw [fillRecords, fetch_eq_ok_iff.2 hposition, fetch_eq_ok_iff.2 hrecord]
  change (buffer.store slot (pointer position)).bind _ = _
  rw [hslot]
  change (fillValue registry table position (.ofRecord record) stored pool).bind _ = _
  rw [hfill]
  rfl

/-- **Records that pass the check are stored at their positions**, next to their words in the
directory.  The directory has been stored up to the end of `front`, and `rest` stands behind the
directory. -/
theorem fillRecords_of_writeRecords (hsound : registry.Sound) (hspace : total < Address.space)
    (htable : ∀ {key record position}, scene[key]? = some record →
      position? key = some position → table[key]? = some position)
    {places : List (StoredRecord × Nat)}
    (hscene : ∀ place ∈ places, scene[place.1.key]? = some place.1.record)
    (hplace : ∀ place ∈ places, table[place.1.key]? = some place.2)
    (hlayout : ∀ place ∈ places,
      registry.layout? place.1.record.typeId = some place.1.layout)
    (hcheck : ∀ place ∈ places, Scene.checkValues registry scene place.1.layout
      place.1.layout.fields place.1.record.values = .ok ())
    {pool next : TextPool} {front rest out : Bytes} {stop recordsAt : Nat}
    (hfront : front.length + places.length * Address.width = recordsAt)
    (hinOrder : Span.InOrder (recordsAt + rest.length)
      (places.map fun place => (StoredRecord.entryAt place).span) stop)
    (hstop : stop ≤ total)
    (h : writeRecords registry position? places
      (front ++ (places.map Prod.snd).flatMap pointer ++ rest) pool = .ok (out, next)) :
    out.length ≤ stop ∧
      fillRecords registry scene table front.length (places.map fun place => place.1.key)
        ((front.padTo recordsAt ++ rest).padTo total) pool = .ok (out.padTo total, next) := by
  induction places generalizing front rest pool with
  | nil =>
      cases h
      obtain rfl : front.length = recordsAt := by simpa using hfront
      have hpadded : front.padTo front.length = front := by simp [Bytes.padTo]
      have hend := hinOrder.le
      refine ⟨by simpa using hend, ?_⟩
      simp [fillRecords, hpadded]
  | cons place places ih =>
      obtain ⟨entry, position⟩ := place
      obtain ⟨hrecord, hscene⟩ := List.forall_mem_cons.1 hscene
      obtain ⟨hposition, hplace⟩ := List.forall_mem_cons.1 hplace
      obtain ⟨hentry, hlayout⟩ := List.forall_mem_cons.1 hlayout
      obtain ⟨hvalues, hcheck⟩ := List.forall_mem_cons.1 hcheck
      rw [List.length_cons, Nat.succ_mul] at hfront
      obtain ⟨⟨bytes, middle⟩, hwrite, hrest⟩ := bind_eq_ok_iff.1 h
      -- the directory is stored up to the next word, and the record behind it
      have hword := length_pointer position
      have hslot := @Bytes.store_gap front rest (pointer position) total recordsAt (by omega)
      let done : Bytes := front ++ pointer position
      have hdone : done.length + places.length * Address.width = recordsAt := by
        simp only [done, List.length_append]
        omega
      have hgap : (done.padTo recordsAt).length = recordsAt :=
        Bytes.length_padTo_of_le (by omega)
      obtain ⟨hbefore, -, hafter⟩ := Span.inOrder_cons_iff.1 hinOrder
      have hafter := hafter.le
      simp only [StoredRecord.entryAt, Entry.span] at hbefore hafter
      obtain ⟨hsize, hfill⟩ := @fillRecord_of_writeRecord _ _ _ _ total hsound hspace htable entry
        pool middle (done.padTo recordsAt ++ rest) bytes position hentry hvalues
        (by rw [List.length_append, hgap]; exact hbefore) (by omega) hwrite
      have hbehind : ∀ head : Bytes, head.length = recordsAt →
          (head ++ rest).padTo position ++ bytes =
            head ++ (rest.padTo (position - recordsAt) ++ bytes) := by
        intro head hhead
        rw [← List.append_assoc, Bytes.append_padTo, hhead, Nat.add_sub_cancel' (by omega)]
      rw [hbehind _ hgap] at hfill
      have hnext : Span.InOrder (recordsAt + (rest.padTo (position - recordsAt) ++ bytes).length)
          (places.map fun place => (StoredRecord.entryAt place).span) stop := by
        rw [List.length_append, Bytes.length_padTo_of_le (by omega), hsize, ← Nat.add_assoc,
          Nat.add_sub_cancel' (by omega)]
        exact (Span.inOrder_cons_iff.1 hinOrder).2.2
      have hwords : (done ++ (places.map Prod.snd).flatMap pointer).length = recordsAt := by
        rw [List.length_append, length_flatMap_of_width length_pointer,
          List.length_map]
        exact hdone
      have hhead : front ++ (((entry, position) :: places).map Prod.snd).flatMap pointer =
          done ++ (places.map Prod.snd).flatMap pointer := by
        simp only [done, List.map_cons, List.flatMap_cons, List.append_assoc]
      dsimp only at hrest
      rw [hhead, hbehind _ hwords] at hrest
      obtain ⟨hout, hrecords⟩ := ih hscene hplace hlayout hcheck hdone hnext hrest
      refine ⟨hout, ?_⟩
      rw [List.map_cons, fillRecords_cons hrecord hposition hslot hfill]
      simpa only [done, List.length_append, hword] using hrecords

end Values

/-! ### Images -/

/-- The ranges are stored behind what has been written. -/
theorem fillRanges_padTo {ranges : List Range} {written : Bytes} {total : Nat}
    (h : written.length + ranges.length * Range.size ≤ total) :
    fillRanges written.length ranges (written.padTo total) =
      .ok ((written ++ ranges.flatMap Range.encode).padTo total) := by
  induction ranges generalizing written with
  | nil => rw [List.flatMap_nil, List.append_nil]; rfl
  | cons range rest ih =>
      have hrange := range.length_encode
      rw [List.length_cons, Nat.succ_mul] at h
      have hstore := @Bytes.store_padTo written range.encode written.length total (Nat.le_refl _)
        (by omega)
      have hpadded : written.padTo written.length = written := by simp [Bytes.padTo]
      rw [hpadded] at hstore
      have hrest := @ih (written ++ range.encode) (by rw [List.length_append]; omega)
      rw [List.length_append, hrange, List.append_assoc] at hrest
      exact bind_eq_ok_iff.2 ⟨_, hstore, hrest⟩

namespace Scene

variable {registry : Registry} {config : PackConfig} {scene : Scene} {bytes : Bytes}

theorem map_key_stored_of_check (hsound : registry.Sound) (hcheck : scene.check registry = .ok ()) :
    (scene.stored registry).map StoredRecord.key = scene.order.map Prod.snd :=
  map_key_stored hsound (typed_of_check hcheck)

theorem map_key_places_of_check (hsound : registry.Sound) (config : PackConfig)
    (hcheck : scene.check registry = .ok ()) :
    ((scene.arrange registry config).places.map fun place => place.1.key) =
      scene.order.map Prod.snd := by
  have hplaced := scene.placed hsound config
  have hfirst : (scene.arrange registry config).places.map Prod.fst = scene.stored registry :=
    List.map_fst_zip (Nat.le_of_eq hplaced.length_positions.symm)
  rw [← map_key_stored_of_check hsound hcheck, ← hfirst, List.map_map]
  rfl

theorem getElem?_table_plan (hsound : registry.Sound) (config : PackConfig)
    (hcheck : scene.check registry = .ok ()) :
    ∀ place ∈ (scene.arrange registry config).places,
      ((scene.arrange registry config).plan scene).table[place.1.key]? = some place.2 := by
  refine getElem?_fillTable ?_ fun place hplace => ?_
  · rw [map_key_places_of_check hsound config hcheck]
    exact scene.nodup_order_keys
  · have hstored := Arrangement.mem_stored_of_mem_places hplace
    rw [List.length_replicate]
    exact (List.getElem?_eq_some_iff.1 (of_mem_stored hsound hstored).2.2).1

theorem getElem?_table_of_position? {arrangement : Arrangement} {table : List Nat}
    (htable : ∀ place ∈ arrangement.places, table[place.1.key]? = some place.2)
    {key : InstanceKey} {position : Nat} (h : arrangement.position? key = some position) :
    table[key]? = some position := by
  obtain ⟨index, entry, hentry, rfl, hindex⟩ := Arrangement.exists_of_position? h
  exact htable (entry, position)
    (List.mem_of_getElem? (List.getElem?_zip_eq_some.2 ⟨hentry, hindex⟩))

/-- The header and the ranges are stored at the start of the buffer. -/
theorem exists_filled_tables (hsound : registry.Sound) (config : PackConfig) :
    ∃ buffer, Bytes.store (List.replicate (scene.arrange registry config).sizes.total 0) 0
        (scene.arrange registry config).header.encode = .ok buffer ∧
      fillRanges Header.size (scene.arrange registry config).ranges buffer =
        .ok ((scene.arrange registry config).tables.padTo
          (scene.arrange registry config).sizes.total) := by
  have hplaced := scene.placed hsound config
  have hranges := hplaced.rangesEnd_le
  have hrecords := hplaced.inOrder.le
  have htotal := total_sizes hsound config scene
  have hheader := (scene.arrange registry config).header.length_encode
  simp only [Arrangement.rangesEnd, Arrangement.directoryEnd] at hranges hrecords
  have hstore := @Bytes.store_padTo [] (scene.arrange registry config).header.encode 0
    (scene.arrange registry config).sizes.total (Nat.le_refl _) (by omega)
  have hfill := @fillRanges_padTo (scene.arrange registry config).ranges
    (scene.arrange registry config).header.encode (scene.arrange registry config).sizes.total
    (by omega)
  rw [hheader] at hfill
  exact ⟨_, hstore, hfill⟩

theorem fillRecords_of_write (hsound : registry.Sound) (hcheck : scene.check registry = .ok ())
    {out : Bytes} {pool : TextPool} (hwrite : scene.write registry config = .ok (out, pool))
    {table : List Nat}
    (htable : ∀ place ∈ (scene.arrange registry config).places,
      table[place.1.key]? = some place.2)
    {total : Nat} (hspace : total < Address.space)
    (htotal : (scene.arrange registry config).textAt ≤ total) :
    out.length ≤ (scene.arrange registry config).textAt ∧
      fillRecords registry scene table (scene.arrange registry config).directoryAt
        (scene.order.map Prod.snd) ((scene.arrange registry config).tables.padTo total)
        ⟨(scene.arrange registry config).textAt, config.shareTexts, []⟩ =
          .ok (out.padTo total, pool) := by
  have hplaced := scene.placed hsound config
  have hend := hplaced.inOrder.le
  have hstored : ∀ place ∈ (scene.arrange registry config).places,
      place.1 ∈ scene.stored registry :=
    fun place hplace => Arrangement.mem_stored_of_mem_places hplace
  have hpositions : ∀ {key record position}, scene[key]? = some record →
      (scene.arrange registry config).position? key = some position →
        table[key]? = some position := fun _ hposition =>
    getElem?_table_of_position? htable hposition
  have hkeys := map_key_places_of_check hsound config hcheck
  have hfront : ((scene.arrange registry config).tables.padTo
        (scene.arrange registry config).directoryAt).length +
      (scene.arrange registry config).places.length * Address.width =
        (scene.arrange registry config).directoryEnd := by
    rw [hplaced.length_padTo_tables, Arrangement.places, List.length_zip,
      hplaced.length_positions, Nat.min_self]
    rfl
  have hinOrder : Span.InOrder ((scene.arrange registry config).directoryEnd + ([] : Bytes).length)
      ((scene.arrange registry config).places.map fun place => (StoredRecord.entryAt place).span)
      (scene.arrange registry config).textAt := by
    have hplaces := hplaced.inOrder_places
    rw [hplaced.length_front] at hplaces
    exact hplaces
  have hwords : (scene.arrange registry config).tables.padTo
        (scene.arrange registry config).directoryAt ++
      ((scene.arrange registry config).places.map Prod.snd).flatMap pointer ++ [] =
        (scene.arrange registry config).front := by
    rw [Arrangement.places, List.map_snd_zip (Nat.le_of_eq hplaced.length_positions),
      List.append_nil]
    rfl
  have hfill := fillRecords_of_writeRecords hsound hspace hpositions
    (fun place hplace => (of_mem_stored hsound (hstored place hplace)).2.2) htable
    (fun place hplace => (of_mem_stored hsound (hstored place hplace)).1)
    (fun place hplace => checkValues_of_mem_stored hsound.grounded hcheck (hstored place hplace))
    hfront hinOrder htotal
    ((congrArg (writeRecords registry _ _ · _) hwords).trans hwrite)
  have hrecords : (scene.arrange registry config).directoryEnd ≤ total := Nat.le_trans hend htotal
  rw [hkeys, hplaced.length_padTo_tables, List.append_nil, Bytes.padTo_padTo_of_le _ hrecords,
    Bytes.padTo_padTo_of_le _ (Nat.le_trans (Nat.le_add_right _ _) hrecords)] at hfill
  exact hfill

/-- **After the check, the second pass succeeds**: it never leaves the buffer or the table, meets no
unknown type, and stores the bytes of packing. -/
theorem fill_of_pack (hsound : registry.Sound) (hpack : scene.pack registry config = .ok bytes)
    (hspace : (scene.arrange registry config).sizes.total < Address.space) :
    ((scene.arrange registry config).plan scene).fill registry config scene
      (List.replicate (scene.arrange registry config).sizes.total 0) = .ok bytes := by
  obtain ⟨hcheck, out, pool, hwrite, rfl⟩ := pack_eq_ok_iff.1 hpack
  have hknown := typed_of_check hcheck
  obtain ⟨buffer, hheader, hranges⟩ := @exists_filled_tables registry scene hsound config
  have htotal := total_sizes hsound config scene
  have hroom : (scene.arrange registry config).textAt ≤
      (scene.arrange registry config).sizes.total := by omega
  obtain ⟨hout, hrecords⟩ := fillRecords_of_write hsound hcheck hwrite
    (getElem?_table_plan hsound config hcheck) hspace hroom
  have htext := length_texts_of_write hsound hcheck hwrite
  have hle := text_complete_le registry config scene
  have hstore := @Bytes.store_padTo out pool.bytes (scene.arrange registry config).textAt
    (scene.arrange registry config).sizes.total hout (by omega)
  have hsame : ((scene.arrange registry config).plan scene).header scene =
      (scene.arrange registry config).header := by
    rw [ImagePlan.header, ← length_stored hsound hknown]
    rfl
  have hkeys : ((scene.arrange registry config).plan scene).keys = scene.order.map Prod.snd :=
    map_key_stored hsound hknown
  rw [ImagePlan.fill, hsame, hkeys]
  exact bind_eq_ok_iff.2 ⟨_, hheader, bind_eq_ok_iff.2 ⟨_, hranges, bind_eq_ok_iff.2
    ⟨_, hrecords, hstore⟩⟩⟩

end Scene

end ScenePack
