/-
**What packing keeps of a scene.**

Packing a scene writes its completed records: values without a field are passed over, and where
fields have no value the zero bytes of the image stand for zeros.  So the image of any scene that
can be packed is one of the completed scene, and what it was packed from is read back only if that
scene was complete.  Room for texts is counted before, with all values.

Main results:

* `writeFields_zeros` — **zeros are written as zero bytes**;
* `Scene.write_complete` — **a scene is written like its completed scene**;
* `Scene.length_of_pack` — an image has the size that was measured;
* `Scene.pack_completes` — **packing completes the scene**.
-/

import ScenePack.Proofs.Image.Interned
import ScenePack.Proofs.Image.RoundTrip
import ScenePack.Proofs.Scene.Complete

set_option relaxedAutoImplicit false
set_option autoImplicit false

namespace ScenePack

/-! ### Zero bytes -/

namespace Bytes

theorem padTo_zero (bytes : Bytes) : bytes.padTo 0 = bytes := by
  rw [padTo, Nat.zero_sub, List.replicate_zero, List.append_nil]

theorem padTo_append_replicate {bytes : Bytes} {start : Nat} (h : bytes.length ≤ start)
    (count : Nat) : bytes.padTo start ++ List.replicate count 0 = bytes.padTo (start + count) := by
  rw [padTo, padTo, List.append_assoc, List.replicate_append_replicate]
  congr 2
  omega

theorem padTo_padTo (bytes : Bytes) (first second : Nat) :
    (bytes.padTo first).padTo second = bytes.padTo (max first second) := by
  rw [padTo, length_padTo, padTo, padTo, List.append_assoc, List.replicate_append_replicate]
  congr 2
  omega

theorem padTo_padTo_of_le (bytes : Bytes) {first second : Nat} (h : first ≤ second) :
    (bytes.padTo first).padTo second = bytes.padTo second := by
  rw [padTo_padTo, Nat.max_eq_right h]

end Bytes

theorem Word.encode_zero (width : Nat) : Word.encode width 0 = List.replicate width 0 := by
  induction width with
  | zero => rfl
  | succ width ih =>
      rw [Word.encode, Nat.zero_div, ih, List.replicate_succ]
      rfl

theorem Scalar.bytes_zero (type : ScalarType) :
    (Scalar.zero type).bytes = List.replicate type.size 0 := by
  have hword : (zero type).word = 0 := Nat.zero_mod _
  rw [bytes, hword]
  exact Word.encode_zero _

/-! ### Writing zeros -/

/-- A record whose fields have been written, and some zero bytes behind them, is filled up to its
size. -/
theorem filled_eq_ok {fields : Except SceneError (Bytes × TextPool)} {out : Bytes}
    {next : TextPool} {stop size : Nat} (h : fields = .ok (out.padTo stop, next))
    (hstop : stop ≤ size) :
    (do
      let (bytes, pool) ← fields
      .ok (bytes.padTo size, pool)) = .ok (out.padTo size, next) := by
  rw [h, ← Bytes.padTo_padTo_of_le out hstop]
  rfl

section Zeros

variable {registry : Registry} {position? : InstanceKey → Option Nat} {owner : RecordLayout}
  {pool : TextPool}

/-- A field whose value is written as zero bytes, in front of others. -/
theorem writeFields_zero_cons {field : FieldLayout} {fields : List FieldLayout} {value : Value}
    {values : List Value} {size : Nat} {written : Bytes}
    (hvalue : writeValue registry position? owner.name field.name value pool =
      .ok (List.replicate field.size 0, pool))
    (hinOrder : Span.InOrder written.length ((field :: fields).map FieldLayout.span) size)
    (hrest : ∀ written : Bytes, Span.InOrder written.length (fields.map FieldLayout.span) size →
      ∃ stop ≤ size, writeFields registry position? owner fields values written pool =
        .ok (written.padTo stop, pool)) :
    ∃ stop ≤ size, writeFields registry position? owner (field :: fields) (value :: values) written
      pool = .ok (written.padTo stop, pool) := by
  have hlength : field.offset + (List.replicate field.size (0 : UInt8)).length =
      field.offset + field.size := by rw [List.length_replicate]
  obtain ⟨-, hnext⟩ := hinOrder.write hlength
  obtain ⟨stop, hstop, hwrite⟩ := hrest _ hnext
  obtain ⟨hstart, -, hinside⟩ := Span.inOrder_cons_iff.1 hinOrder
  refine ⟨max (field.offset + field.size) stop, Nat.max_le.2 ⟨hinside.le, hstop⟩, ?_⟩
  rw [writeFields]
  refine bind_eq_ok_iff.2 ⟨_, hvalue, hwrite.trans ?_⟩
  rw [Bytes.padTo_append_replicate hstart, Bytes.padTo_padTo]
  rfl

/-- **Zeros are written as zero bytes**, and add no texts. -/
theorem writeFields_zeros (hsound : registry.Sound) {fields : List FieldLayout}
    {values : List Value} (h : registry.Zeros fields values) {size : Nat} {written : Bytes}
    (hextent : ∀ field ∈ fields, ∃ extent,
      registry.extent? field.kind = some extent ∧ field.size = extent.size)
    (hinOrder : Span.InOrder written.length (fields.map FieldLayout.span) size) :
    ∃ stop ≤ size, writeFields registry position? owner fields values written pool =
      .ok (written.padTo stop, pool) := by
  have hpointer : pointer 0 = List.replicate Address.width 0 := Word.encode_zero _
  induction h generalizing owner size written with
  | nil =>
      refine ⟨0, Nat.zero_le _, ?_⟩
      rw [Bytes.padTo_zero]
      rfl
  | scalar hkind _ ih =>
      obtain ⟨⟨extent, hfield, hsize⟩, hfields⟩ := List.forall_mem_cons.1 hextent
      rw [hkind] at hfield
      cases hfield
      refine writeFields_zero_cons ?_ hinOrder fun _ hnext => ih hfields hnext
      rw [writeValue, Scalar.bytes_zero, hsize]
      rfl
  | text hkind _ ih =>
      obtain ⟨⟨extent, hfield, hsize⟩, hfields⟩ := List.forall_mem_cons.1 hextent
      rw [hkind] at hfield
      cases hfield
      refine writeFields_zero_cons ?_ hinOrder fun _ hnext => ih hfields hnext
      rw [writeValue, hpointer, hsize]
      rfl
  | ref hkind _ ih =>
      obtain ⟨⟨extent, hfield, hsize⟩, hfields⟩ := List.forall_mem_cons.1 hextent
      rw [hkind] at hfield
      cases hfield
      refine writeFields_zero_cons ?_ hinOrder fun _ hnext => ih hfields hnext
      rw [writeValue, hpointer, hsize]
      rfl
  | unknown hkind hnone _ _ =>
      obtain ⟨⟨extent, hfield, -⟩, -⟩ := List.forall_mem_cons.1 hextent
      rw [hkind, Registry.extent?, hnone] at hfield
      cases hfield
  | component hkind hinner _ _ ihembedded ihrest =>
      obtain ⟨⟨extent, hfield, hsize⟩, hfields⟩ := List.forall_mem_cons.1 hextent
      rw [Registry.extent?_of_component hkind hinner] at hfield
      cases hfield
      obtain ⟨hid, hlayout⟩ := hsound _ _ hinner
      refine writeFields_zero_cons ?_ hinOrder fun _ hnext => ihrest hfields hnext
      obtain ⟨stop, hstop, hwrite⟩ := ihembedded hlayout.extent hlayout.inOrder_fields
      rw [writeValue, hid, hinner, hsize]
      exact filled_eq_ok hwrite hstop

end Zeros

/-! ### Writing completed records -/

namespace Writing

variable {writing : Writing}

mutual

/-- A value is written like the completed one. -/
theorem writeValue_complete {owner field : String} {kind : FieldKind Target} {pool : TextPool}
    {result : Bytes × TextPool} (value : Value)
    (hstorable : (value.complete writing.registry).Storable writing.registry writing.scene kind)
    (h : writeValue writing.registry writing.position? owner field value pool = .ok result) :
    writeValue writing.registry writing.position? owner field (value.complete writing.registry)
      pool = .ok result := by
  cases value with
  | scalar number => exact h
  | text content => exact h
  | component typeId values =>
      rw [writeValue] at h
      split at h
      · cases h
      · next layout hlayout =>
          rw [Value.complete_component hlayout] at hstorable ⊢
          cases kind with
          | scalar type => exact hstorable.elim
          | text => exact hstorable.elim
          | ref target => exact hstorable.elim
          | component target =>
              obtain ⟨-, other, hother, hvalues⟩ := hstorable
              cases hother.symm.trans hlayout
              obtain ⟨⟨out, next⟩, hwrite, hok⟩ := bind_eq_ok_iff.1 h
              cases hok
              have hshallow := writing.sound.grounded.embedded
                (Registry.mem_types_of_layout? hlayout)
              have hsound := (writing.sound _ _ hlayout).2
              obtain ⟨stop, hstop, hcomplete⟩ := writeFields_complete values hshallow hvalues
                hsound.extent hsound.inOrder_fields hwrite
              rw [writeValue, hlayout]
              exact filled_eq_ok hcomplete hstop
  | ref key => exact h

/-- Values are written like the completed ones, up to zero bytes at the end. -/
theorem writeFields_complete {owner : RecordLayout} {nesting : Nat} {fields : List FieldLayout}
    {size : Nat} {pool next : TextPool} {out written : Bytes} (values : List Value)
    (hshallow : writing.registry.Shallow nesting fields)
    (hstorable : Value.AllStorable writing.registry writing.scene fields
      (Value.completeAll writing.registry nesting fields values))
    (hextent : ∀ field ∈ fields, ∃ extent,
      writing.registry.extent? field.kind = some extent ∧ field.size = extent.size)
    (hinOrder : Span.InOrder written.length (fields.map FieldLayout.span) size)
    (h : writeFields writing.registry writing.position? owner fields values written pool =
      .ok (out, next)) :
    ∃ stop ≤ size, writeFields writing.registry writing.position? owner fields
      (Value.completeAll writing.registry nesting fields values) written pool =
        .ok (out.padTo stop, next) := by
  cases values with
  | nil =>
      rw [writeFields.eq_def] at h
      cases h
      rw [Value.completeAll]
      exact writeFields_zeros writing.sound
        (Registry.zeros_zeroValue writing.sound.grounded hshallow) hextent hinOrder
  | cons value values =>
      cases fields with
      | nil =>
          rw [writeFields.eq_def] at h
          cases h
          refine ⟨0, Nat.zero_le _, ?_⟩
          rw [Bytes.padTo_zero]
          rfl
      | cons field fields =>
          rw [writeFields] at h
          obtain ⟨⟨first, middle⟩, hfirst, hrest⟩ := bind_eq_ok_iff.1 h
          rw [Value.completeAll, Value.AllStorable] at hstorable
          obtain ⟨⟨extent, hfield, hsize⟩, hextents⟩ := List.forall_mem_cons.1 hextent
          have hvalue := writeValue_complete value hstorable.1 hfirst
          have hlength := (wrote_of_writeValue _ hstorable.1 hfield hvalue).length_eq
          have hend : field.offset + first.length = field.offset + field.size := by
            rw [hlength, hsize]
          obtain ⟨stop, hstop, hwrite⟩ := writeFields_complete values
            (List.forall_mem_cons.1 hshallow).2 hstorable.2 hextents (hinOrder.write hend).2 hrest
          rw [Value.completeAll, writeFields]
          exact ⟨stop, hstop, bind_eq_ok_iff.2 ⟨_, hvalue, hwrite⟩⟩

end

/-- A stored record at its place, completed. -/
def completePlace (registry : Registry) (place : StoredRecord × Nat) : StoredRecord × Nat :=
  (place.1.complete registry, place.2)

/-- **Records are written like the completed ones.** -/
theorem writeRecords_complete {places : List (StoredRecord × Nat)} {written : Bytes}
    {pool : TextPool} {result : Bytes × TextPool}
    (hlayout : ∀ place ∈ places,
      writing.registry.layout? place.1.record.typeId = some place.1.layout)
    (hstorable : ∀ place ∈ places,
      (place.1.record.complete writing.registry).Storable writing.registry writing.scene)
    (h : writeRecords writing.registry writing.position? places written pool = .ok result) :
    writeRecords writing.registry writing.position?
      (places.map (completePlace writing.registry)) written pool = .ok result := by
  induction places generalizing written pool with
  | nil => exact h
  | cons place rest ih =>
      obtain ⟨hknown, hlayouts⟩ := List.forall_mem_cons.1 hlayout
      obtain ⟨hrecord, hstorables⟩ := List.forall_mem_cons.1 hstorable
      rw [Record.complete_of_layout? hknown] at hrecord
      obtain ⟨layout, hother, hvalues⟩ := hrecord
      cases hother.symm.trans hknown
      obtain ⟨⟨bytes, middle⟩, hwrite, hrest⟩ := bind_eq_ok_iff.1 h
      obtain ⟨⟨inner, last⟩, hfields, hok⟩ := bind_eq_ok_iff.1 hwrite
      cases hok
      have hshallow := writing.sound.grounded.embedded (Registry.mem_types_of_layout? hknown)
      have hsound := (writing.sound _ _ hknown).2
      obtain ⟨stop, hstop, hcomplete⟩ := writeFields_complete place.1.record.values hshallow hvalues
        hsound.extent hsound.inOrder_fields hfields
      have hone : writeRecord writing.registry writing.position?
          (place.1.complete writing.registry) pool =
            .ok (inner.padTo place.1.layout.size, middle) := by
        rw [writeRecord, StoredRecord.complete, Record.complete_of_layout? hknown]
        exact filled_eq_ok hcomplete hstop
      rw [List.map_cons, completePlace, writeRecords]
      exact bind_eq_ok_iff.2 ⟨_, hone, ih hlayouts hstorables hrest⟩

end Writing

/-! ### Packing -/

namespace Scene

variable {registry : Registry} {config : PackConfig} {scene : Scene} {bytes out : Bytes}
  {pool : TextPool}

/-- Completing a scene keeps its arrangement, but for the values of its records and the room for
texts. -/
theorem arrange_complete (registry : Registry) (config : PackConfig) (scene : Scene) :
    (scene.complete registry).arrange registry config =
      { scene.arrange registry config with
        stored := (scene.stored registry).map (StoredRecord.complete registry)
        sizes := { (scene.arrange registry config).sizes with
          text := textsSize ((scene.complete registry).storedTexts registry config) } } := by
  have hlayouts : ((scene.complete registry).stored registry).map StoredRecord.layout =
      (scene.stored registry).map StoredRecord.layout := by
    rw [stored_complete, List.map_map]
    rfl
  have hranges : (scene.complete registry).ranges registry = scene.ranges registry := by
    simp only [ranges, storedOf_complete, List.length_map]
  simp only [arrange, hlayouts, hranges]
  rw [stored_complete, List.length_map]

/-- **A scene is written like its completed scene.** -/
theorem write_complete (hsound : registry.Sound) (hcheck : scene.check registry = .ok ())
    (h : scene.write registry config = .ok (out, pool)) :
    (scene.complete registry).write registry config = .ok (out, pool) := by
  have hplaces : ((scene.complete registry).arrange registry config).places =
      (scene.arrange registry config).places.map (Writing.completePlace registry) := by
    rw [arrange_complete, Arrangement.places, Arrangement.places, List.zip_map_left]
    rfl
  have hposition : ((scene.complete registry).arrange registry config).position? =
      (scene.arrange registry config).position? := by
    funext key
    rw [arrange_complete, Arrangement.position?, Arrangement.position?, List.map_map]
    rfl
  have hfront : ((scene.complete registry).arrange registry config).front =
      (scene.arrange registry config).front := by
    rw [arrange_complete, Arrangement.front, Arrangement.front, Arrangement.header,
      Arrangement.header, List.length_map]
    rfl
  have htextAt : ((scene.complete registry).arrange registry config).textAt =
      (scene.arrange registry config).textAt := by rw [arrange_complete]
  have hstorable := storable_complete hsound.grounded hcheck
  let writing : Writing :=
    ⟨registry, scene.complete registry, (scene.arrange registry config).position?, pool, [], hsound⟩
  rw [write, hposition, hplaces, hfront, htextAt]
  refine @Writing.writeRecords_complete writing _ _ _ _ ?_ ?_ h
  · intro place hplace
    exact (of_mem_stored hsound (Arrangement.mem_stored_of_mem_places hplace)).1
  · intro place hplace
    have hkey := (of_mem_stored hsound (Arrangement.mem_stored_of_mem_places hplace)).2.2
    exact hstorable _ (List.mem_map_of_mem (List.mem_of_getElem? hkey))

theorem length_texts_of_write (hsound : registry.Sound) (hcheck : scene.check registry = .ok ())
    (h : scene.write registry config = .ok (out, pool)) :
    pool.bytes.length = ((scene.complete registry).arrange registry config).sizes.text := by
  refine length_bytes_of_write hsound ?_ (write_complete hsound hcheck h)
  intro record hrecord
  obtain ⟨layout, hlayout, hvalues⟩ := storable_complete hsound.grounded hcheck record hrecord
  exact ⟨layout, hlayout, Value.AllStorable.allFormed record.values hvalues⟩

/-- The texts of the completed scene take no more room than was counted. -/
theorem text_complete_le (registry : Registry) (config : PackConfig) (scene : Scene) :
    ((scene.complete registry).arrange registry config).sizes.text ≤
      (scene.arrange registry config).sizes.text := by
  have hsublist : (((scene.complete registry).stored registry).flatMap fun entry =>
        Value.allTexts entry.record.values).Sublist
      ((scene.stored registry).flatMap fun entry => Value.allTexts entry.record.values) := by
    rw [stored_complete, List.flatMap_map]
    exact List.Sublist.flatMap_right _ fun entry _ => entry.record.allTexts_complete_sublist
  simp only [arrange, storedTexts]
  split
  · refine textsSize_le_of_subset (nodup_eraseDups _) fun text htext => ?_
    exact List.mem_eraseDups.2 (hsublist.subset (List.mem_eraseDups.1 htext))
  · exact textsSize_le_of_sublist hsublist

/-- The parts of an image that were measured are all of it. -/
theorem total_sizes (hsound : registry.Sound) (config : PackConfig) (scene : Scene) :
    (scene.arrange registry config).sizes.total =
      (scene.arrange registry config).textAt + (scene.arrange registry config).sizes.text := by
  have hplaced := scene.placed hsound config
  have hranges := hplaced.rangesEnd_le
  have hrecords := hplaced.inOrder.le
  simp only [Arrangement.rangesEnd, Arrangement.directoryEnd, arrange] at hranges hrecords
  simp only [arrange, ImageSizes.total]
  omega

/-- **An image has the size that was measured.** -/
theorem length_of_pack (hsound : registry.Sound) (hpack : scene.pack registry config = .ok bytes) :
    bytes.length = (scene.arrange registry config).sizes.total := by
  obtain ⟨hcheck, out, pool, hwrite, rfl⟩ := pack_eq_ok_iff.1 hpack
  have htext := length_texts_of_write hsound hcheck hwrite
  have hle := text_complete_le registry config scene
  have hwrote := (wroteRecords_of_write hsound (storable_complete hsound.grounded hcheck)
    (write_complete hsound hcheck hwrite) []).length_le
  rw [arrange_complete] at hwrote
  have htotal := total_sizes hsound config scene
  rw [Bytes.length_padTo, List.length_append, Bytes.length_padTo]
  dsimp only at hwrote
  omega

/-- **The image of a scene that can be packed holds the completed scene.** -/
theorem exists_completed (hsound : registry.Sound)
    (hids : ∀ record ∈ scene, record.typeId < Range.countLimit)
    (hcounts : ∀ id, (scene.filter fun record => record.typeId = id).length < Range.countLimit)
    (hpack : scene.pack registry config = .ok bytes) (hspace : bytes.length < Address.space) :
    ∃ raw, View.ofBytes registry 0 bytes = .ok raw ∧
      raw.toScene = .ok (scene.complete registry).renumbered := by
  obtain ⟨hcheck, out, pool, hwrite, hbytes⟩ := pack_eq_ok_iff.1 hpack
  -- the image is one of the completed scene, with room at its end
  have hstorable := storable_complete hsound.grounded hcheck
  have hcompleteids : ∀ record ∈ scene.complete registry, record.typeId < Range.countLimit := by
    refine List.forall_mem_map.2 fun record hrecord => ?_
    rw [Record.typeId_complete]
    exact hids record hrecord
  have hcompletecounts : ∀ id, ((scene.complete registry).filter fun record =>
      record.typeId = id).length < Range.countLimit := by
    intro id
    rw [complete, List.filter_map, List.length_map]
    simpa only [Function.comp_def, Record.typeId_complete] using hcounts id
  have hparts : bytes = (out.padTo ((scene.complete registry).arrange registry config).textAt ++
      pool.bytes).padTo (scene.arrange registry config).sizes.total := by
    rw [hbytes, arrange_complete]
  obtain ⟨writing, rfl, hscene, rfl, hpacked⟩ := exists_packed_of_write hsound hstorable
    hcompleteids hcompletecounts (write_complete hsound hcheck hwrite) hparts hspace
  obtain ⟨raw, hraw, hread⟩ := hpacked.exists_raw
  exact ⟨raw, hraw, hscene ▸ hread⟩

/-- **Packing completes the scene.**  The image of a scene that can be packed holds the completed
scene; that is the scene which was packed exactly if this was well formed.  The texts that are
written are those of the completed scene, so there is room for them, and no more than they need if
the scene was well formed. -/
theorem pack_completes (hexact : registry.Exact)
    (hids : ∀ record ∈ scene, record.typeId < Range.countLimit)
    (hcounts : ∀ id, (scene.filter fun record => record.typeId = id).length < Range.countLimit)
    (hpack : scene.pack registry config = .ok bytes) (hspace : bytes.length < Address.space) :
    (∃ raw, View.ofBytes registry 0 bytes = .ok raw ∧
      raw.toScene = .ok (scene.complete registry).renumbered ∧
      (raw.toScene = .ok scene.renumbered ↔ scene.Formed registry)) ∧
    ∃ out pool, scene.write registry config = .ok (out, pool) ∧
      pool.bytes.length = ((scene.complete registry).arrange registry config).sizes.text ∧
      pool.bytes.length ≤ (scene.arrange registry config).sizes.text ∧
      (scene.Formed registry →
        pool.bytes.length = (scene.arrange registry config).sizes.text) := by
  have hsound := hexact.sound
  obtain ⟨hcheck, out, pool, hwrite, hbytes⟩ := pack_eq_ok_iff.1 hpack
  constructor
  · obtain ⟨raw, hraw, hread⟩ := exists_completed hsound hids hcounts hpack hspace
    refine ⟨raw, hraw, hread, ?_⟩
    rw [hread, Except.ok.injEq]
    exact renumbered_complete_iff hcheck
  · have htext := length_texts_of_write hsound hcheck hwrite
    refine ⟨out, pool, hwrite, htext, htext ▸ text_complete_le registry config scene, ?_⟩
    intro hformed
    exact length_bytes_of_write hsound hformed hwrite

end Scene

namespace Sample

/-- A node whose tag was made when tags held nothing, and which has no successor yet. -/
def outdated : Scene := [⟨0, [.scalar ⟨.u16, 9, by decide⟩, .component 1 []]⟩]

/-- The image of that scene. -/
def outdatedImage : Bytes :=
  [40, 1, 32, 1, 4294967296, 48, 9, 0, 0, 0, 0, 0].flatMap (Word.encode Address.width)

theorem pack_outdated : Scene.pack registry ⟨true⟩ outdated = .ok outdatedImage := by cbv

end Sample

/-- The outdated node is read back with an empty label in its tag and without a successor. -/
theorem Scene.pack_completes_sample :
    Sample.registry.Exact ∧
      Sample.outdated.pack Sample.registry ⟨true⟩ = .ok Sample.outdatedImage ∧
      Sample.outdatedImage.length < Address.space ∧
      ∃ raw, View.ofBytes Sample.registry 0 Sample.outdatedImage = .ok raw ∧
        raw.toScene = .ok
          [⟨0, [.scalar ⟨.u16, 9, by decide⟩, .component 1 [.text none], .ref none]⟩] := by
  have hids : ∀ record ∈ Sample.outdated, record.typeId < Range.countLimit := by decide
  have hcounts : ∀ id, (Sample.outdated.filter fun record => record.typeId = id).length <
      Range.countLimit := fun id =>
    Nat.lt_of_le_of_lt (List.length_filter_le _ _) (by decide)
  have hspace : Sample.outdatedImage.length < Address.space := by decide +kernel
  have hrenumbered : (Sample.outdated.complete Sample.registry).renumbered =
      [⟨0, [.scalar ⟨.u16, 9, by decide⟩, .component 1 [.text none], .ref none]⟩] := by cbv
  obtain ⟨⟨raw, hraw, hscene, -⟩, -⟩ :=
    pack_completes Sample.exact hids hcounts Sample.pack_outdated hspace
  exact ⟨Sample.exact, Sample.pack_outdated, hspace, raw, hraw, hrenumbered ▸ hscene⟩

namespace Sample

/-- Notes that have a title. -/
def titled : Registry :=
  ⟨⟨16⟩, [⟨0, "Note", 0, 16, 16, [⟨"title", .text, 0, 8, 8⟩], [⟨0, .text⟩]⟩]⟩

/-- Notes that also have a body. -/
def written : Registry :=
  ⟨⟨16⟩, [⟨0, "Note", 0, 16, 16, [⟨"title", .text, 0, 8, 8⟩, ⟨"body", .text, 8, 8, 8⟩],
    [⟨0, .text⟩, ⟨8, .text⟩]⟩]⟩

theorem titled_exact : titled.Exact :=
  ⟨[⟨"Note", [⟨"title", .text⟩]⟩], ⟨16⟩, by cbv⟩

theorem written_exact : written.Exact :=
  ⟨[⟨"Note", [⟨"title", .text⟩, ⟨"body", .text⟩]⟩], ⟨16⟩, by cbv⟩

/-- The image of a note in which everything is empty, and of one with the title "a". -/
def emptyNote : Bytes :=
  [40, 1, 32, 1, 4294967296, 48, 0, 0].flatMap (Word.encode Address.width)

@[inherit_doc emptyNote] def titledNote : Bytes :=
  [40, 1, 32, 1, 4294967296, 48, 64, 0].flatMap (Word.encode Address.width) ++ [97, 0, 0, 0]

/-- **Packing may add values and leave some out.**  A new note that has only a title is packed with
a body, among notes that have one.  A note with a title and a body is packed without its body, among
notes that have only titles; four bytes are counted for its texts, and two are written. -/
theorem packing_changes_values :
    titled.Exact ∧ written.Exact ∧
      (∃ note, Record.new titled "Note" = .ok note ∧ note.values = [.text none] ∧
        Scene.pack written ⟨true⟩ [note] = .ok emptyNote ∧
        View.ofBytes written 0 emptyNote >>= View.toScene =
          .ok [⟨0, [.text none, .text none]⟩]) ∧
      ∃ first second note out pool, Record.new written "Note" = .ok first ∧
        first.set written "title" (.text (some "a")) = .ok second ∧
        second.set written "body" (.text (some "b")) = .ok note ∧
        note.values = [.text (some "a"), .text (some "b")] ∧
        Scene.pack titled ⟨true⟩ [note] = .ok titledNote ∧
        View.ofBytes titled 0 titledNote >>= View.toScene = .ok [⟨0, [.text (some "a")]⟩] ∧
        Scene.write titled ⟨true⟩ [note] = .ok (out, pool) ∧ pool.bytes.length = 2 ∧
        (Scene.arrange titled ⟨true⟩ [note]).sizes.text = 4 := by
  refine ⟨titled_exact, written_exact, ⟨⟨0, [.text none]⟩, by cbv, rfl, by cbv, by cbv⟩,
    ⟨0, [.text none, .text none]⟩, ⟨0, [.text (some "a"), .text none]⟩,
    ⟨0, [.text (some "a"), .text (some "b")]⟩, _, _, by cbv, by cbv, by cbv, rfl, by cbv, by cbv,
    rfl, by cbv, by cbv⟩

end Sample

end ScenePack
