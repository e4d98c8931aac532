/-
**Packed images.**

The image that a scene is packed into is accepted, and it holds the scene in the order of the image.
What the words were written for is what they are read as.

Main definitions:

* `Packed` — an image that has been written in an arrangement of its scene;
* `Arrangement.found` — what a scan finds in it;
* `Scene.write`, `Scene.writing` — what packing a scene writes, and its image on the way.

Main results:

* `Scene.exists_packed_of_write`, `Scene.exists_packed` — packing writes such an image;
* `Packed.accepted` — **a packed image is accepted**;
* `Packed.toScene` — **it holds the renumbered scene**;
* `Packed.textsClear` — no text runs into a word that a relocation changes.
-/

import ScenePack.Proofs.Image.Arranged
import ScenePack.Proofs.Image.Transparency

set_option relaxedAutoImplicit false
set_option autoImplicit false

namespace ScenePack

/-- What a scan finds in the image of an arrangement. -/
def Arrangement.found (arrangement : Arrangement) (bytes : Bytes) : Scan :=
  { header := arrangement.header
    rangesAt := Header.size
    directoryAt := arrangement.directoryAt
    entries := arrangement.entries
    slots := tableSlots arrangement.directoryAt arrangement.stored.length ++
      bytes.nonNull (arrangement.entries.flatMap Entry.pointers) }

/-- An image that has been written in an arrangement of its scene. -/
structure Packed (arrangement : Arrangement) (writing : Writing) : Prop where
  position_eq : writing.position? = arrangement.position?
  placed : arrangement.Placed writing.registry writing.scene
  known : ∀ record ∈ writing.scene, ∃ layout,
    writing.registry.layout? record.typeId = some layout
  ids : ∀ record ∈ writing.scene, record.typeId < Range.countLimit
  counts : ∀ id, (writing.scene.filter fun record => record.typeId = id).length < Range.countLimit
  space : writing.bytes.length < Address.space
  front : arrangement.front <+: writing.bytes
  textAt_le : arrangement.textAt ≤ writing.bytes.length
  start_eq : writing.pool.start = arrangement.textAt
  texts : writing.pool.bytes <+: writing.bytes.drop arrangement.textAt
  held : ∀ place ∈ arrangement.places, Value.AllHeldAt writing.registry writing.store
    place.1.layout.fields place.2 (Value.renameAll writing.scene.newKey place.1.record.values)

theorem Bytes.slice?_front {bytes part : Bytes} (h : part <+: bytes) :
    bytes.slice? 0 part.length = some part := by
  obtain ⟨rest, rfl⟩ := h
  have hslice := slice?_append [] part rest
  simpa using hslice

/-- The parts of an image: what has been written up to a position, and the texts from there on. -/
theorem Bytes.parts_of_padTo {out texts : Bytes} {start : Nat} (h : out.length ≤ start)
    (total : Nat) :
    out <+: (out.padTo start ++ texts).padTo total ∧
      start + texts.length ≤ ((out.padTo start ++ texts).padTo total).length ∧
      texts <+: ((out.padTo start ++ texts).padTo total).drop start := by
  have hlength : (out.padTo start).length = start := by
    rw [length_padTo]
    exact Nat.max_eq_left h
  refine ⟨?_, ?_, ?_⟩
  · exact ((prefix_padTo _ _).trans (List.prefix_append _ _)).trans (prefix_padTo _ _)
  · rw [length_padTo, List.length_append, hlength]
    exact Nat.le_max_right _ _
  · rw [padTo, List.append_assoc, List.drop_left' hlength]
    exact List.prefix_append _ _

theorem TextPool.Holds.lt {pool : TextPool} {text : String} {position : Nat}
    (h : pool.Holds text position) :
    pool.start ≤ position ∧ position < pool.start + pool.bytes.length := by
  obtain ⟨front, rest, hbytes, rfl⟩ := h.bytes_eq
  rw [hbytes, List.length_append, List.length_append, List.length_cons]
  omega

namespace Scene

variable {registry : Registry} {config : PackConfig} {scene : Scene} {bytes out : Bytes}
  {pool : TextPool}

/-- What packing a scene writes: the bytes up to its last record, and the texts. -/
def write (registry : Registry) (config : PackConfig) (scene : Scene) :
    Except SceneError (Bytes × TextPool) :=
  let arrangement := scene.arrange registry config
  writeRecords registry arrangement.position? arrangement.places arrangement.front
    ⟨arrangement.textAt, config.shareTexts, []⟩

/-- **When a scene is packed**, and what its image is. -/
theorem pack_eq_ok_iff : scene.pack registry config = .ok bytes ↔
    scene.check registry = .ok () ∧ ∃ out pool, scene.write registry config = .ok (out, pool) ∧
      bytes = (out.padTo (scene.arrange registry config).textAt ++ pool.bytes).padTo
        (scene.arrange registry config).sizes.total := by
  rw [pack, bind_eq_ok_iff]
  constructor
  · rintro ⟨_, hcheck, h⟩
    obtain ⟨⟨out, pool⟩, hwrite, hok⟩ := bind_eq_ok_iff.1 h
    exact ⟨hcheck, out, pool, hwrite, (Except.ok.inj hok).symm⟩
  · rintro ⟨hcheck, out, pool, hwrite, rfl⟩
    exact ⟨(), hcheck, bind_eq_ok_iff.2 ⟨(out, pool), hwrite, rfl⟩⟩

/-- An image with the given bytes that is being written in the arrangement of a scene. -/
def writing (config : PackConfig) (scene : Scene) (hsound : registry.Sound) (pool : TextPool)
    (bytes : Bytes) : Writing :=
  ⟨registry, scene, (scene.arrange registry config).position?, pool, bytes, hsound⟩

/-- The records of a scene that can be stored are held where they are written, in front of the
texts. -/
theorem wroteRecords_of_write (hsound : registry.Sound)
    (hstorable : ∀ record ∈ scene, record.Storable registry scene)
    (hwrite : scene.write registry config = .ok (out, pool)) (bytes : Bytes) :
    (scene.writing config hsound pool bytes).WroteRecords (scene.arrange registry config).places
      (scene.arrange registry config).textAt (scene.arrange registry config).front
      ⟨(scene.arrange registry config).textAt, config.shareTexts, []⟩ out pool := by
  have hstored : ∀ place ∈ (scene.arrange registry config).places,
      place.1 ∈ scene.stored registry :=
    fun place hplace => Arrangement.mem_stored_of_mem_places hplace
  refine Writing.wroteRecords_of_writeRecords ?_ ?_ (scene.placed hsound config).inOrder_places
    hwrite
  · intro place hplace
    exact (of_mem_stored hsound (hstored place hplace)).1
  · intro place hplace
    have hkey := (of_mem_stored hsound (hstored place hplace)).2.2
    exact hstorable _ (List.mem_of_getElem? hkey)

/-- **What is written is an image in the arrangement of the scene**, with any count of zero bytes at
its end. -/
theorem exists_packed_of_write (hsound : registry.Sound)
    (hstorable : ∀ record ∈ scene, record.Storable registry scene)
    (hids : ∀ record ∈ scene, record.typeId < Range.countLimit)
    (hcounts : ∀ id, (scene.filter fun record => record.typeId = id).length < Range.countLimit)
    (hwrite : scene.write registry config = .ok (out, pool)) {total : Nat}
    (hbytes : bytes =
      (out.padTo (scene.arrange registry config).textAt ++ pool.bytes).padTo total)
    (hspace : bytes.length < Address.space) :
    ∃ writing : Writing, writing.registry = registry ∧ writing.scene = scene ∧
      writing.bytes = bytes ∧ Packed (scene.arrange registry config) writing := by
  have hplaced := scene.placed hsound config
  have hwrote := wroteRecords_of_write hsound hstorable hwrite bytes
  obtain ⟨hout, hlength, htexts⟩ := Bytes.parts_of_padTo hwrote.length_le total
  have hstart : pool.start = (scene.arrange registry config).textAt := hwrote.grows.start_eq
  rw [← hbytes] at hout hlength htexts
  have hfits : (scene.writing config hsound pool bytes).Fits := by
    constructor
    · intro text position hholds
      have hlt : position < pool.start + pool.bytes.length := hholds.lt.2
      rw [hstart] at hlt
      omega
    · intro key position hposition
      have hle : position ≤ (scene.arrange registry config).textAt := hplaced.position_le hposition
      omega
  refine ⟨scene.writing config hsound pool bytes, rfl, rfl, rfl, rfl, hplaced, ?_, hids, hcounts,
    hspace, ?_, ?_, hstart, htexts, hwrote.held hfits (.refl _) (Bytes.slice?_front hout)⟩
  · intro record hrecord
    obtain ⟨layout, hlayout, -⟩ := hstorable record hrecord
    exact ⟨layout, hlayout⟩
  · exact hwrote.extends_written.trans hout
  · exact Nat.le_trans (Nat.le_add_right _ _) hlength

/-- **Packing writes an image in the arrangement of the scene.** -/
theorem exists_packed (hsound : registry.Sound) (hformed : scene.Formed registry)
    (hids : ∀ record ∈ scene, record.typeId < Range.countLimit)
    (hcounts : ∀ id, (scene.filter fun record => record.typeId = id).length < Range.countLimit)
    (hpack : scene.pack registry config = .ok bytes) (hspace : bytes.length < Address.space) :
    ∃ writing : Writing, writing.registry = registry ∧ writing.scene = scene ∧
      writing.bytes = bytes ∧ Packed (scene.arrange registry config) writing := by
  obtain ⟨hcheck, out, pool, hwrite, hbytes⟩ := pack_eq_ok_iff.1 hpack
  exact exists_packed_of_write hsound (storable_of_check hformed hcheck) hids hcounts hwrite hbytes
    hspace

end Scene

namespace Packed

variable {arrangement : Arrangement} {writing : Writing}

/-! ### What the words are read as -/

/-- A text of the pool is read at its position, behind all records. -/
theorem readText (h : Packed arrangement writing) {text : String} {position : Nat}
    (hholds : writing.pool.Holds text position) (hfree : 0 ∉ Utf8.encode text) :
    arrangement.textAt ≤ position ∧ writing.bytes.readText position = .ok text := by
  obtain ⟨front, rest, hbytes, rfl⟩ := hholds.bytes_eq
  obtain ⟨back, hback⟩ := h.texts
  rw [h.start_eq]
  refine ⟨Nat.le_add_right _ _, Bytes.readText_eq_ok_iff.2 ⟨hfree, rest ++ back, ?_⟩⟩
  rw [← List.drop_drop, ← hback, hbytes, List.append_assoc, List.drop_left, List.append_assoc]
  rfl

theorem offsets_eq (h : Packed arrangement writing) :
    arrangement.entries.map Entry.offset = arrangement.positions := by
  rw [Arrangement.entries, List.map_map]
  exact List.map_snd_zip (Nat.le_of_eq h.placed.length_positions)

theorem known_entry (h : Packed arrangement writing) {entry : Entry}
    (hentry : entry ∈ arrangement.entries) :
    ∃ position, writing.registry.layout? position = some entry.layout := by
  obtain ⟨place, hplace, rfl⟩ := List.mem_map.1 hentry
  have hstored := Arrangement.mem_stored_of_mem_places hplace
  rw [h.placed.stored_eq] at hstored
  exact ⟨_, (Scene.of_mem_stored writing.sound hstored).1⟩

theorem ascending (h : Packed arrangement writing) :
    arrangement.entries.Pairwise fun a b => a.offset < b.offset := by
  have hordered := List.pairwise_map.1 h.placed.inOrder.ordered
  refine hordered.imp_of_mem fun ha _ hab => ?_
  obtain ⟨position, hlayout⟩ := h.known_entry ha
  have hpositive := (writing.sound position _ hlayout).2.size_pos
  simp only [Entry.span] at hab
  omega

theorem nodup_offsets (h : Packed arrangement writing) :
    (arrangement.entries.map Entry.offset).Nodup :=
  List.pairwise_map.2 (h.ascending.imp Nat.ne_of_lt)

/-- The word of a reference leads to the entry of its new key. -/
theorem of_position? (h : Packed arrangement writing) {old : InstanceKey} {position : Nat}
    (hposition : writing.position? old = some position) {record : Record}
    (hrecord : writing.scene[old]? = some record) :
    ∃ entry ∈ arrangement.entries, entry.offset = position ∧ entry.layout.id = record.typeId ∧
      (arrangement.found writing.bytes).key? position = some (writing.scene.newKey old) := by
  rw [h.position_eq] at hposition
  obtain ⟨index, entry, hentry, rfl, hindex⟩ := Arrangement.exists_of_position? hposition
  have hfound := Arrangement.getElem?_entries hentry hindex
  rw [h.placed.stored_eq] at hentry
  obtain ⟨-, hid, hkey⟩ := Scene.of_mem_stored writing.sound (List.mem_of_getElem? hentry)
  obtain rfl : entry.record = record := Option.some_inj.1 (hkey.symm.trans hrecord)
  refine ⟨_, List.mem_of_getElem? hfound, rfl, hid, ?_⟩
  rw [Scene.newKey_of_stored writing.sound h.known hentry]
  refine lookup_zipIdx_of_nodup h.nodup_offsets ?_
  rw [h.offsets_eq]
  exact hindex

/-! ### The fixed parts -/

theorem inOrder_regions (h : Packed arrangement writing) :
    Span.InOrder 0 (arrangement.found writing.bytes).regions arrangement.textAt := by
  refine Span.inOrder_cons_iff.2 ⟨Nat.le_refl _, Nat.zero_le _, ?_⟩
  refine Span.inOrder_cons_iff.2 ⟨Nat.le_refl _, Nat.le_add_right _ _, ?_⟩
  exact Span.inOrder_cons_iff.2 ⟨h.placed.rangesEnd_le, Nat.le_add_right _ _, h.placed.inOrder⟩

theorem header_fits (h : Packed arrangement writing) : arrangement.header.Fits :=
  h.placed.header_fits (Nat.lt_of_le_of_lt h.textAt_le h.space)

theorem entry_inside (h : Packed arrangement writing) {entry : Entry}
    (hentry : entry ∈ arrangement.entries) :
    entry.offset + entry.layout.size ≤ writing.bytes.length :=
  Nat.le_trans (h.placed.inOrder.within _ (List.mem_map_of_mem hentry)).2.2 h.textAt_le

theorem readRanges (h : Packed arrangement writing) :
    List.Forall₂ (fun index range =>
        writing.bytes.readRange (Header.size + index * Range.size) = .ok range)
      (List.range arrangement.ranges.length) arrangement.ranges :=
  h.placed.readRanges writing.sound h.ids h.front

theorem spread_ranges (h : Packed arrangement writing) :
    Range.spread arrangement.ranges = arrangement.stored.map fun entry => entry.layout.id := by
  rw [h.placed.ranges_eq, h.placed.stored_eq]
  refine Scene.spread_ranges ?_
  intro layout _
  rw [Scene.length_storedOf]
  exact h.counts layout.id

theorem lists (h : Packed arrangement writing) :
    List.Forall₂ (Lists writing.registry writing.bytes 0 arrangement.directoryAt)
      (Range.spread arrangement.ranges).zipIdx arrangement.entries := by
  have hlength : arrangement.entries.length = arrangement.stored.length := by
    rw [Arrangement.entries, List.length_map, Arrangement.places, List.length_zip,
      h.placed.length_positions, Nat.min_self]
  rw [h.spread_ranges]
  refine forall₂_of_getElem? (by simp [hlength]) ?_
  intro index place found hplace hfound
  rw [List.getElem?_zipIdx, List.getElem?_map, Option.map_map, Option.map_eq_some_iff] at hplace
  obtain ⟨entry, hentry, rfl⟩ := hplace
  have hlt := (List.getElem?_eq_some_iff.1 hentry).1
  have hposition := List.getElem?_eq_getElem (h.placed.length_positions.symm ▸ hlt)
  have hentries := Arrangement.getElem?_entries hentry hposition
  obtain rfl := Option.some_inj.1 (hentries.symm.trans hfound)
  have hmem := List.mem_of_getElem? hfound
  have hstored := List.mem_of_getElem? hentry
  rw [h.placed.stored_eq] at hstored
  obtain ⟨hlayout, hid, -⟩ := Scene.of_mem_stored writing.sound hstored
  rw [← hid] at hlayout
  have hinside := h.entry_inside hmem
  have hspace := h.space
  refine ⟨entry.layout, hlayout, readEntry_eq_ok_iff.2 ⟨rfl, hinside,
    h.placed.aligned _ hmem, ?_⟩⟩
  have hword := h.placed.readSlot h.front hposition (by dsimp only at hinside; omega)
  simpa using hword

/-- **The fixed parts of a packed image are in place.** -/
theorem framed (h : Packed arrangement writing) :
    Framed writing.registry 0 writing.bytes (arrangement.found writing.bytes) := by
  have hranges := h.placed.rangesEnd_le
  have hdirectory := h.placed.inOrder.le
  have htext := h.textAt_le
  simp only [Arrangement.rangesEnd, Arrangement.directoryEnd] at hranges hdirectory
  have haligned : Header.size % Range.align = 0 := by decide
  refine ⟨Arrangement.Placed.readHeader h.header_fits h.front, ?_, ?_, ?_,
    h.inOrder_regions.disjoint⟩
  · refine region_eq_ok_iff.2 ⟨(Nat.zero_add _).symm, ?_, haligned⟩
    simp only [Arrangement.found, Arrangement.header]
    omega
  · refine region_eq_ok_iff.2 ⟨(Nat.zero_add _).symm, ?_, h.placed.directoryAt_aligned⟩
    simp only [Arrangement.found, Arrangement.header]
    omega
  · refine ⟨arrangement.ranges, h.readRanges, ?_, ?_, h.lists⟩
    · intro range hrange
      rw [h.placed.ranges_eq] at hrange
      exact (Scene.of_mem_ranges writing.sound hrange).1
    · rw [h.spread_ranges, List.length_map]
      rfl

/-! ### Pointers -/

/-- A pointer of a record stands for what it was written for. -/
theorem stands (h : Packed arrangement writing) {pointer : PointerSlot}
    (hpointer : pointer ∈ (arrangement.found writing.bytes).pointers) :
    ∃ word, writing.bytes.readSlot pointer.offset = .ok word ∧
      match pointer.kind with
      | .text => ∃ content, writing.store.text word content
      | .ref id => ∃ key, writing.store.ref id word key := by
  obtain ⟨entry, hentry, slot, hslot, rfl⟩ := Scan.mem_pointers_iff.1 hpointer
  have hknown := h.known_entry hentry
  obtain ⟨place, hplace, rfl⟩ := List.mem_map.1 hentry
  have hheld := h.held place hplace
  obtain ⟨word, other, hword, -, hagree⟩ :=
    Store.agreeAt_of_allHeldAt writing.sound hknown hheld hheld hslot
  refine ⟨word, hword, ?_⟩
  cases hkind : slot.kind with
  | text =>
      rw [PointerSlot.shift, hkind] at hagree
      obtain ⟨content, hcontent, -⟩ := hagree
      simp only [PointerSlot.shift, hkind]
      exact ⟨content, hcontent⟩
  | ref id =>
      rw [PointerSlot.shift, hkind] at hagree
      obtain ⟨key, hkey, -⟩ := hagree
      simp only [PointerSlot.shift, hkind]
      exact ⟨key, hkey⟩

/-- The records and the texts stand behind the header. -/
theorem directoryEnd_pos (h : Packed arrangement writing) : 0 < arrangement.directoryEnd := by
  have hranges := h.placed.rangesEnd_le
  have hsize : 0 < Header.size := by decide
  simp only [Arrangement.rangesEnd, Arrangement.directoryEnd] at hranges ⊢
  omega

/-- A word that stands for a text is null, or the position of the text behind all records. -/
theorem text_cases (h : Packed arrangement writing) {word : Nat} {content : Option String}
    (hcontent : writing.store.text word content) :
    (word = 0 ∧ content = none) ∨ (word ≠ 0 ∧ arrangement.textAt ≤ word ∧
      word < writing.bytes.length ∧
      ∃ text, writing.bytes.readText word = .ok text ∧ content = some text) := by
  cases content with
  | none => exact Or.inl ⟨hcontent, rfl⟩
  | some text =>
      obtain ⟨hle, hread⟩ := h.readText hcontent.1 hcontent.2
      have hinside := Bytes.le_of_readText hread
      have hpositive := h.directoryEnd_pos
      have hend := h.placed.inOrder.le
      rw [textSize] at hinside
      exact Or.inr ⟨by omega, hle, by omega, text, hread, rfl⟩

/-- A word that stands for a record is null, or the position of the entry that has its new key. -/
theorem ref_cases (h : Packed arrangement writing) {id : TypeId} {word : Nat}
    {key : Option InstanceKey} (hkey : writing.store.ref id word key) :
    (word = 0 ∧ key = none) ∨ (word ≠ 0 ∧ ∃ entry ∈ arrangement.entries, entry.offset = word ∧
      entry.layout.id = id ∧ ∃ new, key = some new ∧
        (arrangement.found writing.bytes).key? word = some new) := by
  cases key with
  | none => exact Or.inl ⟨hkey, rfl⟩
  | some key =>
      obtain ⟨old, record, hposition, hrecord, htype, rfl⟩ := hkey
      obtain ⟨entry, hentry, rfl, hid, hnew⟩ := h.of_position? hposition hrecord
      have hstart : arrangement.directoryEnd ≤ entry.offset :=
        (h.placed.inOrder.within _ (List.mem_map_of_mem hentry)).1
      have hpositive := h.directoryEnd_pos
      exact Or.inr ⟨by omega, entry, hentry, rfl, hid.trans htype, _, rfl, hnew⟩

/-- **A packed image is accepted.** -/
theorem accepted (h : Packed arrangement writing) :
    Accepted writing.registry 0 writing.bytes (arrangement.found writing.bytes) := by
  refine ⟨h.framed, ?_, rfl⟩
  intro pointer hpointer
  obtain ⟨word, hword, hstands⟩ := h.stands hpointer
  refine ⟨word, hword, fun hne => ⟨word, ?_⟩⟩
  cases hkind : pointer.kind with
  | text =>
      rw [hkind] at hstands
      obtain ⟨content, hcontent⟩ := hstands
      obtain ⟨hzero, -⟩ | ⟨-, hle, hlt, text, hread, -⟩ := h.text_cases hcontent
      · exact absurd hzero hne
      refine ⟨offsetOf_eq_ok_iff.2 ⟨(Nat.zero_add _).symm, hlt⟩, ?_, text, hread⟩
      intro region hregion hcontains
      -- texts lie behind all fixed parts
      have hend := (h.inOrder_regions.within region hregion).2.2
      simp only [Span.Contains] at hcontains
      omega
  | ref id =>
      rw [hkind] at hstands
      obtain ⟨key, hkey⟩ := hstands
      obtain ⟨hzero, -⟩ | ⟨-, entry, hentry, hoffset, hid, -⟩ := h.ref_cases hkey
      · exact absurd hzero hne
      obtain ⟨position, hlayout⟩ := h.known_entry hentry
      have hpositive := (writing.sound position _ hlayout).2.size_pos
      have hinside := h.entry_inside hentry
      exact ⟨offsetOf_eq_ok_iff.2 ⟨(Nat.zero_add _).symm, by omega⟩, entry, hentry, hoffset, hid⟩

/-! ### The scene -/

/-- **What the words were written for is what they are read as.** -/
theorem allHeldAt_view (h : Packed arrangement writing) {layout : RecordLayout}
    (hknown : ∃ position, writing.registry.layout? position = some layout) {offset : Nat}
    {values : List Value}
    (hheld : Value.AllHeldAt writing.registry writing.store layout.fields offset values) :
    Value.AllHeldAt writing.registry
      (((arrangement.found writing.bytes).view writing.registry 0 writing.bytes).store
        (arrangement.found writing.bytes).key?) layout.fields offset values := by
  refine @Value.AllHeldAt.transfer _ writing.sound writing.store
    (((arrangement.found writing.bytes).view writing.registry 0 writing.bytes).store
      (arrangement.found writing.bytes).key?)
    (fun layout _ => ∃ position, writing.registry.layout? position = some layout) id
    (fun _ _ _ hinner => ⟨_, hinner⟩) (fun _ _ _ => rfl) ?_ ?_ layout offset hknown values hheld
  · intro layout offset field word content _ _ _ hword hcontent
    refine ⟨word, hword, View.textAt_eq_ok_iff.2 ?_⟩
    obtain ⟨hzero, hnone⟩ | ⟨hne, -, -, text, hread, hsome⟩ := h.text_cases hcontent
    · exact Or.inl ⟨hzero, hnone⟩
    · exact Or.inr ⟨hne, word, text, (Nat.zero_add _).symm, hread, hsome⟩
  · intro layout offset field target word key _ _ _ hword hkey
    refine ⟨word, hword, ?_⟩
    obtain ⟨hzero, rfl⟩ | ⟨hne, entry, hentry, rfl, hid, new, rfl, hnew⟩ := h.ref_cases hkey
    · exact ⟨none, View.recordAt_eq_ok_iff.2 (Or.inl ⟨hzero, rfl⟩), rfl⟩
    · obtain ⟨position, hlayout⟩ := h.known_entry hentry
      have hposition := (writing.sound position _ hlayout).1
      refine ⟨some ⟨_, entry.layout, entry.offset⟩, View.recordAt_eq_ok_iff.2 (Or.inr ⟨hne,
        entry.layout, entry.offset, ?_, (Nat.zero_add _).symm, h.entry_inside hentry,
        h.placed.aligned entry hentry, rfl⟩), congrArg some hnew⟩
      rw [← hid, hposition]
      exact hlayout

/-- **A packed image holds the scene in the order of the image.** -/
theorem toScene (h : Packed arrangement writing) :
    ((arrangement.found writing.bytes).view writing.registry 0 writing.bytes).toScene =
      .ok writing.scene.renumbered := by
  have hstored : arrangement.places.map Prod.fst = writing.scene.stored writing.registry := by
    rw [Arrangement.places, List.map_fst_zip (Nat.le_of_eq h.placed.length_positions.symm),
      h.placed.stored_eq]
  rw [h.framed.toScene_eq_ok_iff writing.sound, Scene.renumbered_eq writing.sound h.known,
    ← hstored, List.map_map]
  refine List.forall₂_map_left_iff.2 (List.forall₂_map_right_iff.2 (List.forall₂_same.2 ?_))
  intro place hplace
  have hmem := Arrangement.mem_stored_of_mem_places hplace
  rw [h.placed.stored_eq] at hmem
  obtain ⟨hlayout, hid, -⟩ := Scene.of_mem_stored writing.sound hmem
  exact ⟨hid.symm, h.allHeldAt_view ⟨_, hlayout⟩ (h.held place hplace)⟩

/-- **No text runs into a word that a relocation changes.** -/
theorem textsClear (h : Packed arrangement writing) :
    ((arrangement.found writing.bytes).view writing.registry 0 writing.bytes).TextsClear := by
  rintro start text ⟨position, hposition, hne, hword, -⟩ slot hslot
  rw [h.accepted.slots_eq_view] at hslot
  obtain ⟨region, hregion, hholds⟩ :=
    h.accepted.exists_region writing.sound (h.accepted.slots_sublist.subset hslot)
  obtain ⟨word, hread, content, hcontent⟩ :=
    h.stands ((h.accepted.pointerAt_iff writing.sound).1 hposition)
  have heq : word = 0 + start :=
    Option.some_inj.1 ((Bytes.readSlot_eq_ok_iff.1 hread).symm.trans hword)
  rw [Nat.zero_add] at heq
  obtain ⟨hzero, -⟩ | ⟨-, hle, -⟩ := h.text_cases hcontent
  · rw [Scan.view, Nat.zero_add] at hne
    exact absurd (heq.symm.trans hzero) hne
  · have hend := (h.inOrder_regions.within region hregion).2.2
    have hstop := hholds.2
    omega

end Packed

end ScenePack
