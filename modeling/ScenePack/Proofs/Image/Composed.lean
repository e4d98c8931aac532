/-
**What an image is composed of.**

An image is its header, its range table, its directory, its records and its texts, one after the
other and with nothing in between.  This is described here from the scene alone: which ranges and
records there are and in what order, what stands at every leaf of a record, which texts follow, and
that all other bytes are zero.  Packing a scene composes such an image, of the sizes that were
measured.

Main definitions:

* `ImageSizes.rangesAt`, …, `ImageSizes.textAt` — where the parts of the measured sizes start;
* `Scene.leaves` — the leaves of its records, where the records are listed;
* `Scene.Composed` — the bytes of an image, part by part.

Main results:

* `Scene.Composed.readText` — every text that is kept is read at its position;
* `Scene.mem_ranges_iff` — the range table counts the records of each type that occurs, by 32-bit
  numbers;
* `Scene.readSlot_textsAt` — every text leaf holds the position of its text;
* `Scene.composed_of_pack` — **a packed image is composed as documented**.
-/

import ScenePack.Proofs.Image.Completed
import ScenePack.Proofs.Image.Outlined
import ScenePack.Proofs.Image.RoundTrip

set_option relaxedAutoImplicit false
set_option autoImplicit false

namespace ScenePack

/-! ### Where the parts start -/

namespace ImageSizes

/-- The range table starts behind the header. -/
def rangesAt (sizes : ImageSizes) : Nat := sizes.header

/-- The directory starts behind the range table. -/
def directoryAt (sizes : ImageSizes) : Nat := sizes.rangesAt + sizes.ranges

/-- The records start behind the directory. -/
def recordsAt (sizes : ImageSizes) : Nat := sizes.directoryAt + sizes.directory

/-- The texts start behind the records. -/
def textAt (sizes : ImageSizes) : Nat := sizes.recordsAt + sizes.records

/-- The parts without gaps: the header, the range table, the directory and the texts. -/
def filled (sizes : ImageSizes) : List Span :=
  [⟨0, sizes.rangesAt⟩, ⟨sizes.rangesAt, sizes.directoryAt⟩, ⟨sizes.directoryAt, sizes.recordsAt⟩,
    ⟨sizes.textAt, sizes.total⟩]

/-- What is not in a part without gaps lies among the records. -/
theorem among_records {sizes : ImageSizes} {i : Nat} (hi : i < sizes.total)
    (hfilled : ∀ part ∈ sizes.filled, ¬part.Contains i) :
    sizes.recordsAt ≤ i ∧ i < sizes.textAt := by
  simp only [filled, List.forall_mem_cons, Span.Contains] at hfilled
  omega

end ImageSizes

/-! ### What an image is made from -/

namespace Scene

/-- The place of a text among those that an image keeps, by its place among all texts. -/
def textPlace (scene : Scene) (config : PackConfig) (index : Nat) (text : String) : Nat :=
  if config.shareTexts then (scene.keptTexts config).idxOf text else index

/-- The leaves of the records of a scene in the stable order by type, where `entries` lists their
positions. -/
def leaves (registry : Registry) (scene : Scene) (entries : List Entry) : List Leaf :=
  (entries.zip scene.order).flatMap fun place =>
    Value.allLeaves registry place.1.layout.fields place.1.offset place.2.1.values

/-- **The bytes of an image, part by part.**  The parts have the given sizes and follow each other,
`ranges` is the range table, and `entries` are the records with their positions. -/
structure Composed (registry : Registry) (config : PackConfig) (scene : Scene) (sizes : ImageSizes)
    (ranges : List Range) (entries : List Entry) (bytes : Bytes) : Prop where
  /-- The parts are all of the image, and none is larger than what it holds. -/
  length_eq : bytes.length = sizes.total
  header_eq : sizes.header = Header.size
  ranges_eq : sizes.ranges = ranges.length * Range.size
  directory_eq : sizes.directory = scene.length * Address.width
  records_end : sizes.textAt = match entries.getLast? with
    | some entry => entry.offset + entry.layout.size
    | none => sizes.recordsAt
  text_eq : sizes.text = textsSize (scene.keptTexts config)
  /-- The header leads to the tables. -/
  header : bytes.readHeader =
    .ok ⟨sizes.directoryAt, scene.length, sizes.rangesAt, ranges.length⟩
  /-- The ranges count the records of each type that occurs, in the order of the types. -/
  ranges_ordered : ranges.Pairwise fun a b => a.typeId < b.typeId
  mem_ranges_iff : ∀ range, range ∈ ranges ↔ 0 < range.count ∧
    range.count = (scene.filter fun record => record.typeId = range.typeId).length
  range : ∀ index range, ranges[index]? = some range →
    bytes.readRange (sizes.rangesAt + index * Range.size) = .ok range
  /-- The directory lists the records in the stable order by type. -/
  listed : List.Forall₂
    (fun entry place => registry.layout? place.1.typeId = some entry.layout) entries scene.order
  directory : ∀ index entry, entries[index]? = some entry →
    bytes.readSlot (sizes.directoryAt + index * Address.width) = .ok entry.offset
  /-- The records are aligned and follow each other without an overlap. -/
  aligned : ∀ entry ∈ entries, entry.offset % entry.layout.align = 0
  ascending : entries.Pairwise fun a b => a.offset < b.offset
  inOrder : Span.InOrder sizes.recordsAt (entries.map Entry.span) sizes.textAt
  /-- Numbers, null words and positions of records stand at their leaves. -/
  stands : ∀ leaf ∈ scene.leaves registry entries,
    leaf.Stands (fun key => (entries[scene.newKey key]?).map Entry.offset) bytes
  /-- The texts of the leaves are those of the scene, and their words lead to them. -/
  texts_leaves : (Leaf.textsAt (scene.leaves registry entries)).map Prod.snd = scene.texts
  word : ∀ index place, (Leaf.textsAt (scene.leaves registry entries))[index]? = some place →
    bytes.readSlot place.1 = .ok (sizes.textAt + textsSize ((scene.keptTexts config).take
      (scene.textPlace config index place.2)))
  shared : config.shareTexts = true → ∀ a ∈ Leaf.textsAt (scene.leaves registry entries),
    ∀ b ∈ Leaf.textsAt (scene.leaves registry entries),
      (bytes.readSlot a.1 = bytes.readSlot b.1 ↔ a.2 = b.2)
  /-- The texts that are kept stand at the end, each with a zero behind it. -/
  text : bytes.drop sizes.textAt =
    (scene.keptTexts config).flatMap fun text => Utf8.encode text ++ [0]
  zeroFree : ∀ text ∈ scene.texts, 0 ∉ Utf8.encode text
  /-- All other bytes are zero. -/
  zero : ∀ i < bytes.length, (∀ part ∈ sizes.filled, ¬part.Contains i) →
    (∀ leaf ∈ scene.leaves registry entries, ¬leaf.span.Contains i) → bytes[i]? = some 0

end Scene

namespace Scene.Composed

variable {registry : Registry} {config : PackConfig} {scene : Scene} {sizes : ImageSizes}
  {ranges : List Range} {entries : List Entry} {bytes : Bytes}

/-- The image ends with its texts. -/
theorem length_eq_text (h : scene.Composed registry config sizes ranges entries bytes) :
    bytes.length = sizes.textAt + textsSize (scene.keptTexts config) := by
  rw [h.length_eq, ← h.text_eq]
  rfl

/-- **Every text that is kept is read** at its position. -/
theorem readText (h : scene.Composed registry config sizes ranges entries bytes) {index : Nat}
    {text : String} (htext : (scene.keptTexts config)[index]? = some text) :
    bytes.readText (sizes.textAt + textsSize ((scene.keptTexts config).take index)) =
      .ok text := by
  have hmem : text ∈ scene.texts := by
    have hkept := List.mem_of_getElem? htext
    rw [keptTexts] at hkept
    split at hkept
    · exact List.mem_eraseDups.1 hkept
    · exact hkept
  let pool : TextPool := ⟨sizes.textAt, config.shareTexts, scene.keptTexts config⟩
  obtain ⟨front, rest, hbytes, hposition⟩ :=
    (show pool.Holds text (pool.position index) from ⟨index, htext, rfl⟩).bytes_eq
  refine Bytes.readText_eq_ok_iff.2 ⟨h.zeroFree text hmem, rest, ?_⟩
  have hstart : sizes.textAt + textsSize ((scene.keptTexts config).take index) =
      sizes.textAt + front.length := hposition
  have hpool : bytes.drop sizes.textAt = front ++ (Utf8.encode text ++ 0 :: rest) :=
    h.text.trans hbytes
  rw [hstart, ← List.drop_drop, hpool, List.drop_left]

end Scene.Composed

/-! ### Ranges -/

namespace Scene

variable {registry : Registry} {scene : Scene}

theorem pairwise_ranges (hsound : registry.Sound) (scene : Scene) :
    (scene.ranges registry).Pairwise fun a b => a.typeId < b.typeId := by
  refine List.pairwise_filterMap.2 ((pairwise_types hsound).imp fun hab a ha b hb => ?_)
  dsimp only at ha hb
  split at ha
  · cases ha
  · split at hb
    · cases hb
    · cases ha
      cases hb
      exact hab

/-- **The range table counts the records of each type that occurs**, by 32-bit numbers. -/
theorem mem_ranges_iff (hsound : registry.Sound)
    (hknown : ∀ record ∈ scene, ∃ layout, registry.layout? record.typeId = some layout)
    (range : Range) :
    range ∈ scene.ranges registry ↔
      0 < (scene.filter fun record => record.typeId = range.typeId).length ∧
        range.count = (scene.filter fun record => record.typeId = range.typeId).length %
          Range.countLimit := by
  rw [ranges, List.mem_filterMap]
  constructor
  · rintro ⟨layout, -, hrange⟩
    dsimp only at hrange
    split at hrange
    · cases hrange
    · next hcount =>
        cases hrange
        rw [length_storedOf] at hcount
        dsimp only
        rw [length_storedOf]
        exact ⟨Nat.pos_of_ne_zero hcount, rfl⟩
  · rintro ⟨hpositive, hcount⟩
    obtain ⟨record, hrecord⟩ := List.exists_mem_of_length_pos hpositive
    obtain ⟨hmem, htype⟩ := List.mem_filter.1 hrecord
    obtain ⟨layout, hlayout⟩ := hknown record hmem
    have hid : layout.id = range.typeId :=
      (hsound _ layout hlayout).1.trans (of_decide_eq_true htype)
    refine ⟨layout, Registry.mem_types_of_layout? hlayout, ?_⟩
    dsimp only
    rw [length_storedOf, hid, ← hcount, if_neg (Nat.ne_of_gt hpositive)]

end Scene

/-! ### Records -/

/-- The end of records that are placed one after the other is that of the last one. -/
theorem endOf_eq (stored : List StoredRecord) (start : Nat) :
    endOf start (stored.map StoredRecord.layout) =
      match ((stored.zip (positions start (stored.map StoredRecord.layout))).map
        StoredRecord.entryAt).getLast? with
      | some entry => entry.offset + entry.layout.size
      | none => start := by
  induction stored generalizing start with
  | nil => rfl
  | cons entry rest ih =>
      have hnext := ih (alignUp entry.layout.align start + entry.layout.size)
      rw [List.map_cons, positions, List.zip_cons_cons, List.map_cons, List.getLast?_cons]
      refine Eq.trans (b := endOf (alignUp entry.layout.align start + entry.layout.size)
        (rest.map StoredRecord.layout)) rfl ?_
      rw [hnext]
      split
      · next last hlast => rw [hlast]; rfl
      · next hnone => rw [hnone]; rfl

namespace Arrangement.Placed

variable {registry : Registry} {scene : Scene} {arrangement : Arrangement}

/-- The stored records in the order of the scene, with their keys. -/
theorem order_eq (h : arrangement.Placed registry scene) (hsound : registry.Sound)
    (hknown : ∀ record ∈ scene, ∃ layout, registry.layout? record.typeId = some layout) :
    scene.order = arrangement.places.map fun place => (place.1.record, place.1.key) := by
  have hstored : arrangement.places.map Prod.fst = scene.stored registry := by
    rw [Arrangement.places, List.map_fst_zip (Nat.le_of_eq h.length_positions.symm), h.stored_eq]
  rw [← Scene.stored_eq_order hsound hknown, ← hstored, List.map_map]
  rfl

theorem leaves_eq (h : arrangement.Placed registry scene) (hsound : registry.Sound)
    (hknown : ∀ record ∈ scene, ∃ layout, registry.layout? record.typeId = some layout) :
    scene.leaves registry arrangement.entries = arrangement.leaves registry := by
  rw [Scene.leaves, h.order_eq hsound hknown, Arrangement.entries, List.zip_map', List.flatMap_map]
  rfl

/-- The entries have the layouts of the records that they belong to. -/
theorem listed (h : arrangement.Placed registry scene) (hsound : registry.Sound)
    (hknown : ∀ record ∈ scene, ∃ layout, registry.layout? record.typeId = some layout) :
    List.Forall₂ (fun entry place => registry.layout? place.1.typeId = some entry.layout)
      arrangement.entries scene.order := by
  rw [h.order_eq hsound hknown]
  refine List.forall₂_map_left_iff.2 (List.forall₂_map_right_iff.2 (List.forall₂_same.2 ?_))
  intro place hplace
  have hstored := Arrangement.mem_stored_of_mem_places hplace
  rw [h.stored_eq] at hstored
  exact (Scene.of_mem_stored hsound hstored).1

/-- The position of a key is that of the entry at its new key. -/
theorem offset_of_position? (h : arrangement.Placed registry scene) (hsound : registry.Sound)
    (hknown : ∀ record ∈ scene, ∃ layout, registry.layout? record.typeId = some layout)
    {key : InstanceKey} {position : Nat} (hposition : arrangement.position? key = some position) :
    (arrangement.entries[scene.newKey key]?).map Entry.offset = some position := by
  obtain ⟨index, entry, hentry, rfl, hindex⟩ := Arrangement.exists_of_position? hposition
  have hfound := Arrangement.getElem?_entries hentry hindex
  rw [h.stored_eq] at hentry
  rw [Scene.newKey_of_stored hsound hknown hentry, hfound]
  rfl

end Arrangement.Placed

/-- What stands at a leaf depends on the positions of records only. -/
theorem Leaf.Stands.imp {first second : InstanceKey → Option Nat} {bytes : Bytes} {leaf : Leaf}
    (h : leaf.Stands first bytes)
    (hsame : ∀ key target, first key = some target → second key = some target) :
    leaf.Stands second bytes := by
  obtain ⟨position, value⟩ := leaf
  cases value with
  | scalar number => exact h
  | text content => cases content <;> exact h
  | component typeId values => exact h
  | ref key =>
      cases key with
      | none => exact h
      | some key =>
          obtain ⟨target, htarget, hslice⟩ := h
          exact ⟨target, hsame key target htarget, hslice⟩

/-! ### Texts -/

namespace Value

variable {registry : Registry} {scene : Scene}

mutual

/-- No text of a value that can be stored holds a zero byte. -/
theorem Storable.zeroFree {kind : FieldKind Target} (value : Value)
    (h : value.Storable registry scene kind) : ∀ text ∈ value.texts, 0 ∉ Utf8.encode text := by
  cases value with
  | scalar number => exact fun _ h => absurd h List.not_mem_nil
  | text content =>
      obtain rfl : kind = .text := by
        cases kind <;> simp_all [Storable]
      cases content with
      | none => exact fun _ h => absurd h List.not_mem_nil
      | some text => exact List.forall_mem_singleton.2 (h text rfl)
  | component typeId values =>
      obtain ⟨target, rfl⟩ : ∃ target : Target, kind = .component target := by
        cases kind <;> simp_all [Storable]
      obtain ⟨-, layout, -, hvalues⟩ := h
      rw [texts]
      exact AllStorable.zeroFree values hvalues
  | ref key => exact fun _ h => absurd h List.not_mem_nil

theorem AllStorable.zeroFree {fields : List FieldLayout} (values : List Value)
    (h : AllStorable registry scene fields values) :
    ∀ text ∈ allTexts values, 0 ∉ Utf8.encode text := by
  cases values with
  | nil => exact fun _ h => absurd h List.not_mem_nil
  | cons value values =>
      cases fields with
      | nil => exact h.elim
      | cons field fields =>
          rw [AllStorable] at h
          rw [allTexts]
          exact List.forall_mem_append.2
            ⟨Storable.zeroFree value h.1, AllStorable.zeroFree values h.2⟩

end

end Value

theorem Scene.zeroFree_texts {registry : Registry} {scene : Scene}
    (h : ∀ record ∈ scene, record.Storable registry scene) :
    ∀ text ∈ scene.texts, 0 ∉ Utf8.encode text := by
  intro text htext
  obtain ⟨place, hplace, htext⟩ := List.mem_flatMap.1 htext
  have hmem := List.fst_mem_of_mem_zipIdx (scene.order_perm.mem_iff.1 hplace)
  obtain ⟨layout, -, hvalues⟩ := h place.1 hmem
  exact Value.AllStorable.zeroFree _ hvalues text htext

/-- Each text takes room, so no two texts start at the same position. -/
theorem textsSize_take_lt {texts : List String} {first second : Nat} (hlt : first < second)
    (hle : second ≤ texts.length) :
    textsSize (texts.take first) < textsSize (texts.take second) := by
  induction texts generalizing first second with
  | nil =>
      rw [List.length_nil] at hle
      omega
  | cons text rest ih =>
      rw [List.length_cons] at hle
      cases second with
      | zero => omega
      | succ second =>
          rw [List.take_succ_cons, textsSize]
          cases first with
          | zero =>
              rw [List.take_zero, textsSize, textSize]
              omega
          | succ first =>
              rw [List.take_succ_cons, textsSize]
              exact Nat.add_lt_add_left (ih (by omega) (by omega)) _

namespace Scene

variable {registry : Registry} {config : PackConfig} {scene : Scene}

theorem map_textsAt_leaves (hsound : registry.Sound) (hformed : scene.Formed registry) :
    (Leaf.textsAt ((scene.arrange registry config).leaves registry)).map Prod.snd =
      scene.texts := by
  have hknown : ∀ record ∈ scene, ∃ layout, registry.layout? record.typeId = some layout :=
    fun record hrecord => ⟨_, (hformed record hrecord).choose_spec.1⟩
  have hplaced := scene.placed hsound config
  have hplaces : ∀ place ∈ (scene.arrange registry config).places,
      (Leaf.textsAt (Value.allLeaves registry place.1.layout.fields place.2
        place.1.record.values)).map Prod.snd = Value.allTexts place.1.record.values := by
    intro place hplace
    have hstored := Arrangement.mem_stored_of_mem_places hplace
    obtain ⟨hlayout, -, hrecord⟩ := of_mem_stored hsound hstored
    obtain ⟨layout, hother, hvalues⟩ := hformed _ (List.mem_of_getElem? hrecord)
    cases hother.symm.trans hlayout
    exact Value.textsAt_allLeaves _ hvalues
  rw [texts, hplaced.order_eq hsound hknown, List.flatMap_map, Arrangement.leaves]
  simp only [Leaf.textsAt] at hplaces ⊢
  rw [List.filterMap_flatMap, List.map_flatMap]
  exact List.flatMap_congr hplaces

/-- A packed image of a well-formed scene is what was written up to the texts, and the texts. -/
theorem parts_of_pack (hsound : registry.Sound) (hformed : scene.Formed registry) {bytes : Bytes}
    (hpack : scene.pack registry config = .ok bytes) :
    ∃ out pool, scene.write registry config = .ok (out, pool) ∧
      bytes = out.padTo (scene.arrange registry config).textAt ++ pool.bytes ∧
      (out.padTo (scene.arrange registry config).textAt).length =
        (scene.arrange registry config).textAt := by
  have hlength := length_of_pack hsound hpack
  obtain ⟨hcheck, out, pool, hwrite, hbytes⟩ := pack_eq_ok_iff.1 hpack
  have hout := (wroteRecords_of_write hsound (storable_of_check hformed hcheck) hwrite []).length_le
  have hpadded : (out.padTo (scene.arrange registry config).textAt).length =
      (scene.arrange registry config).textAt := by
    rw [Bytes.length_padTo]
    exact Nat.max_eq_left hout
  have htext := length_bytes_of_write hsound hformed hwrite
  have htotal := total_sizes hsound config scene
  refine ⟨out, pool, hwrite, ?_, hpadded⟩
  -- what is written has the measured size, so nothing is filled up
  rw [hbytes, Bytes.padTo, Nat.sub_eq_zero_of_le, List.replicate_zero, List.append_nil]
  rw [List.length_append, hpadded, htext, htotal]

/-- **Every text leaf holds the position of its text.** -/
theorem readSlot_textsAt (hsound : registry.Sound) (hformed : scene.Formed registry)
    {bytes out : Bytes} {pool : TextPool} (hwrite : scene.write registry config = .ok (out, pool))
    (houtlined : Outlined (scene.arrange registry config).position? bytes
      (scene.arrange registry config).directoryEnd (scene.arrange registry config).textAt
      ((scene.arrange registry config).leaves registry)
      ⟨(scene.arrange registry config).textAt, config.shareTexts, []⟩ pool)
    (hspace : (scene.arrange registry config).textAt + pool.bytes.length < Address.space)
    {index : Nat} {place : Nat × String}
    (hplace : (Leaf.textsAt ((scene.arrange registry config).leaves registry))[index]? =
      some place) :
    bytes.readSlot place.1 = .ok ((scene.arrange registry config).textAt +
      textsSize ((scene.keptTexts config).take (scene.textPlace config index place.2))) := by
  have hknown : ∀ record ∈ scene, ∃ layout, registry.layout? record.typeId = some layout :=
    fun record hrecord => ⟨_, (hformed record hrecord).choose_spec.1⟩
  have htexts : pool.texts = scene.keptTexts config := by
    rw [texts_of_write hsound hformed hwrite, storedTexts_eq hsound hknown]
  have hstart : pool.start = (scene.arrange registry config).textAt := by
    rw [houtlined.next_eq]
    exact (TextPool.grows_internAll _ _).start_eq
  have hshared : pool.shared = config.shareTexts := by
    rw [houtlined.next_eq, TextPool.shared_internAll]
  have hword := houtlined.word hplace
  have hposition : pool.position (pool.place (([] : List String).length + index) place.2) =
      (scene.arrange registry config).textAt +
        textsSize ((scene.keptTexts config).take (scene.textPlace config index place.2)) := by
    rw [TextPool.position, TextPool.place, hstart, hshared, htexts, textPlace, List.length_nil,
      Nat.zero_add]
  dsimp only at hword
  rw [hposition] at hword
  refine Bytes.readSlot_of_slice? ?_ ((congrArg _ (length_pointer _)).trans hword)
  have hle : textsSize ((scene.keptTexts config).take (scene.textPlace config index place.2)) ≤
      pool.bytes.length := by
    rw [TextPool.length_bytes, htexts]
    exact textsSize_le_of_sublist (List.take_sublist _ _)
  omega

/-- The measured parts start where the arrangement has them: the directory directly behind the
range table, which ends at a multiple of the width of a word. -/
theorem parts_of_sizes (hsound : registry.Sound) (config : PackConfig) (scene : Scene) :
    (scene.arrange registry config).sizes.directoryAt =
        (scene.arrange registry config).directoryAt ∧
      (scene.arrange registry config).sizes.recordsAt =
        (scene.arrange registry config).directoryEnd ∧
      (scene.arrange registry config).sizes.textAt = (scene.arrange registry config).textAt := by
  have hplaced := scene.placed hsound config
  have hrecords := hplaced.inOrder.le
  have hdirectory : (scene.arrange registry config).directoryAt =
      Header.size + (scene.ranges registry).length * Range.size := by
    simp only [arrange, alignUp, Header.size, Range.size, Range.numberWidth, Address.width]
    omega
  simp only [Arrangement.directoryEnd] at hrecords ⊢
  simp only [ImageSizes.textAt, ImageSizes.recordsAt, ImageSizes.directoryAt, ImageSizes.rangesAt]
  have hsizes : (scene.arrange registry config).sizes =
      { header := Header.size
        ranges := (scene.ranges registry).length * Range.size
        directory := (scene.arrange registry config).directoryEnd -
          (Header.size + (scene.ranges registry).length * Range.size)
        records := (scene.arrange registry config).textAt -
          (scene.arrange registry config).directoryEnd
        text := textsSize (scene.storedTexts registry config) } := rfl
  rw [hsizes]
  simp only [Arrangement.directoryEnd]
  omega

/-- With sharing, two kept texts have the same place only if they are equal. -/
theorem eq_of_textPlace {index other : Nat} {text second : String}
    (hshared : config.shareTexts = true) (htext : text ∈ scene.texts)
    (hsecond : second ∈ scene.texts)
    (h : textsSize ((scene.keptTexts config).take (scene.textPlace config index text)) =
      textsSize ((scene.keptTexts config).take (scene.textPlace config other second))) :
    text = second := by
  rw [textPlace, textPlace, if_pos hshared, if_pos hshared] at h
  have hkept : ∀ text ∈ scene.texts, text ∈ scene.keptTexts config := by
    intro text htext
    rw [keptTexts, if_pos hshared]
    exact List.mem_eraseDups.2 htext
  have hfirst := List.idxOf_lt_length_of_mem (hkept text htext)
  have hlast := List.idxOf_lt_length_of_mem (hkept second hsecond)
  refine (List.idxOf_inj (hkept text htext)).1 ?_
  rcases Nat.lt_trichotomy ((scene.keptTexts config).idxOf text)
    ((scene.keptTexts config).idxOf second) with hlt | heq | hgt
  · exact absurd h (Nat.ne_of_lt (textsSize_take_lt hlt (Nat.le_of_lt hlast)))
  · exact heq
  · exact absurd h.symm (Nat.ne_of_lt (textsSize_take_lt hgt (Nat.le_of_lt hfirst)))

/-! ### Packed images -/

/-- A packed image is composed in the arrangement of its scene. -/
theorem composed_arrange (hsound : registry.Sound) (hformed : scene.Formed registry)
    (hids : ∀ record ∈ scene, record.typeId < Range.countLimit)
    (hcounts : ∀ id, (scene.filter fun record => record.typeId = id).length < Range.countLimit)
    {bytes : Bytes} (hpack : scene.pack registry config = .ok bytes)
    (hspace : bytes.length < Address.space) :
    scene.Composed registry config (scene.arrange registry config).sizes
      (scene.arrange registry config).ranges (scene.arrange registry config).entries bytes := by
  have hknown : ∀ record ∈ scene, ∃ layout, registry.layout? record.typeId = some layout :=
    fun record hrecord => ⟨_, (hformed record hrecord).choose_spec.1⟩
  have hcheck := (pack_eq_ok_iff.1 hpack).1
  have hplaced := scene.placed hsound config
  obtain ⟨hdirectoryAt, hrecordsAt, htextAt⟩ := parts_of_sizes hsound config scene
  obtain ⟨out, pool, hwrite, hbytes, hpadded⟩ := parts_of_pack hsound hformed hpack
  have hleaves := hplaced.leaves_eq hsound hknown
  have htexts : pool.texts = scene.keptTexts config := by
    rw [texts_of_write hsound hformed hwrite, storedTexts_eq hsound hknown]
  have hlength : bytes.length = (scene.arrange registry config).textAt + pool.bytes.length := by
    rw [hbytes, List.length_append, hpadded]
  have houtlined := outlined_of_write hsound (storable_of_check hformed hcheck) hwrite
    (hbytes.trans (Bytes.padTo_zero _).symm)
  have hword := @readSlot_textsAt _ _ _ hsound hformed _ _ _ hwrite houtlined (hlength ▸ hspace)
  have hmap : (Leaf.textsAt ((scene.arrange registry config).leaves registry)).map Prod.snd =
      scene.texts := map_textsAt_leaves hsound hformed
  obtain ⟨writing, rfl, rfl, rfl, hpacked⟩ :=
    exists_packed hsound hformed hids hcounts hpack hspace
  have hmem : ∀ place ∈ Leaf.textsAt ((writing.scene.arrange writing.registry config).leaves
      writing.registry), place.2 ∈ writing.scene.texts := fun place hplace =>
    hmap ▸ List.mem_map_of_mem hplace
  exact
    { length_eq := length_of_pack hsound hpack
      header_eq := rfl
      ranges_eq := rfl
      directory_eq := by
        have hrecords := hrecordsAt
        rw [ImageSizes.recordsAt, hdirectoryAt, Arrangement.directoryEnd, hplaced.stored_eq,
          length_stored hsound hknown] at hrecords
        exact Nat.add_left_cancel hrecords
      records_end := by
        rw [htextAt, hrecordsAt]
        exact endOf_eq _ _
      text_eq := congrArg textsSize (storedTexts_eq hsound hknown)
      header := by
        rw [hdirectoryAt, ← length_stored hsound hknown]
        exact Arrangement.Placed.readHeader hpacked.header_fits hpacked.front
      ranges_ordered := pairwise_ranges hsound _
      mem_ranges_iff := by
        intro range
        refine (mem_ranges_iff hsound hknown range).trans ?_
        rw [Nat.mod_eq_of_lt (hcounts _)]
        exact and_congr_left fun hcount => by rw [hcount]
      range := by
        intro index range hrange
        have hindex := List.getElem?_range (List.getElem?_eq_some_iff.1 hrange).1
        obtain ⟨_, hfound, hread⟩ := exists_getElem?_of_forall₂ hpacked.readRanges hindex
        obtain rfl := Option.some_inj.1 (hfound.symm.trans hrange)
        exact hread
      listed := hplaced.listed hsound hknown
      directory := by
        intro index entry hentry
        rw [hdirectoryAt]
        have hinside := hpacked.entry_inside (List.mem_of_getElem? hentry)
        refine hplaced.readSlot hpacked.front ?_ (by omega)
        rw [← hpacked.offsets_eq, List.getElem?_map, hentry]
        rfl
      aligned := hplaced.aligned
      ascending := hpacked.ascending
      inOrder := by
        rw [hrecordsAt, htextAt]
        exact hplaced.inOrder
      stands := by
        rw [hleaves]
        exact fun leaf hleaf => (houtlined.stands leaf hleaf).imp fun key target htarget =>
          hplaced.offset_of_position? hsound hknown htarget
      texts_leaves := by rw [hleaves, hmap]
      word := by
        rw [hleaves, htextAt]
        exact fun index place hplace => hword hplace
      shared := by
        rw [hleaves]
        intro hshared a ha b hb
        obtain ⟨index, hindex⟩ := List.mem_iff_getElem?.1 ha
        obtain ⟨other, hother⟩ := List.mem_iff_getElem?.1 hb
        rw [hword hindex, hword hother, Except.ok.injEq, Nat.add_left_cancel_iff]
        constructor
        · exact eq_of_textPlace hshared (hmem a ha) (hmem b hb)
        · intro heq
          rw [textPlace, textPlace, if_pos hshared, if_pos hshared, heq]
      text := by
        rw [htextAt, hbytes, List.drop_left' hpadded, TextPool.bytes, htexts]
      zeroFree := zeroFree_texts (storable_of_check hformed hcheck)
      zero := by
        rw [hleaves]
        intro i hi hfilled hapart
        obtain ⟨hstart, hstop⟩ :=
          ImageSizes.among_records (length_of_pack hsound hpack ▸ hi) hfilled
        exact houtlined.zero i (hrecordsAt ▸ hstart) (htextAt ▸ hstop) hapart }

/-- **A packed image is composed as documented**, of the sizes that were measured.  The registry is
exact, the scene is well formed, type ids and the count of records of each type are 32-bit numbers,
and the image fits the address space. -/
theorem composed_of_pack {registry : Registry} (hexact : registry.Exact) {config : PackConfig}
    {scene : Scene} (hformed : scene.Formed registry)
    (hids : ∀ record ∈ scene, record.typeId < Range.countLimit)
    (hcounts : ∀ id, (scene.filter fun record => record.typeId = id).length < Range.countLimit)
    {bytes : Bytes} (hpack : scene.pack registry config = .ok bytes)
    (hspace : bytes.length < Address.space) :
    ∃ sizes ranges entries, scene.measure registry config = .ok sizes ∧
      scene.Composed registry config sizes ranges entries bytes := by
  refine ⟨_, _, _, ?_, composed_arrange hexact.sound hformed hids hcounts hpack hspace⟩
  rw [measure, (pack_eq_ok_iff.1 hpack).1]
  rfl

/-- The image of the sample has 130 bytes: the tags share a text, which takes the last two. -/
theorem composed_of_pack_sample :
    Sample.registry.Exact ∧ Sample.scene.Formed Sample.registry ∧
      Sample.scene.pack Sample.registry ⟨true⟩ = .ok Sample.packed ∧
      ∃ ranges entries, Sample.scene.Composed Sample.registry ⟨true⟩ ⟨32, 16, 16, 64, 2⟩ ranges
        entries Sample.packed := by
  obtain ⟨sizes, ranges, entries, hmeasure, hcomposed⟩ := composed_of_pack Sample.exact
    Sample.scene_formed Sample.typeId_lt Sample.count_lt Sample.pack_scene Sample.packed_lt
  have hsizes : Sample.scene.measure Sample.registry ⟨true⟩ = .ok ⟨32, 16, 16, 64, 2⟩ := by cbv
  cases hsizes.symm.trans hmeasure
  exact ⟨Sample.exact, Sample.scene_formed, Sample.pack_scene, ranges, entries, hcomposed⟩

end Scene

end ScenePack
