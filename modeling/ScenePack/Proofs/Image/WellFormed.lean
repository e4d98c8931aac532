/-
**Well-formed images.**

What it takes for an image to be accepted can be said about its bytes alone: which words lead where,
which parts lie inside and apart, and what the pointers of its records point at.  Here the bytes are
spelled out first, as if everything were in place, and then judged; a scan does both at once.

Main definitions:

* `Bytes.number` — the number at a position, whether or not it lies inside;
* `Bytes.HoldsText` — a text with its final zero at a position;
* `Outline`, `Outline.ofBytes` — the fixed parts of an image as its bytes spell them;
* `PointsInto`, `Outline.Points` — where a word leads;
* `Outline.InPlace`, `Outline.WellFormed` — the images in which everything is in place.

Main results:

* `Outline.framed_iff` — the fixed parts that a scan finds are those that the bytes spell;
* `Outline.InPlace.leads_iff` — the pointers are checked exactly if they point at what they should;
* `exists_view_iff_wellFormed` — **an image has a view exactly if it is well formed**.
-/

import ScenePack.Proofs.Image.Stored

set_option relaxedAutoImplicit false
set_option autoImplicit false

namespace ScenePack

/-! ### Numbers and texts at positions -/

namespace Bytes

variable {bytes : Bytes} {width position value : Nat}

/-- The number of `width` bytes at a position.  Bytes behind the end are missing from it. -/
def number (width : Nat) (bytes : Bytes) (position : Nat) : Nat :=
  Word.decode ((bytes.drop position).take width)

/-- A text at a position: its bytes, none of them zero, and a final zero. -/
def HoldsText (bytes : Bytes) (position : Nat) : Prop :=
  ∃ (text : String) (rest : Bytes),
    0 ∉ Utf8.encode text ∧ bytes.drop position = Utf8.encode text ++ 0 :: rest

theorem word?_eq_some_iff :
    bytes.word? width position = some value ↔
      position + width ≤ bytes.length ∧ bytes.number width position = value := by
  rw [word?, slice?]
  split
  · next hinside => simp [hinside, number]
  · next houtside => simp [houtside]

theorem readSlot_eq_ok_iff_number :
    bytes.readSlot position = .ok value ↔
      position + Address.width ≤ bytes.length ∧ bytes.number Address.width position = value := by
  rw [readSlot_eq_ok_iff, word?_eq_some_iff]

theorem exists_readText_iff : (∃ text, bytes.readText position = .ok text) ↔
    bytes.HoldsText position := by
  constructor
  · rintro ⟨text, htext⟩
    obtain ⟨hfree, rest, hrest⟩ := readText_eq_ok_iff.1 htext
    exact ⟨text, rest, hfree, hrest⟩
  · rintro ⟨text, rest, hfree, hrest⟩
    exact ⟨text, readText_eq_ok_iff.2 ⟨hfree, rest, hrest⟩⟩

/-- The four words at the front. -/
def spelledHeader (bytes : Bytes) : Header :=
  ⟨bytes.number Address.width 0, bytes.number Address.width 8, bytes.number Address.width 16,
    bytes.number Address.width 24⟩

/-- The two numbers of a range at a position. -/
def spelledRange (bytes : Bytes) (position : Nat) : Range :=
  ⟨bytes.number Range.numberWidth position,
    bytes.number Range.numberWidth (position + Range.numberWidth)⟩

theorem readHeader_eq_ok_iff_spelled {header : Header} :
    bytes.readHeader = .ok header ↔
      Header.size ≤ bytes.length ∧ header = bytes.spelledHeader := by
  obtain ⟨directory, count, ranges, rangeCount⟩ := header
  simp only [readHeader_eq_ok_iff, word?_eq_some_iff, spelledHeader, Header.mk.injEq, Header.size,
    Address.width]
  constructor
  · rintro ⟨⟨-, rfl⟩, ⟨-, rfl⟩, ⟨-, rfl⟩, ⟨hinside, rfl⟩⟩
    exact ⟨hinside, rfl, rfl, rfl, rfl⟩
  · rintro ⟨hinside, rfl, rfl, rfl, rfl⟩
    exact ⟨⟨by omega, rfl⟩, ⟨by omega, rfl⟩, ⟨by omega, rfl⟩, ⟨by omega, rfl⟩⟩

theorem readRange_eq_ok_iff_spelled {range : Range} :
    bytes.readRange position = .ok range ↔
      position + Range.size ≤ bytes.length ∧ range = bytes.spelledRange position := by
  obtain ⟨typeId, count⟩ := range
  simp only [readRange_eq_ok_iff, Range.decode?, Option.bind_eq_bind, Option.bind_eq_some_iff,
    word?_eq_some_iff, Option.some_inj, Range.mk.injEq, spelledRange, Range.size,
    Range.numberWidth]
  constructor
  · rintro ⟨_, ⟨-, rfl⟩, _, ⟨hinside, rfl⟩, rfl, rfl⟩
    exact ⟨by omega, rfl, rfl⟩
  · rintro ⟨hinside, rfl, rfl⟩
    exact ⟨_, ⟨by omega, rfl⟩, _, ⟨by omega, rfl⟩, rfl, rfl⟩

end Bytes

/-! ### The parts as the bytes spell them -/

/-- An instance as the directory spells it: its word, and the layout of the type that its range
names. -/
structure Listing where
  word : Nat
  layout : RecordLayout

/-- The instances that a directory spells at some places, the types being those of the registry. -/
def listingsOf (registry : Registry) (bytes : Bytes) (directoryAt : Nat)
    (places : List (TypeId × Nat)) : List Listing :=
  places.filterMap fun place => (registry.layout? place.1).map fun layout =>
    ⟨bytes.number Address.width (directoryAt + place.2 * Address.width), layout⟩

/-- The positions of the record of an instance. -/
def Listing.span (base : Nat) (listing : Listing) : Span :=
  ⟨listing.word - base, listing.word - base + listing.layout.size⟩

/-- The fixed parts of an image as its bytes spell them, whether or not they are in place. -/
structure Outline where
  header : Header
  ranges : List Range
  listings : List Listing

namespace Outline

/-- The positions of the range table, and of the directory. -/
def rangeTable (base : Nat) (outline : Outline) : Span :=
  let start := outline.header.ranges - base
  ⟨start, start + outline.header.rangeCount * Range.size⟩

@[inherit_doc rangeTable] def directory (base : Nat) (outline : Outline) : Span :=
  let start := outline.header.directory - base
  ⟨start, start + outline.header.count * Address.width⟩

/-- The positions of the header, the tables and the records. -/
def regions (base : Nat) (outline : Outline) : List Span :=
  ⟨0, Header.size⟩ :: outline.rangeTable base :: outline.directory base ::
    outline.listings.map (Listing.span base)

/-- What the bytes of an image spell: the header, the ranges of the range table, and for each
instance that the ranges cover the next word of the directory. -/
def ofBytes (registry : Registry) (base : Nat) (bytes : Bytes) : Outline :=
  let header := bytes.spelledHeader
  let ranges := (List.range header.rangeCount).map fun index =>
    bytes.spelledRange (header.ranges - base + index * Range.size)
  { header
    ranges
    listings := listingsOf registry bytes (header.directory - base) (Range.spread ranges).zipIdx }

end Outline

/-! ### Well-formed images -/

/-- A pointer to `size` bytes that lie inside, at a multiple of `align`. -/
def PointsInto (length base value size align : Nat) : Prop :=
  base ≤ value ∧ align ∣ value - base ∧ value - base + size ≤ length

/-- A pointer of a record: null, or inside the image and of the right kind.  A text starts outside
all regions, a reference is the pointer of an instance of the right type. -/
def Outline.Points (outline : Outline) (base : Nat) (bytes : Bytes) (kind : SlotKind)
    (value : Nat) : Prop :=
  value = 0 ∨ (base ≤ value ∧ value < base + bytes.length ∧
    match kind with
    | .text => (∀ region ∈ outline.regions base, ¬region.Contains (value - base)) ∧
        bytes.HoldsText (value - base)
    | .ref target => ∃ listing ∈ outline.listings,
        listing.word = value ∧ listing.layout.id = target)

/-- The images whose fixed parts are in place: the tables and records lie inside and are aligned,
the ranges name known types and cover the directory, and no two parts overlap. -/
structure Outline.InPlace (registry : Registry) (base : Nat) (bytes : Bytes)
    (outline : Outline) : Prop where
  header : Header.size ≤ bytes.length
  ranges : PointsInto bytes.length base outline.header.ranges
    (outline.header.rangeCount * Range.size) Range.align
  directory : PointsInto bytes.length base outline.header.directory
    (outline.header.count * Address.width) Address.width
  known : ∀ range ∈ outline.ranges, ∃ layout, registry.layout? range.typeId = some layout
  counted : (outline.ranges.map Range.count).sum = outline.header.count
  records : ∀ listing ∈ outline.listings,
    PointsInto bytes.length base listing.word listing.layout.size listing.layout.align
  disjoint : (outline.regions base).Pairwise Span.Disjoint

/-- **The well-formed images**: the fixed parts are in place, and every pointer is null or points at
what it should. -/
structure Outline.WellFormed (registry : Registry) (base : Nat) (bytes : Bytes)
    (outline : Outline) : Prop extends outline.InPlace registry base bytes where
  pointers : ∀ listing ∈ outline.listings, ∀ slot ∈ listing.layout.slots,
    outline.Points base bytes slot.kind
      (bytes.number Address.width (listing.word - base + slot.offset))

/-! ### Regions -/

/-- A pointer leads to a region exactly if it points into the image. -/
theorem region_eq_ok_iff_pointsInto {value base length count size align offset : Nat} :
    region value base length count size align = .ok offset ↔
      PointsInto length base value (count * size) align ∧ offset = value - base := by
  rw [region_eq_ok_iff, PointsInto]
  constructor
  · rintro ⟨rfl, hinside, halign⟩
    rw [Nat.add_sub_cancel_left]
    exact ⟨⟨Nat.le_add_right _ _, Nat.dvd_of_mod_eq_zero halign, hinside⟩, rfl⟩
  · rintro ⟨⟨hbase, halign, hinside⟩, rfl⟩
    exact ⟨by omega, hinside, Nat.mod_eq_zero_of_dvd halign⟩

/-- The instance of the directory at a place, in terms of the bytes. -/
theorem lists_iff {registry : Registry} {bytes : Bytes} {base directoryAt : Nat}
    {place : TypeId × Nat} {entry : Entry} :
    Lists registry bytes base directoryAt place entry ↔
      directoryAt + place.2 * Address.width + Address.width ≤ bytes.length ∧
      ∃ layout, registry.layout? place.1 = some layout ∧
        PointsInto bytes.length base
          (bytes.number Address.width (directoryAt + place.2 * Address.width)) layout.size
          layout.align ∧
        entry = ⟨bytes.number Address.width (directoryAt + place.2 * Address.width) - base,
          layout⟩ := by
  simp only [Lists, readEntry, bind_eq_ok_iff, Bytes.readSlot_eq_ok_iff_number,
    region_eq_ok_iff_pointsInto, Nat.one_mul]
  constructor
  · rintro ⟨layout, hlayout, _, ⟨hinside, rfl⟩, _, ⟨hpoints, rfl⟩, hentry⟩
    exact ⟨hinside, layout, hlayout, hpoints, (Except.ok.inj hentry).symm⟩
  · rintro ⟨hinside, layout, hlayout, hpoints, rfl⟩
    exact ⟨layout, hlayout, _, ⟨hinside, rfl⟩, _, ⟨hpoints, rfl⟩, rfl⟩

/-- The record of an instance. -/
def Listing.entry (base : Nat) (listing : Listing) : Entry := ⟨listing.word - base, listing.layout⟩

/-- **The directory lists the instances that its words spell**, if these point into the image. -/
theorem forall₂_lists_iff {registry : Registry} {bytes : Bytes} {base directoryAt : Nat}
    {places : List (TypeId × Nat)} {entries : List Entry}
    (hknown : ∀ place ∈ places, ∃ layout, registry.layout? place.1 = some layout)
    (hinside : ∀ place ∈ places,
      directoryAt + place.2 * Address.width + Address.width ≤ bytes.length) :
    List.Forall₂ (Lists registry bytes base directoryAt) places entries ↔
      (∀ listing ∈ listingsOf registry bytes directoryAt places, PointsInto bytes.length base
        listing.word listing.layout.size listing.layout.align) ∧
      entries = (listingsOf registry bytes directoryAt places).map (Listing.entry base) := by
  induction places generalizing entries with
  | nil => simp [listingsOf]
  | cons place rest ih =>
      obtain ⟨⟨layout, hlayout⟩, hknown⟩ := List.forall_mem_cons.1 hknown
      obtain ⟨hfirst, hinside⟩ := List.forall_mem_cons.1 hinside
      have hlistings : listingsOf registry bytes directoryAt (place :: rest) =
          ⟨bytes.number Address.width (directoryAt + place.2 * Address.width), layout⟩ ::
            listingsOf registry bytes directoryAt rest :=
        List.filterMap_cons_some (by rw [hlayout]; rfl)
      simp only [List.forall₂_cons_left_iff, lists_iff, ih hknown hinside, hlistings,
        List.forall_mem_cons, List.map_cons, Listing.entry, hlayout, Option.some_inj]
      constructor
      · rintro ⟨_, _, ⟨-, _, rfl, hpoints, rfl⟩, ⟨hrest, rfl⟩, rfl⟩
        exact ⟨⟨hpoints, hrest⟩, rfl⟩
      · rintro ⟨⟨hpoints, hrest⟩, rfl⟩
        exact ⟨_, _, ⟨hfirst, layout, rfl, hpoints, rfl⟩, ⟨hrest, rfl⟩, rfl⟩

/-- **The range table holds the ranges that its bytes spell**, if it lies inside. -/
theorem forall₂_readRange_iff {bytes : Bytes} {rangesAt count : Nat} {ranges : List Range}
    (hinside : rangesAt + count * Range.size ≤ bytes.length) :
    List.Forall₂ (fun index range => bytes.readRange (rangesAt + index * Range.size) = .ok range)
        (List.range count) ranges ↔
      ranges = (List.range count).map fun index =>
        bytes.spelledRange (rangesAt + index * Range.size) := by
  simp only [Bytes.readRange_eq_ok_iff_spelled]
  rw [List.forall₂_and_left, forall₂_eq_map_iff]
  refine and_iff_right ?_
  intro index hindex
  have hlt := List.mem_range.1 hindex
  have hmul := Nat.mul_le_mul_right Range.size (Nat.succ_le_of_lt hlt)
  rw [Nat.succ_mul] at hmul
  omega

namespace Outline

/-- What a scan finds in an image with these parts, up to the list of patched words. -/
def scan (base : Nat) (slots : List Nat) (outline : Outline) : Scan :=
  ⟨outline.header, outline.header.ranges - base, outline.header.directory - base,
    outline.listings.map (Listing.entry base), slots⟩

theorem regions_scan (base : Nat) (slots : List Nat) (outline : Outline) :
    (outline.scan base slots).regions = outline.regions base := by
  simp only [Scan.regions, scan, regions, List.map_map]
  rfl

theorem length_spread (ranges : List Range) :
    (Range.spread ranges).length = (ranges.map Range.count).sum := by
  simp [Range.spread, List.length_flatMap]

variable {registry : Registry} {base : Nat} {bytes : Bytes}

/-- The types of the instances are known if those of the ranges are, and the words of the instances
lie in the directory. -/
theorem places_ofBytes {count directoryAt : Nat} {ranges : List Range}
    (hknown : ∀ range ∈ ranges, ∃ layout, registry.layout? range.typeId = some layout)
    (hcount : (Range.spread ranges).length = count)
    (hinside : directoryAt + count * Address.width ≤ bytes.length) :
    ∀ place ∈ (Range.spread ranges).zipIdx,
      (∃ layout, registry.layout? place.1 = some layout) ∧
        directoryAt + place.2 * Address.width + Address.width ≤ bytes.length := by
  rintro ⟨typeId, index⟩ hplace
  have hindex := List.mem_zipIdx_iff_getElem?.1 hplace
  constructor
  · obtain ⟨range, hrange, htype⟩ := List.mem_flatMap.1 (List.mem_of_getElem? hindex)
    obtain rfl := List.eq_of_mem_replicate htype
    exact hknown range hrange
  · have hlt : index < count := hcount ▸ (List.getElem?_eq_some_iff.1 hindex).1
    have hmul := Nat.mul_le_mul_right Address.width (Nat.succ_le_of_lt hlt)
    rw [Nat.succ_mul] at hmul
    dsimp only
    omega

/-! ### Well-formed images are accepted -/

/-- A pointer leads somewhere exactly if the outline says so. -/
theorem points_iff {outline : Outline} (hbase : ∀ listing ∈ outline.listings, base ≤ listing.word)
    (slots : List Nat) {kind : SlotKind} {value : Nat} :
    outline.Points base bytes kind value ↔
      (value ≠ 0 → (outline.scan base slots).Leads bytes base kind value) := by
  unfold Points Scan.Leads
  rw [or_iff_not_imp_left, regions_scan]
  refine imp_congr_right ?_
  intro _
  constructor
  · rintro ⟨hle, hlt, hkind⟩
    refine ⟨value - base, offsetOf_eq_ok_iff.2 (by omega), ?_⟩
    cases kind with
    | text => exact ⟨hkind.1, Bytes.exists_readText_iff.2 hkind.2⟩
    | ref target =>
        obtain ⟨listing, hlisting, rfl, hid⟩ := hkind
        exact ⟨listing.entry base, List.mem_map_of_mem hlisting, rfl, hid⟩
  · rintro ⟨target, htarget, hkind⟩
    obtain ⟨rfl, hlt⟩ := offsetOf_eq_ok_iff.1 htarget
    refine ⟨Nat.le_add_right _ _, Nat.add_lt_add_left hlt _, ?_⟩
    rw [Nat.add_sub_cancel_left]
    cases kind with
    | text => exact ⟨hkind.1, Bytes.exists_readText_iff.1 hkind.2⟩
    | ref expected =>
        obtain ⟨entry, hentry, hoffset, hid⟩ := hkind
        obtain ⟨listing, hlisting, rfl⟩ := List.mem_map.1 hentry
        have hle := hbase listing hlisting
        refine ⟨listing, hlisting, ?_, hid⟩
        simp only [Listing.entry] at hoffset
        omega

/-- **The fixed parts of a scanned image are those that its bytes spell**, and are in place. -/
theorem framed_iff {found : Scan} :
    Framed registry base bytes found ↔
      found = (ofBytes registry base bytes).scan base found.slots ∧
        (ofBytes registry base bytes).InPlace registry base bytes := by
  obtain ⟨header, rangesAt, directoryAt, entries, slots⟩ := found
  constructor
  · rintro ⟨hheader, hrangesAt, hdirectoryAt, ⟨ranges, hread, hknown, hcount, hlists⟩, hdisjoint⟩
    dsimp only at hheader hrangesAt hdirectoryAt hread hcount hlists
    obtain ⟨hsize, rfl⟩ := Bytes.readHeader_eq_ok_iff_spelled.1 hheader
    obtain ⟨hranges, rfl⟩ := region_eq_ok_iff_pointsInto.1 hrangesAt
    obtain ⟨hdirectory, rfl⟩ := region_eq_ok_iff_pointsInto.1 hdirectoryAt
    obtain rfl := (forall₂_readRange_iff hranges.2.2).1 hread
    have hplaces := places_ofBytes hknown hcount hdirectory.2.2
    obtain ⟨hrecords, rfl⟩ := (forall₂_lists_iff (fun place hplace => (hplaces place hplace).1)
      fun place hplace => (hplaces place hplace).2).1 hlists
    refine ⟨rfl, hsize, hranges, hdirectory, hknown, (length_spread _).symm.trans hcount,
      hrecords, ?_⟩
    rwa [← regions_scan base slots]
  · rintro ⟨hfound, h⟩
    obtain ⟨rfl, rfl, rfl, rfl, -⟩ := Scan.mk.inj hfound
    have hcount := (length_spread _).trans h.counted
    have hplaces := places_ofBytes h.known hcount h.directory.2.2
    refine ⟨Bytes.readHeader_eq_ok_iff_spelled.2 ⟨h.header, rfl⟩,
      region_eq_ok_iff_pointsInto.2 ⟨h.ranges, rfl⟩,
      region_eq_ok_iff_pointsInto.2 ⟨h.directory, rfl⟩,
      ⟨_, (forall₂_readRange_iff h.ranges.2.2).2 rfl, h.known, hcount, ?_⟩, ?_⟩
    · exact (forall₂_lists_iff (fun place hplace => (hplaces place hplace).1)
        fun place hplace => (hplaces place hplace).2).2 ⟨h.records, rfl⟩
    · have hdisjoint := h.disjoint
      rwa [← regions_scan base slots] at hdisjoint

/-- The words of a record that is in place can be read. -/
theorem InPlace.readable {outline : Outline} (h : outline.InPlace registry base bytes)
    (hsound : registry.Sound) {listing : Listing} (hlisting : listing ∈ outline.listings)
    {typeId : TypeId} (hlayout : registry.layout? typeId = some listing.layout)
    {slot : PointerSlot} (hslot : slot ∈ listing.layout.slots) :
    bytes.readSlot (listing.word - base + slot.offset) =
      .ok (bytes.number Address.width (listing.word - base + slot.offset)) := by
  have hslotinside := (hsound.inOrder hlayout).2 slot hslot
  have hinside := (h.records listing hlisting).2.2
  exact Bytes.readSlot_eq_ok_iff_number.2 ⟨by omega, rfl⟩

theorem exists_layout_of_mem {listing : Listing}
    (h : listing ∈ (ofBytes registry base bytes).listings) :
    ∃ typeId, registry.layout? typeId = some listing.layout := by
  obtain ⟨place, -, hplace⟩ := List.mem_filterMap.1 h
  obtain ⟨layout, hlayout, rfl⟩ := Option.map_eq_some_iff.1 hplace
  exact ⟨place.1, hlayout⟩

/-- The pointers of the records, position by position. -/
theorem forall_pointers_iff {outline : Outline} {slots : List Nat}
    {holds : PointerSlot → Prop} :
    (∀ pointer ∈ (outline.scan base slots).pointers, holds pointer) ↔
      ∀ listing ∈ outline.listings, ∀ slot ∈ listing.layout.slots,
        holds (slot.shift (listing.word - base)) := by
  simp only [Scan.pointers, scan, List.mem_flatMap, Entry.pointers, Listing.entry, List.mem_map]
  constructor
  · intro h listing hlisting slot hslot
    exact h _ ⟨_, ⟨listing, hlisting, rfl⟩, slot, hslot, rfl⟩
  · rintro h _ ⟨_, ⟨listing, hlisting, rfl⟩, slot, hslot, rfl⟩
    exact h listing hlisting slot hslot

/-- **The pointers of an image whose parts are in place are checked** exactly if they point at what
they should. -/
theorem InPlace.leads_iff (h : (ofBytes registry base bytes).InPlace registry base bytes)
    (hsound : registry.Sound) (slots : List Nat) :
    (∀ pointer ∈ ((ofBytes registry base bytes).scan base slots).pointers,
      ∃ value, bytes.readSlot pointer.offset = .ok value ∧ (value ≠ 0 →
        ((ofBytes registry base bytes).scan base slots).Leads bytes base pointer.kind value)) ↔
      ∀ listing ∈ (ofBytes registry base bytes).listings, ∀ slot ∈ listing.layout.slots,
        (ofBytes registry base bytes).Points base bytes slot.kind
          (bytes.number Address.width (listing.word - base + slot.offset)) := by
  rw [forall_pointers_iff]
  refine forall₂_congr fun listing hlisting => forall₂_congr fun slot hslot => ?_
  obtain ⟨typeId, hlayout⟩ := exists_layout_of_mem hlisting
  rw [points_iff (fun other hother => (h.records other hother).1) slots]
  simp only [PointerSlot.shift, h.readable hsound hlisting hlayout hslot, Except.ok.injEq,
    exists_eq_left']

end Outline

/-- **An image has a view exactly if it is well formed.** -/
theorem exists_view_iff_wellFormed {registry : Registry} (hexact : registry.Exact) (base : Nat)
    (bytes : Bytes) :
    (∃ view, View.ofBytes registry base bytes = .ok view) ↔
      (Outline.ofBytes registry base bytes).WellFormed registry base bytes := by
  simp only [View.ofBytes_eq_ok_iff hexact.sound]
  constructor
  · rintro ⟨_, found, haccepted, rfl⟩
    obtain ⟨hfound, hinplace⟩ := Outline.framed_iff.1 haccepted.toFramed
    have hleads := haccepted.leads
    rw [hfound] at hleads
    exact ⟨hinplace, (hinplace.leads_iff hexact.sound _).1 hleads⟩
  · intro h
    -- the scan of the outline, with the words that a relocation would patch
    let outline := Outline.ofBytes registry base bytes
    let slots := tableSlots (outline.header.directory - base) outline.header.count ++
      bytes.nonNull (outline.scan base []).pointers
    have hframed : Framed registry base bytes (outline.scan base slots) :=
      Outline.framed_iff.2 ⟨rfl, h.toInPlace⟩
    have hleads := (h.toInPlace.leads_iff hexact.sound slots).2 h.pointers
    exact ⟨_, outline.scan base slots, ⟨hframed, hleads, rfl⟩, rfl⟩

/-- The image of the sample is well formed, and one without bytes has no view. -/
theorem exists_view_iff_wellFormed_sample :
    Sample.registry.Exact ∧
    (Outline.ofBytes Sample.registry 0 Sample.image).WellFormed Sample.registry 0 Sample.image ∧
    ¬∃ view, View.ofBytes Sample.registry 0 [] = .ok view := by
  refine ⟨Sample.exact, (exists_view_iff_wellFormed Sample.exact 0 Sample.image).1
    ⟨Sample.view, Sample.ofBytes_image⟩, ?_⟩
  intro hview
  have hheader := ((exists_view_iff_wellFormed Sample.exact 0 []).1 hview).header
  exact absurd hheader (by decide)

end ScenePack
