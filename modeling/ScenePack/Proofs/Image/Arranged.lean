/-
**Where the parts of an image go.**

The header, the range table, the directory and the records follow each other in an arrangement, and
the texts come last.  The bytes in front of the records read back as the tables that they were made
from.

Main definitions:

* `Arrangement.places`, `Arrangement.entries` — the records with their positions;
* `Arrangement.Placed` — an arrangement of a scene whose parts are in order.

Main results:

* `inOrder_positions` — records go one after the other;
* `Scene.placed` — **the parts of an arrangement are in order**;
* `Scene.spread_ranges` — **the ranges cover the stored records**;
* `Arrangement.Placed.readHeader`, `Arrangement.Placed.readRange`, `Arrangement.Placed.readSlot` —
  the tables read back.
-/

import ScenePack.Proofs.Image.Written

set_option relaxedAutoImplicit false
set_option autoImplicit false

namespace ScenePack

/-! ### Items of one width -/

section Width

variable {α : Type} {items : List α} {bytesOf : α → Bytes} {width : Nat}

theorem length_flatMap_of_width (hwidth : ∀ item, (bytesOf item).length = width) :
    (items.flatMap bytesOf).length = items.length * width := by
  induction items with
  | nil => simp
  | cons item rest ih =>
      rw [List.flatMap_cons, List.length_append, ih, hwidth, List.length_cons, Nat.succ_mul,
        Nat.add_comm]

/-- An item of fixed width stands at a multiple of the width. -/
theorem exists_flatMap_eq (hwidth : ∀ item, (bytesOf item).length = width) {index : Nat} {item : α}
    (h : items[index]? = some item) :
    ∃ front rest, items.flatMap bytesOf = front ++ bytesOf item ++ rest ∧
      front.length = index * width := by
  obtain ⟨hlt, hitem⟩ := List.getElem?_eq_some_iff.1 h
  refine ⟨(items.take index).flatMap bytesOf, (items.drop (index + 1)).flatMap bytesOf, ?_, ?_⟩
  · have hsplit : items = items.take index ++ item :: items.drop (index + 1) := by
      rw [← hitem, List.getElem_cons_drop, List.take_append_drop]
    conv_lhs => rw [hsplit]
    rw [List.flatMap_append, List.flatMap_cons, List.append_assoc]
  · rw [length_flatMap_of_width hwidth, List.length_take, Nat.min_eq_left (Nat.le_of_lt hlt)]

end Width

/-! ### Positions of records -/

section Positions

variable {stored : List StoredRecord}

/-- **Records go one after the other.** -/
theorem inOrder_positions (halign : ∀ entry ∈ stored, 0 < entry.layout.align) (start : Nat) :
    Span.InOrder start ((stored.zip (positions start (stored.map StoredRecord.layout))).map
        fun place => (StoredRecord.entryAt place).span)
      (endOf start (stored.map StoredRecord.layout)) := by
  induction stored generalizing start with
  | nil => exact ⟨List.Pairwise.nil, fun _ h => absurd h List.not_mem_nil, Nat.le_refl _⟩
  | cons entry rest ih =>
      obtain ⟨hentry, hrest⟩ := List.forall_mem_cons.1 halign
      exact Span.inOrder_cons_iff.2 ⟨le_alignUp hentry start, Nat.le_add_right _ _, ih hrest _⟩

theorem aligned_positions (start : Nat) :
    ∀ place ∈ stored.zip (positions start (stored.map StoredRecord.layout)),
      place.2 % place.1.layout.align = 0 := by
  induction stored generalizing start with
  | nil => exact fun _ h => absurd h List.not_mem_nil
  | cons entry rest ih =>
      refine List.forall_mem_cons.2 ⟨?_, ih _⟩
      exact Nat.mod_eq_zero_of_dvd (alignUp_dvd entry.layout.align start)

end Positions

/-! ### Arrangements -/

namespace Arrangement

/-- The stored records with their positions. -/
def places (arrangement : Arrangement) : List (StoredRecord × Nat) :=
  arrangement.stored.zip arrangement.positions

/-- The entries of the directory. -/
def entries (arrangement : Arrangement) : List Entry :=
  arrangement.places.map StoredRecord.entryAt

/-- The end of the range table. -/
def rangesEnd (arrangement : Arrangement) : Nat :=
  Header.size + arrangement.ranges.length * Range.size

/-- The end of the directory. -/
def directoryEnd (arrangement : Arrangement) : Nat :=
  arrangement.directoryAt + arrangement.stored.length * Address.width

/-- An arrangement of a scene whose parts are in order. -/
structure Placed (registry : Registry) (scene : Scene) (arrangement : Arrangement) : Prop where
  stored_eq : arrangement.stored = scene.stored registry
  ranges_eq : arrangement.ranges = scene.ranges registry
  length_positions : arrangement.positions.length = arrangement.stored.length
  rangesEnd_le : arrangement.rangesEnd ≤ arrangement.directoryAt
  directoryAt_aligned : arrangement.directoryAt % Address.width = 0
  inOrder : Span.InOrder arrangement.directoryEnd (arrangement.entries.map Entry.span)
    arrangement.textAt
  aligned : ∀ entry ∈ arrangement.entries, entry.offset % entry.layout.align = 0

end Arrangement

/-- **The parts of an arrangement are in order.** -/
theorem Scene.placed {registry : Registry} (hsound : registry.Sound) (config : PackConfig)
    (scene : Scene) : (scene.arrange registry config).Placed registry scene := by
  have halign : ∀ entry ∈ scene.stored registry, 0 < entry.layout.align := fun entry hentry =>
    (hsound _ _ (of_mem_stored hsound hentry).1).2.align_pos
  refine ⟨rfl, rfl, ?_, le_alignUp (by decide) _, ?_, ?_, ?_⟩
  · simp [arrange]
  · exact Nat.mod_eq_zero_of_dvd (alignUp_dvd _ _)
  · rw [Arrangement.entries, List.map_map]
    exact inOrder_positions halign _
  · exact List.forall_mem_map.2 (aligned_positions _)

namespace Arrangement

variable {arrangement : Arrangement}

/-- The position of a key is that of the stored record with the key. -/
theorem exists_of_position? {key : InstanceKey} {position : Nat}
    (h : arrangement.position? key = some position) :
    ∃ (index : Nat) (entry : StoredRecord), arrangement.stored[index]? = some entry ∧
      entry.key = key ∧ arrangement.positions[index]? = some position := by
  obtain ⟨index, hindex⟩ := List.mem_iff_getElem?.1 (mem_of_lookup_eq_some h)
  obtain ⟨hkey, hposition⟩ := List.getElem?_zip_eq_some.1 hindex
  rw [List.getElem?_map, Option.map_eq_some_iff] at hkey
  obtain ⟨entry, hentry, hkey⟩ := hkey
  exact ⟨index, entry, hentry, hkey, hposition⟩

theorem getElem?_entries {index : Nat} {entry : StoredRecord} {position : Nat}
    (hentry : arrangement.stored[index]? = some entry)
    (hposition : arrangement.positions[index]? = some position) :
    arrangement.entries[index]? = some ⟨position, entry.layout⟩ := by
  have hplace : arrangement.places[index]? = some (entry, position) :=
    List.getElem?_zip_eq_some.2 ⟨hentry, hposition⟩
  rw [entries, List.getElem?_map, hplace]
  rfl

theorem mem_stored_of_mem_places {place : StoredRecord × Nat} (h : place ∈ arrangement.places) :
    place.1 ∈ arrangement.stored := by
  obtain ⟨entry, position⟩ := place
  exact (List.of_mem_zip h).1

end Arrangement

/-! ### The ranges -/

namespace Scene

variable {registry : Registry} {scene : Scene}

theorem length_storedOf (scene : Scene) (layout : RecordLayout) :
    (scene.storedOf layout).length =
      (scene.filter fun record => record.typeId = layout.id).length := by
  have hscene : scene.zipIdx.map Prod.fst = scene := List.zipIdx_map_fst 0 scene
  conv_rhs => rw [← hscene, List.filter_map, List.length_map]
  rw [storedOf, List.length_map]
  rfl

/-- **The ranges cover the stored records**, if no count was reduced. -/
theorem spread_ranges (hcounts : ∀ layout ∈ registry.types,
      (scene.storedOf layout).length < Range.countLimit) :
    Range.spread (scene.ranges registry) =
      (scene.stored registry).map fun entry => entry.layout.id := by
  rw [ranges, stored]
  generalize registry.types = types at hcounts ⊢
  induction types with
  | nil => rfl
  | cons layout rest ih =>
      obtain ⟨hlayout, hrest⟩ := List.forall_mem_cons.1 hcounts
      have hone : (scene.storedOf layout).map (fun entry => entry.layout.id) =
          List.replicate (scene.storedOf layout).length layout.id := by
        rw [storedOf, List.map_map, List.length_map]
        change List.map (fun _ => layout.id) _ = _
        exact List.map_const'
      rw [List.flatMap_cons, List.map_append, ← ih hrest, hone, List.filterMap_cons]
      dsimp only
      by_cases hempty : (scene.storedOf layout).length = 0
      · rw [if_pos hempty, hempty]
        rfl
      · rw [if_neg hempty]
        dsimp only
        rw [Range.spread_cons, Nat.mod_eq_of_lt hlayout]

/-- A range is of a known type of which the scene has records. -/
theorem of_mem_ranges (hsound : registry.Sound) {range : Range}
    (h : range ∈ scene.ranges registry) :
    (∃ layout, registry.layout? range.typeId = some layout) ∧ range.count < Range.countLimit ∧
      ∃ record ∈ scene, record.typeId = range.typeId := by
  obtain ⟨layout, hlayout, hrange⟩ := List.mem_filterMap.1 h
  obtain ⟨position, hposition⟩ := List.mem_iff_getElem?.1 hlayout
  have hid := (hsound position layout hposition).1
  dsimp only at hrange
  split at hrange
  · cases hrange
  · next hcount =>
      cases hrange
      rw [length_storedOf, List.length_eq_zero_iff] at hcount
      obtain ⟨record, hrecord⟩ := List.exists_mem_of_ne_nil _ hcount
      obtain ⟨hmem, htype⟩ := List.mem_filter.1 hrecord
      refine ⟨⟨layout, ?_⟩, Nat.mod_lt _ (by decide), record, hmem, of_decide_eq_true htype⟩
      rw [hid]
      exact hposition

end Scene

/-! ### The bytes in front of the records -/

namespace Arrangement

/-- The range table behind the header. -/
def tables (arrangement : Arrangement) : Bytes :=
  arrangement.header.encode ++ arrangement.ranges.flatMap Range.encode

theorem length_tables (arrangement : Arrangement) :
    arrangement.tables.length = arrangement.rangesEnd := by
  rw [tables, List.length_append, Header.length_encode,
    length_flatMap_of_width Range.length_encode]
  rfl

namespace Placed

variable {registry : Registry} {scene : Scene} {arrangement : Arrangement} {bytes : Bytes}

theorem position_le (h : arrangement.Placed registry scene) {key : InstanceKey} {position : Nat}
    (hposition : arrangement.position? key = some position) : position ≤ arrangement.textAt := by
  obtain ⟨index, entry, hentry, -, hindex⟩ := exists_of_position? hposition
  have hmem := List.mem_of_getElem? (getElem?_entries hentry hindex)
  obtain ⟨-, hspan, hstop⟩ := h.inOrder.within _ (List.mem_map_of_mem hmem)
  exact Nat.le_trans hspan hstop

theorem length_padTo_tables (h : arrangement.Placed registry scene) :
    (arrangement.tables.padTo arrangement.directoryAt).length = arrangement.directoryAt := by
  rw [Bytes.length_padTo, length_tables]
  exact Nat.max_eq_left h.rangesEnd_le

theorem length_front (h : arrangement.Placed registry scene) :
    arrangement.front.length = arrangement.directoryEnd := by
  have hfront : arrangement.front = arrangement.tables.padTo arrangement.directoryAt ++
      arrangement.positions.flatMap pointer := rfl
  rw [hfront, List.length_append, h.length_padTo_tables, length_flatMap_of_width length_pointer,
    h.length_positions]
  rfl

/-- The records are in order behind the front. -/
theorem inOrder_places (h : arrangement.Placed registry scene) :
    Span.InOrder arrangement.front.length
      (arrangement.places.map fun place => (StoredRecord.entryAt place).span)
      arrangement.textAt := by
  have hentries := h.inOrder
  rw [entries, List.map_map] at hentries
  rw [h.length_front]
  exact hentries

theorem tables_front (hfront : arrangement.front <+: bytes) : arrangement.tables <+: bytes :=
  ((Bytes.prefix_padTo _ _).trans (List.prefix_append _ _)).trans hfront

theorem readHeader (hfits : arrangement.header.Fits) (hfront : arrangement.front <+: bytes) :
    bytes.readHeader = .ok arrangement.header := by
  obtain ⟨rest, rfl⟩ := tables_front hfront
  rw [Bytes.readHeader, tables, List.append_assoc, Header.decode?_encode hfits]

theorem readRange (hfront : arrangement.front <+: bytes) {index : Nat} {range : Range}
    (h : arrangement.ranges[index]? = some range) (htype : range.typeId < Range.countLimit)
    (hcount : range.count < Range.countLimit) :
    bytes.readRange (Header.size + index * Range.size) = .ok range := by
  obtain ⟨rest, rfl⟩ := tables_front hfront
  obtain ⟨front, back, hsplit, hlength⟩ := exists_flatMap_eq Range.length_encode h
  have hdecode := Range.decode?_encode htype hcount (arrangement.header.encode ++ front)
    (back ++ rest)
  rw [List.length_append, Header.length_encode, hlength] at hdecode
  rw [Bytes.readRange, tables, hsplit]
  simp only [List.append_assoc] at hdecode ⊢
  rw [hdecode]

/-- The numbers of the header can be stored, if the records end inside the address space. -/
theorem header_fits (h : arrangement.Placed registry scene)
    (hspace : arrangement.textAt < Address.space) : arrangement.header.Fits := by
  have hranges := h.rangesEnd_le
  have hdirectory := h.inOrder.le
  simp only [Arrangement.rangesEnd, Arrangement.directoryEnd, Range.size, Range.numberWidth,
    Address.width] at hranges hdirectory
  have hsize : Header.size < Address.space := by decide
  refine ⟨?_, ?_, hsize, ?_⟩
  · simp only [Arrangement.header]
    omega
  · simp only [Arrangement.header]
    omega
  · simp only [Arrangement.header]
    omega

theorem readRanges (h : arrangement.Placed registry scene) (hsound : registry.Sound)
    (hids : ∀ record ∈ scene, record.typeId < Range.countLimit)
    (hfront : arrangement.front <+: bytes) :
    List.Forall₂ (fun index range =>
        bytes.readRange (Header.size + index * Range.size) = .ok range)
      (List.range arrangement.ranges.length) arrangement.ranges := by
  refine forall₂_of_getElem? List.length_range ?_
  intro index item range hitem hrange
  obtain ⟨hlt, heq⟩ := List.getElem?_eq_some_iff.1 hitem
  rw [List.getElem_range] at heq
  have hmem := List.mem_of_getElem? hrange
  rw [h.ranges_eq] at hmem
  obtain ⟨-, hcount, record, hrecord, htype⟩ := Scene.of_mem_ranges hsound hmem
  rw [← heq]
  exact readRange hfront hrange (htype ▸ hids record hrecord) hcount

theorem readSlot (h : arrangement.Placed registry scene) (hfront : arrangement.front <+: bytes)
    {index position : Nat} (hindex : arrangement.positions[index]? = some position)
    (hposition : position < Address.space) :
    bytes.readSlot (arrangement.directoryAt + index * Address.width) = .ok position := by
  obtain ⟨rest, rfl⟩ := hfront
  obtain ⟨front, back, hsplit, hlength⟩ := exists_flatMap_eq length_pointer hindex
  have hword := Bytes.word?_encode (arrangement.tables.padTo arrangement.directoryAt ++ front)
    (back ++ rest) hposition
  rw [List.length_append, h.length_padTo_tables, hlength] at hword
  have hfront : arrangement.front = arrangement.tables.padTo arrangement.directoryAt ++
      (front ++ pointer position ++ back) := by
    rw [← hsplit]
    rfl
  refine Bytes.readSlot_eq_ok_iff.2 (Eq.trans ?_ hword)
  rw [hfront, pointer]
  simp only [List.append_assoc]

end Placed

end Arrangement

end ScenePack
