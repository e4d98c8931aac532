/-
**The instances of an image, one by one and all together.**

A view finds an instance in two ways.  Asked for a position, it walks the ranges and counts until
one of them covers the position.  Asked for all instances, it spreads the ranges out into a list of
types and reads the directory along that list, leaving out what cannot be read.  In an image that
has been scanned nothing is left out, so both ways show the same instances at the same positions.

Main definitions:

* `Range.Covers` — the range that covers a position;
* `View.Spells` — a view whose header and tables are those of its bytes;
* `View.Enumerates` — a view whose ranges, instances and named instances agree with its tables.

Main results:

* `View.typeAt?_eq` — the walk over the ranges finds the types that they spread out to;
* `Range.getElem?_spread_eq_some_iff` — what stands at a position is the type of the range that
  covers it;
* `Framed.instance?_eq` — **an instance by position is the instance at that position**;
* `View.enumerates_of_ofBytes` — **all ways to the instances of an image agree**.
-/

import ScenePack.Proofs.Image.Stored
import ScenePack.Proofs.Layout.Construction

set_option relaxedAutoImplicit false
set_option autoImplicit false

namespace ScenePack

/-! ### Ranges and positions -/

namespace Range

/-- The count of instances that ranges cover together. -/
def total (ranges : List Range) : Nat := (ranges.map Range.count).sum

/-- A range covers a position: the ranges before it end at or before the position, and together with
it they go past the position. -/
def Covers (ranges : List Range) (index : Nat) (range : Range) : Prop :=
  ∃ front back, ranges = front ++ range :: back ∧ total front ≤ index ∧
    index < total front + range.count

@[simp] theorem total_nil : total [] = 0 := rfl

@[simp] theorem total_cons (range : Range) (ranges : List Range) :
    total (range :: ranges) = range.count + total ranges := rfl

variable {range other : Range} {ranges : List Range} {index : Nat}

theorem not_covers_nil : ¬Covers [] index range := by
  rintro ⟨front, back, hsplit, -⟩
  simp at hsplit

theorem covers_cons_iff_of_lt (h : index < other.count) :
    Covers (other :: ranges) index range ↔ range = other := by
  constructor
  · rintro ⟨front, back, hsplit, hfront, -⟩
    cases front with
    | nil => exact (List.cons.inj hsplit).1.symm
    | cons first front =>
        obtain rfl := (List.cons.inj hsplit).1
        rw [total_cons] at hfront
        omega
  · rintro rfl
    exact ⟨[], ranges, rfl, Nat.zero_le _, by simpa using h⟩

theorem covers_cons_add_iff :
    Covers (other :: ranges) (other.count + index) range ↔ Covers ranges index range := by
  constructor
  · rintro ⟨front, back, hsplit, hfront, hindex⟩
    cases front with
    | nil =>
        obtain rfl := (List.cons.inj hsplit).1
        rw [total_nil] at hindex
        omega
    | cons first front =>
        obtain ⟨rfl, rfl⟩ := List.cons.inj hsplit
        rw [total_cons] at hfront hindex
        exact ⟨front, back, rfl, by omega, by omega⟩
  · rintro ⟨front, back, rfl, hfront, hindex⟩
    refine ⟨other :: front, back, rfl, ?_, ?_⟩
    · rw [total_cons]
      omega
    · rw [total_cons]
      omega

/-- **What stands at a position is the type of the range that covers it.** -/
theorem getElem?_spread_eq_some_iff {typeId : TypeId} :
    (spread ranges)[index]? = some typeId ↔
      ∃ range, Covers ranges index range ∧ range.typeId = typeId := by
  induction ranges generalizing index with
  | nil =>
      constructor
      · intro h
        cases h
      · rintro ⟨range, hcovers, -⟩
        exact absurd hcovers not_covers_nil
  | cons first rest ih =>
      rw [spread_cons]
      rcases Nat.lt_or_ge index first.count with hlt | hle
      · rw [List.getElem?_append_left (by simpa using hlt), List.getElem?_replicate, if_pos hlt]
        simp only [covers_cons_iff_of_lt hlt, exists_eq_left, Option.some_inj]
      · obtain ⟨index, rfl⟩ := Nat.exists_eq_add_of_le hle
        rw [List.getElem?_append_right (by simp), List.length_replicate, Nat.add_sub_cancel_left,
          ih]
        simp only [covers_cons_add_iff]

end Range

namespace View

/-- **The walk over the ranges** finds the type at a position of the list that they spread out
to. -/
theorem typeAt?_eq (ranges : List Range) (first index : Nat) :
    typeAt? ranges first (first + index) = (Range.spread ranges)[index]? := by
  induction ranges generalizing first index with
  | nil => rfl
  | cons range rest ih =>
      rw [typeAt?, Range.spread_cons]
      rcases Nat.lt_or_ge index range.count with hlt | hle
      · rw [if_pos (Nat.add_lt_add_left hlt first),
          List.getElem?_append_left (by simpa using hlt), List.getElem?_replicate, if_pos hlt]
      · obtain ⟨index, rfl⟩ := Nat.exists_eq_add_of_le hle
        rw [if_neg (by omega), ← Nat.add_assoc, ih, List.getElem?_append_right (by simp),
          List.length_replicate, Nat.add_sub_cancel_left]

end View

/-! ### Instances by position -/

namespace Framed

variable {registry : Registry} {base : Nat} {bytes : Bytes} {found : Scan}

theorem length_instances (h : Framed registry base bytes found) :
    (found.view registry base bytes).instances.length = found.header.count := by
  obtain ⟨hcount, hlists⟩ := h.view_lists
  rw [h.instances_eq, List.length_map, ← hlists.length_eq, List.length_zipIdx, hcount]

/-- The instance at a position is what the directory lists there, under the type of the range that
covers the position. -/
theorem lists_of_getElem? (h : Framed registry base bytes found) {index : Nat} {record : RecordView}
    (hrecord : (found.view registry base bytes).instances[index]? = some record) :
    ∃ typeId entry, (Range.spread (found.view registry base bytes).ranges)[index]? = some typeId ∧
      Lists registry bytes base found.directoryAt (typeId, index) entry ∧
      record = entry.record (found.view registry base bytes) := by
  obtain ⟨-, hlists⟩ := h.view_lists
  rw [h.instances_eq, List.getElem?_map] at hrecord
  obtain ⟨entry, hentry, rfl⟩ := Option.map_eq_some_iff.1 hrecord
  obtain ⟨place, hplace, hlisted⟩ := exists_getElem?_of_forall₂ hlists.flip hentry
  rw [List.getElem?_zipIdx] at hplace
  obtain ⟨typeId, htype, rfl⟩ := Option.map_eq_some_iff.1 hplace
  rw [Nat.zero_add] at hlisted
  exact ⟨typeId, entry, htype, hlisted, rfl⟩

/-- **An instance by position is the instance at that position**, and there is none behind the
last. -/
theorem instance?_eq (h : Framed registry base bytes found) (index : Nat) :
    (found.view registry base bytes).instance? index =
      (found.view registry base bytes).instances[index]? := by
  have htype := View.typeAt?_eq (found.view registry base bytes).ranges 0 index
  rw [Nat.zero_add] at htype
  rw [View.instance?, htype]
  cases hinstance : (found.view registry base bytes).instances[index]? with
  | none =>
      -- behind the last instance the ranges cover nothing
      obtain ⟨hcount, -⟩ := h.view_lists
      rw [List.getElem?_eq_none_iff, h.length_instances, ← hcount] at hinstance
      rw [List.getElem?_eq_none hinstance]
      rfl
  | some record =>
      obtain ⟨typeId, entry, hspread, hlisted, rfl⟩ := h.lists_of_getElem? hinstance
      rw [hspread]
      exact Lists.entry?_eq (found.view registry base bytes) hlisted

end Framed

/-! ### Views -/

namespace View

/-- A view of bytes: its header is the one at their front, and its tables are where the header
points to, behind the base. -/
structure Spells (registry : Registry) (base : Nat) (bytes : Bytes) (view : View) : Prop where
  registry_eq : view.registry = registry
  base_eq : view.base = base
  bytes_eq : view.bytes = bytes
  header : bytes.readHeader = .ok view.header
  rangesAt : view.header.ranges = base + view.rangesAt
  directoryAt : view.header.directory = base + view.directoryAt

/-- A view whose ranges, instances and named instances agree with its tables and with each other. -/
structure Enumerates (view : View) : Prop where
  /-- The ranges are those of the range table, all of them. -/
  ranges : List.Forall₂
    (fun index range => Range.decode? view.bytes (view.rangesAt + index * Range.size) = some range)
    (List.range view.header.rangeCount) view.ranges
  /-- There are as many instances as the header says. -/
  count : view.instances.length = view.header.count
  /-- An instance stands where its word of the directory points to, and has the type of the range
  that covers its position. -/
  listed : ∀ index record, view.instances[index]? = some record → record.view = view ∧
    view.bytes.readSlot (view.directoryAt + index * Address.width) =
      .ok (view.base + record.offset) ∧
    ∃ range, Range.Covers view.ranges index range ∧
      view.registry.layout? range.typeId = some record.layout
  /-- An instance by position is the one at that position. -/
  indexed : ∀ index, view.instance? index = view.instances[index]?
  /-- Behind the last instance there is none. -/
  behind : ∀ index, view.instance? index = none ↔ view.header.count ≤ index
  /-- The instances of a name are those whose type has the name, in order. -/
  named : ∀ name, view.instancesOf name =
    view.instances.filter fun record => record.layout.name = name

end View

/-- The position of a name is that of the type that has it. -/
theorem Registry.Lists.lookup_eq_iff {registry : Registry} {schema : Schema}
    (h : registry.Lists schema) {typeId : TypeId} {layout : RecordLayout}
    (hlayout : registry.layout? typeId = some layout) (name : String) :
    some layout.id = registry.lookup? name ↔ layout.name = name := by
  rw [h.id_eq typeId layout hlayout, eq_comm, h.lookup_iff]
  constructor
  · rintro ⟨other, hother, hname⟩
    rw [hlayout, Option.some_inj] at hother
    rw [hother, hname]
  · intro hname
    exact ⟨layout, hlayout, hname⟩

/-- **All ways to the instances of an image agree.**  The ranges are all those of the range table.
There are as many instances as the header says; each stands where its word of the directory points
to and has the type of the range that covers its position.  Asked for a position, the view shows the
instance there, and none behind the last.  Asked for a name, it shows the instances whose type has
that name, in order. -/
theorem View.enumerates_of_ofBytes {registry : Registry} (hexact : registry.Exact) {base : Nat}
    {bytes : Bytes} {view : View} (hview : View.ofBytes registry base bytes = .ok view) :
    view.Spells registry base bytes ∧ view.Enumerates := by
  obtain ⟨found, haccepted, rfl⟩ := (View.ofBytes_eq_ok_iff hexact.sound).1 hview
  obtain ⟨schema, config, hbuild⟩ := hexact
  have hregistry := Registry.lists_of_build hbuild
  have hframed := haccepted.toFramed
  obtain ⟨hrangesAt, -⟩ := region_eq_ok_iff.1 hframed.rangesAt
  obtain ⟨hdirectoryAt, -⟩ := region_eq_ok_iff.1 hframed.directoryAt
  refine ⟨⟨rfl, rfl, rfl, hframed.header, hrangesAt, hdirectoryAt⟩, ?_, hframed.length_instances,
    ?_, hframed.instance?_eq, ?_, ?_⟩
  · obtain ⟨ranges, hranges, -⟩ := hframed.listed
    have hdecoded := hranges.imp fun _ _ hrange => Bytes.readRange_eq_ok_iff.1 hrange
    have hsame : (found.view registry base bytes).ranges = ranges :=
      filterMap_eq_of_forall₂ hdecoded
    rw [hsame]
    exact hdecoded
  · intro index record hrecord
    obtain ⟨typeId, entry, hspread, ⟨layout, hlayout, hentry⟩, rfl⟩ :=
      hframed.lists_of_getElem? hrecord
    obtain ⟨range, hcovers, rfl⟩ := Range.getElem?_spread_eq_some_iff.1 hspread
    obtain ⟨rfl, -, -, hword⟩ := readEntry_eq_ok_iff.1 hentry
    exact ⟨rfl, hword, range, hcovers, hlayout⟩
  · intro index
    rw [hframed.instance?_eq, List.getElem?_eq_none_iff, hframed.length_instances]
    rfl
  · intro name
    refine List.filter_congr ?_
    intro record hrecord
    obtain ⟨entry, hentry, rfl⟩ := hframed.mem_instances_iff.1 hrecord
    obtain ⟨typeId, hlayout⟩ := (hframed.fits entry hentry).known
    exact decide_eq_decide.2 (hregistry.lookup_eq_iff hlayout name)

namespace Sample

/-- An image of the sample scene whose ranges and directory are in another order than its types. -/
def unordered : Bytes :=
  [48, 2, 32, 2, 4294967297, 4294967296, 112, 64, 7, 0, 128, 0, 64, 0, 128, 0].flatMap
    (Word.encode Address.width) ++ [97, 0]

/-- The view of that image. -/
def unorderedView : View := ⟨Sample.registry, 0, unordered, ⟨48, 2, 32, 2⟩, 32, 48⟩

theorem ofBytes_unordered : View.ofBytes Sample.registry 0 unordered = .ok unorderedView := by
  cbv

end Sample

/-- The ranges of that image are taken in the order of its table. -/
theorem View.enumerates_of_ofBytes_sample :
    Sample.registry.Exact ∧
      View.ofBytes Sample.registry 0 Sample.unordered = .ok Sample.unorderedView ∧
      Sample.unorderedView.ranges = [⟨1, 1⟩, ⟨0, 1⟩] ∧
      (Sample.unorderedView.instances.map fun record => record.layout.name) = ["Tag", "Node"] ∧
      Sample.unorderedView.Spells Sample.registry 0 Sample.unordered ∧
      Sample.unorderedView.Enumerates := by
  obtain ⟨hspells, henumerates⟩ :=
    View.enumerates_of_ofBytes Sample.exact Sample.ofBytes_unordered
  exact ⟨Sample.exact, Sample.ofBytes_unordered, by cbv, by cbv, hspells, henumerates⟩

end ScenePack
