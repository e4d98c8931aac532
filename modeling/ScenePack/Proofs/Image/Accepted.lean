/-
**Accepted images.**

`scan` checks an image step by step and stops at the first failure.  An image is accepted if it has
the properties that are listed here all at once: tables that lie inside and are aligned, ranges of
known types that cover the directory, records that lie inside and are aligned, disjoint regions,
and pointers that lead to texts or to records.

Main definitions:

* `Range.spread` — the types of the instances that ranges cover;
* `Scan.regions`, `Scan.pointers` — the spans of the fixed parts, and the pointers of the records;
* `Scan.Leads` — where a pointer leads;
* `Framed`, `Accepted` — the images whose fixed parts are in place, and the accepted images.

Main results:

* `readEntries_eq_ok_iff` — the loop over the ranges reads the records that the ranges cover;
* `scan_eq_ok_iff` — **a scan succeeds exactly on the accepted images**.
-/

import ScenePack.Proofs.Agreement
import ScenePack.Proofs.Image.Spans
import ScenePack.Proofs.Layout.Sound

set_option relaxedAutoImplicit false
set_option autoImplicit false

namespace ScenePack

/-! ### Pointers and regions -/

/-- A pointer leads to a position if it is the base plus the position. -/
theorem offsetOf_eq_ok_iff {value base length offset : Nat} :
    offsetOf value base length = .ok offset ↔ value = base + offset ∧ offset < length := by
  unfold offsetOf
  split
  · rw [Except.ok.injEq]
    omega
  · constructor
    · intro h
      cases h
    · omega

/-- A pointer leads to a region if it is the base plus the start of the region. -/
theorem region_eq_ok_iff {value base length count size align offset : Nat} :
    region value base length count size align = .ok offset ↔
      value = base + offset ∧ offset + count * size ≤ length ∧ offset % align = 0 := by
  unfold region
  split
  · next hinside =>
      split
      · rw [Except.ok.injEq]
        constructor
        · rintro rfl
          exact ⟨by omega, hinside.2, by assumption⟩
        · omega
      · next halign =>
          constructor
          · intro h
            cases h
          · rintro ⟨rfl, -, h⟩
            rw [Nat.add_sub_cancel_left] at halign
            exact absurd h halign
  · next houtside =>
      constructor
      · intro h
        cases h
      · rintro ⟨rfl, h, -⟩
        rw [Nat.add_sub_cancel_left] at houtside
        exact absurd ⟨Nat.le_add_right _ _, h⟩ houtside

/-! ### The records that ranges cover -/

/-- The types of the instances that ranges cover, in order. -/
def Range.spread (ranges : List Range) : List TypeId :=
  ranges.flatMap fun range => List.replicate range.count range.typeId

theorem Range.spread_cons (range : Range) (ranges : List Range) :
    Range.spread (range :: ranges) = List.replicate range.count range.typeId ++ spread ranges :=
  List.flatMap_cons

/-- The directory has a record of the type at a place of the ranges. -/
def Lists (registry : Registry) (bytes : Bytes) (base directoryAt : Nat) (place : TypeId × Nat)
    (entry : Entry) : Prop :=
  ∃ layout, registry.layout? place.1 = some layout ∧
    readEntry bytes base directoryAt layout place.2 = .ok entry

theorem zipIdx_replicate (typeId count first : Nat) :
    (List.replicate count typeId).zipIdx first =
      (List.range count).map fun i => (typeId, first + i) := by
  refine List.ext_getElem (by simp) ?_
  intro i h₁ h₂
  simp

theorem forall₂_lists_replicate_iff {registry : Registry} {bytes : Bytes}
    {base directoryAt typeId count first : Nat} {layout : RecordLayout} {entries : List Entry}
    (h : registry.layout? typeId = some layout) :
    List.Forall₂ (Lists registry bytes base directoryAt)
        ((List.replicate count typeId).zipIdx first) entries ↔
      List.Forall₂ (fun i entry => readEntry bytes base directoryAt layout (first + i) = .ok entry)
        (List.range count) entries := by
  rw [zipIdx_replicate, List.forall₂_map_left_iff]
  have hlists : ∀ i entry, Lists registry bytes base directoryAt (typeId, first + i) entry ↔
      readEntry bytes base directoryAt layout (first + i) = .ok entry := by
    intro i entry
    simp [Lists, h]
  simp only [hlists]

/-- **The loop over the ranges** succeeds with the full count of instances exactly if every range
is read and known, the ranges cover that count, and the directory lists the records they cover. -/
theorem readEntries_eq_ok_iff {registry : Registry} {bytes : Bytes}
    {base rangesAt directoryAt limit remaining index total : Nat} {entries result : List Entry} :
    readEntries registry bytes base rangesAt directoryAt limit remaining index total entries =
        .ok (limit, result) ↔
      ∃ ranges, List.Forall₂
          (fun index range => bytes.readRange (rangesAt + index * Range.size) = .ok range)
          (List.range' index remaining) ranges ∧
        (∀ range ∈ ranges, ∃ layout, registry.layout? range.typeId = some layout) ∧
        total + (Range.spread ranges).length = limit ∧
        ∃ new, List.Forall₂ (Lists registry bytes base directoryAt)
            ((Range.spread ranges).zipIdx total) new ∧
          result = entries ++ new := by
  induction remaining generalizing index total entries with
  | zero =>
      rw [readEntries, Except.ok.injEq, Prod.mk.injEq, List.range'_zero]
      constructor
      · rintro ⟨rfl, rfl⟩
        exact ⟨[], .nil, fun _ h => absurd h List.not_mem_nil, rfl, [], .nil,
          (List.append_nil _).symm⟩
      · rintro ⟨ranges, hranges, -, htotal, new, hnew, rfl⟩
        obtain rfl := List.forall₂_nil_left_iff.1 hranges
        obtain rfl := List.forall₂_nil_left_iff.1 hnew
        exact ⟨htotal, (List.append_nil _).symm⟩
  | succ remaining ih =>
      rw [readEntries, bind_eq_ok_iff, List.range'_succ]
      constructor
      · rintro ⟨range, hrange, h⟩
        split at h
        · cases h
        next layout hlayout =>
        split at h
        · next hpast =>
            -- a count past the limit is not the limit
            have hlimit := (Prod.mk.inj (Except.ok.inj h)).1
            omega
        obtain ⟨run, hrun, hrest⟩ := bind_eq_ok_iff.1 h
        obtain ⟨ranges, hranges, hknown, htotal, new, hnew, rfl⟩ := ih.1 hrest
        refine ⟨range :: ranges, .cons hrange hranges, ?_, ?_, run ++ new, ?_, ?_⟩
        · exact List.forall_mem_cons.2 ⟨⟨layout, hlayout⟩, hknown⟩
        · rw [Range.spread_cons, List.length_append, List.length_replicate]
          omega
        · rw [Range.spread_cons, List.zipIdx_append, List.length_replicate]
          exact List.rel_append ((forall₂_lists_replicate_iff hlayout).2 (mapM_eq_ok_iff.1 hrun))
            hnew
        · rw [List.append_assoc]
      · rintro ⟨_, hall, hknown, htotal, _, hlists, rfl⟩
        obtain ⟨range, ranges, hrange, hranges, rfl⟩ := List.forall₂_cons_left_iff.1 hall
        obtain ⟨⟨layout, hlayout⟩, hknown⟩ := List.forall_mem_cons.1 hknown
        rw [Range.spread_cons, List.length_append, List.length_replicate] at htotal
        rw [Range.spread_cons, List.zipIdx_append, List.length_replicate] at hlists
        obtain ⟨run, new, hrun, hnew, rfl⟩ := exists_append_of_forall₂ hlists
        refine ⟨range, hrange, ?_⟩
        rw [hlayout]
        dsimp only
        rw [if_neg (by omega), bind_eq_ok_iff]
        refine ⟨run, mapM_eq_ok_iff.2 ((forall₂_lists_replicate_iff hlayout).1 hrun), ?_⟩
        exact ih.2 ⟨ranges, hranges, hknown, by omega, new, hnew, (List.append_assoc _ _ _).symm⟩

/-- The loop over all ranges. -/
theorem readEntries_all_eq_ok_iff {registry : Registry} {bytes : Bytes}
    {base rangesAt directoryAt count rangeCount : Nat} {entries : List Entry} :
    readEntries registry bytes base rangesAt directoryAt count rangeCount 0 0 [] =
        .ok (count, entries) ↔
      ∃ ranges, List.Forall₂
          (fun index range => bytes.readRange (rangesAt + index * Range.size) = .ok range)
          (List.range rangeCount) ranges ∧
        (∀ range ∈ ranges, ∃ layout, registry.layout? range.typeId = some layout) ∧
        (Range.spread ranges).length = count ∧
        List.Forall₂ (Lists registry bytes base directoryAt) (Range.spread ranges).zipIdx
          entries := by
  rw [readEntries_eq_ok_iff, List.range_eq_range']
  simp only [Nat.zero_add, List.nil_append, exists_eq_right']

/-! ### What a scan looks at -/

namespace Entry

/-- The positions of a record. -/
def span (entry : Entry) : Span := ⟨entry.offset, entry.offset + entry.layout.size⟩

/-- The pointers of a record, by their positions in the image. -/
def pointers (entry : Entry) : List PointerSlot :=
  entry.layout.slots.map (PointerSlot.shift entry.offset)

end Entry

namespace Scan

/-- The span of the range table. -/
def rangeTable (found : Scan) : Span :=
  ⟨found.rangesAt, found.rangesAt + found.header.rangeCount * Range.size⟩

/-- The span of the directory. -/
def directory (found : Scan) : Span :=
  ⟨found.directoryAt, found.directoryAt + found.header.count * Address.width⟩

/-- The spans of the header, the tables and the records. -/
def regions (found : Scan) : List Span :=
  ⟨0, Header.size⟩ :: found.rangeTable :: found.directory :: found.entries.map Entry.span

/-- The pointers of all records, by their positions in the image. -/
def pointers (found : Scan) : List PointerSlot := found.entries.flatMap Entry.pointers

/-- A pointer leads to a text that starts outside all regions, or to a record of the directory that
has the right type. -/
def Leads (found : Scan) (bytes : Bytes) (base : Nat) (kind : SlotKind) (value : Nat) : Prop :=
  ∃ target, offsetOf value base bytes.length = .ok target ∧
    match kind with
    | .text => (∀ region ∈ found.regions, ¬region.Contains target) ∧
        ∃ text, bytes.readText target = .ok text
    | .ref expected => ∃ entry ∈ found.entries, entry.offset = target ∧ entry.layout.id = expected

end Scan

/-- The positions of pointers that lead somewhere. -/
def Bytes.nonNull (bytes : Bytes) (pointers : List PointerSlot) : List Nat :=
  (pointers.map PointerSlot.offset).filter fun position =>
    bytes.word? Address.width position ≠ some 0

/-- The images whose fixed parts are in place: the tables lie inside, the directory lists the
records that the ranges cover, and no two parts overlap. -/
structure Framed (registry : Registry) (base : Nat) (bytes : Bytes) (found : Scan) : Prop where
  header : bytes.readHeader = .ok found.header
  rangesAt : region found.header.ranges base bytes.length found.header.rangeCount Range.size
    Range.align = .ok found.rangesAt
  directoryAt : region found.header.directory base bytes.length found.header.count Address.width
    Address.width = .ok found.directoryAt
  listed : ∃ ranges, List.Forall₂
      (fun index range => bytes.readRange (found.rangesAt + index * Range.size) = .ok range)
      (List.range found.header.rangeCount) ranges ∧
    (∀ range ∈ ranges, ∃ layout, registry.layout? range.typeId = some layout) ∧
    (Range.spread ranges).length = found.header.count ∧
    List.Forall₂ (Lists registry bytes base found.directoryAt) (Range.spread ranges).zipIdx
      found.entries
  disjoint : found.regions.Pairwise Span.Disjoint

/-- **The accepted images**, with what a scan finds in them: the fixed parts are in place, and every
pointer is null or leads somewhere. -/
structure Accepted (registry : Registry) (base : Nat) (bytes : Bytes) (found : Scan) : Prop
    extends Framed registry base bytes found where
  leads : ∀ pointer ∈ found.pointers, ∃ value, bytes.readSlot pointer.offset = .ok value ∧
    (value ≠ 0 → found.Leads bytes base pointer.kind value)
  slots_eq : found.slots =
    tableSlots found.directoryAt found.header.count ++ bytes.nonNull found.pointers

/-! ### The records of an accepted image -/

/-- What the directory lists is a record of a type of the registry that lies inside. -/
structure Entry.Fits (registry : Registry) (length : Nat) (entry : Entry) : Prop where
  known : ∃ position, registry.layout? position = some entry.layout
  inside : entry.offset + entry.layout.size ≤ length
  aligned : entry.offset % entry.layout.align = 0

theorem readEntry_eq_ok_iff {bytes : Bytes} {base directoryAt index : Nat} {layout : RecordLayout}
    {entry : Entry} :
    readEntry bytes base directoryAt layout index = .ok entry ↔
      entry.layout = layout ∧ entry.offset + layout.size ≤ bytes.length ∧
        entry.offset % layout.align = 0 ∧
        bytes.readSlot (directoryAt + index * Address.width) = .ok (base + entry.offset) := by
  rw [readEntry, bind_eq_ok_iff]
  constructor
  · rintro ⟨value, hvalue, h⟩
    obtain ⟨offset, hoffset, hentry⟩ := bind_eq_ok_iff.1 h
    cases hentry
    obtain ⟨rfl, hinside, halign⟩ := region_eq_ok_iff.1 hoffset
    rw [Nat.one_mul] at hinside
    exact ⟨rfl, hinside, halign, hvalue⟩
  · rintro ⟨rfl, hinside, halign, hvalue⟩
    refine ⟨_, hvalue, bind_eq_ok_iff.2 ⟨entry.offset, ?_, rfl⟩⟩
    exact region_eq_ok_iff.2 ⟨rfl, by rwa [Nat.one_mul], halign⟩

theorem fits_of_forall₂_lists {registry : Registry} {bytes : Bytes} {base directoryAt : Nat}
    {places : List (TypeId × Nat)} {entries : List Entry}
    (h : List.Forall₂ (Lists registry bytes base directoryAt) places entries) :
    ∀ entry ∈ entries, entry.Fits registry bytes.length := by
  induction h with
  | nil => exact fun _ h => absurd h List.not_mem_nil
  | cons hlists _ ih =>
      refine List.forall_mem_cons.2 ⟨?_, ih⟩
      obtain ⟨layout, hlayout, hentry⟩ := hlists
      obtain ⟨rfl, hinside, halign, -⟩ := readEntry_eq_ok_iff.1 hentry
      exact ⟨⟨_, hlayout⟩, hinside, halign⟩

/-- Disjoint records that are not empty have different positions. -/
theorem eq_of_offset_eq {entries : List Entry}
    (hdisjoint : (entries.map Entry.span).Pairwise Span.Disjoint)
    (hpositive : ∀ entry ∈ entries, 0 < entry.layout.size) {a b : Entry} (ha : a ∈ entries)
    (hb : b ∈ entries) (h : a.offset = b.offset) : a = b := by
  by_contra hne
  have hsymm : Std.Symm fun a b : Entry => a.span.Disjoint b.span := ⟨fun _ _ h => h.symm⟩
  have hapart : a.span.Disjoint b.span := (List.pairwise_map.1 hdisjoint).forall ha hb hne
  have hpa := hpositive a ha
  have hpb := hpositive b hb
  refine hapart a.offset ?_
  simp only [Span.Contains, Entry.span]
  omega

/-! ### A scan, step by step -/

/-- The fixed parts pass exactly if they are disjoint. -/
theorem structureSpans_eq_ok_iff {found : Scan} {spans : List Span} :
    structureSpans found.header found.rangesAt found.directoryAt found.entries = .ok spans ↔
      found.regions.Pairwise Span.Disjoint ∧ spans = Span.sorted found.regions := by
  rw [← Span.firstOverlap?_sorted_eq_none_iff, structureSpans]
  split
  · next offset hoverlap =>
      have hsome : Span.firstOverlap? (Span.sorted found.regions) = some offset := hoverlap
      simp [hsome]
  · next hoverlap =>
      have hnone : Span.firstOverlap? (Span.sorted found.regions) = none := hoverlap
      have hspans : Except.ok (Span.sorted found.regions) = (.ok spans : Except ImageError _) ↔
          spans = Span.sorted found.regions := by
        rw [Except.ok.injEq, eq_comm]
      rw [hnone, eq_self_iff_true, true_and]
      exact hspans

theorem Scan.covers_regions_iff {found : Scan} (h : found.regions.Pairwise Span.Disjoint)
    (position : Nat) :
    Span.covers (Span.sorted found.regions) position = true ↔
      ∃ region ∈ found.regions, region.Contains position := by
  have hpositive : ∀ span ∈ Span.sorted found.regions, span.start < span.stop :=
    fun span hspan => (Span.mem_sorted.1 hspan).2
  have hordered := Span.pairwise_of_firstOverlap? hpositive
    (Span.firstOverlap?_sorted_eq_none_iff.2 h)
  rw [Span.covers_iff hpositive hordered]
  constructor
  · rintro ⟨span, hspan, hcontains⟩
    exact ⟨span, (Span.mem_sorted.1 hspan).1, hcontains⟩
  · rintro ⟨span, hspan, hcontains⟩
    exact ⟨span, Span.mem_sorted.2 ⟨hspan, Nat.lt_of_le_of_lt hcontains.1 hcontains.2⟩, hcontains⟩

/-- What the check of a pointer reports: its position, unless it leads nowhere. -/
def reported (bytes : Bytes) (position : Nat) : Option Nat :=
  if bytes.word? Address.width position = some 0 then none else some position

/-- **The check of a pointer** passes if it is null or leads somewhere. -/
theorem checkSlot_eq_ok_iff {registry : Registry} {bytes : Bytes} {base : Nat} {found : Scan}
    (hdisjoint : found.regions.Pairwise Span.Disjoint)
    (hunique : ∀ a ∈ found.entries, ∀ b ∈ found.entries, a.offset = b.offset → a = b)
    {entry : Entry} {slot : PointerSlot} {result : Option Nat} :
    checkSlot registry bytes base (Span.sorted found.regions) found.entries entry slot =
        .ok result ↔
      (∃ value, bytes.readSlot (entry.offset + slot.offset) = .ok value ∧
        (value ≠ 0 → found.Leads bytes base slot.kind value)) ∧
      result = reported bytes (entry.offset + slot.offset) := by
  rw [checkSlot, bind_eq_ok_iff]
  have hread : ∀ {value}, bytes.readSlot (entry.offset + slot.offset) = .ok value →
      reported bytes (entry.offset + slot.offset) =
        if value = 0 then none else some (entry.offset + slot.offset) := by
    intro value hvalue
    simp only [reported, Bytes.readSlot_eq_ok_iff.1 hvalue, Option.some_inj]
  constructor
  · rintro ⟨value, hvalue, h⟩
    rw [hread hvalue]
    split at h
    · next hzero =>
        cases h
        exact ⟨⟨value, hvalue, fun hne => absurd hzero hne⟩, (if_pos hzero).symm⟩
    next hne =>
    obtain ⟨target, htarget, h⟩ := bind_eq_ok_iff.1 h
    rw [if_neg hne]
    split at h
    · next hkind =>
        split at h
        · cases h
        next hcovers =>
        obtain ⟨text, htext, hok⟩ := bind_eq_ok_iff.1 h
        cases hok
        refine ⟨⟨value, hvalue, fun _ => ⟨target, htarget, ?_⟩⟩, rfl⟩
        rw [hkind]
        refine ⟨fun region hregion hcontains => hcovers ?_, text, htext⟩
        exact (found.covers_regions_iff hdisjoint target).2 ⟨region, hregion, hcontains⟩
    · next expected hkind =>
        split at h
        · cases h
        next other hfind =>
        split at h
        · next hid =>
            cases h
            have hoffset : other.offset = target := by simpa using List.find?_some hfind
            refine ⟨⟨value, hvalue, fun _ => ⟨target, htarget, ?_⟩⟩, rfl⟩
            rw [hkind]
            exact ⟨other, List.mem_of_find?_eq_some hfind, hoffset, hid⟩
        · cases h
  · rintro ⟨⟨value, hvalue, hleads⟩, rfl⟩
    refine ⟨value, hvalue, ?_⟩
    rw [hread hvalue]
    by_cases hzero : value = 0
    · rw [if_pos hzero, if_pos hzero]
    obtain ⟨target, htarget, hkind⟩ := hleads hzero
    rw [if_neg hzero, if_neg hzero, bind_eq_ok_iff]
    refine ⟨target, htarget, ?_⟩
    split
    · next htext =>
        rw [htext] at hkind
        obtain ⟨houtside, text, hreads⟩ := hkind
        have hcovers : ¬Span.covers (Span.sorted found.regions) target = true := fun h =>
          have ⟨region, hregion, hcontains⟩ := (found.covers_regions_iff hdisjoint target).1 h
          houtside region hregion hcontains
        rw [if_neg hcovers]
        exact bind_eq_ok_iff.2 ⟨text, hreads, rfl⟩
    · next expected href =>
        rw [href] at hkind
        obtain ⟨other, hother, hoffset, hid⟩ := hkind
        cases hfind : found.entries.find? fun other => other.offset = target with
        | none =>
            have := List.find?_eq_none.1 hfind other hother
            simp [hoffset] at this
        | some first =>
            -- there is only one record at the position
            have hfirst : first.offset = target := by simpa using List.find?_some hfind
            have heq := hunique first (List.mem_of_find?_eq_some hfind) other hother
              (hfirst.trans hoffset.symm)
            dsimp only
            rw [if_pos (heq ▸ hid)]

/-- What the checks of all pointers report, together. -/
theorem filterMap_reported (bytes : Bytes) (pointers : List PointerSlot) :
    (pointers.map fun pointer => reported bytes pointer.offset).filterMap id =
      bytes.nonNull pointers := by
  induction pointers with
  | nil => rfl
  | cons pointer rest ih =>
      rw [List.map_cons, List.filterMap_cons, ih, Bytes.nonNull, Bytes.nonNull, List.map_cons,
        List.filter_cons]
      by_cases hnull : bytes.word? Address.width pointer.offset = some 0
      · simp [reported, hnull]
      · simp [reported, hnull]

/-- The checks of all pointers pass if each of them is null or leads somewhere. -/
theorem mapM_checkSlot_eq_ok_iff {registry : Registry} {bytes : Bytes} {base : Nat} {found : Scan}
    (hdisjoint : found.regions.Pairwise Span.Disjoint)
    (hunique : ∀ a ∈ found.entries, ∀ b ∈ found.entries, a.offset = b.offset → a = b)
    {results : List (Option Nat)} :
    (found.entries.flatMap fun entry => entry.layout.slots.map (entry, ·)).mapM
        (fun place => checkSlot registry bytes base (Span.sorted found.regions) found.entries
          place.1 place.2) = .ok results ↔
      (∀ pointer ∈ found.pointers, ∃ value, bytes.readSlot pointer.offset = .ok value ∧
        (value ≠ 0 → found.Leads bytes base pointer.kind value)) ∧
      results = found.pointers.map fun pointer => reported bytes pointer.offset := by
  have hpointers : found.pointers =
      (found.entries.flatMap fun entry => entry.layout.slots.map (entry, ·)).map
        fun place => place.2.shift place.1.offset := by
    rw [Scan.pointers, List.map_flatMap]
    simp only [List.map_map]
    rfl
  rw [mapM_eq_ok_iff]
  simp only [checkSlot_eq_ok_iff hdisjoint hunique]
  rw [List.forall₂_and_left, hpointers, List.forall_mem_map, List.map_map]
  refine and_congr_right ?_
  intro _
  exact forall₂_eq_map_iff

/-! ### Scans and accepted images -/

theorem Entry.Fits.size_pos {registry : Registry} (hsound : registry.Sound) {length : Nat}
    {entry : Entry} (h : entry.Fits registry length) : 0 < entry.layout.size := by
  obtain ⟨position, hlayout⟩ := h.known
  exact (hsound position _ hlayout).2.size_pos

/-- No two records of disjoint regions have the same position. -/
theorem Scan.unique_of_fits {registry : Registry} (hsound : registry.Sound) {found : Scan}
    {length : Nat} (hfits : ∀ entry ∈ found.entries, entry.Fits registry length)
    (hdisjoint : found.regions.Pairwise Span.Disjoint) :
    ∀ a ∈ found.entries, ∀ b ∈ found.entries, a.offset = b.offset → a = b := by
  intro a ha b hb h
  refine eq_of_offset_eq ?_ (fun entry hentry => (hfits entry hentry).size_pos hsound) ha hb h
  simp only [Scan.regions, List.pairwise_cons] at hdisjoint
  exact hdisjoint.2.2.2

theorem Framed.fits {registry : Registry} {base : Nat} {bytes : Bytes} {found : Scan}
    (h : Framed registry base bytes found) :
    ∀ entry ∈ found.entries, entry.Fits registry bytes.length := by
  obtain ⟨_, _, _, _, hlists⟩ := h.listed
  exact fits_of_forall₂_lists hlists

/-- **A scan succeeds exactly on the accepted images.** -/
theorem scan_eq_ok_iff {registry : Registry} (hsound : registry.Sound) {base : Nat} {bytes : Bytes}
    {found : Scan} : scan registry base bytes = .ok found ↔ Accepted registry base bytes found := by
  constructor
  · intro h
    obtain ⟨header, hheader, h⟩ := bind_eq_ok_iff.1 h
    obtain ⟨rangesAt, hrangesAt, h⟩ := bind_eq_ok_iff.1 h
    obtain ⟨directoryAt, hdirectoryAt, h⟩ := bind_eq_ok_iff.1 h
    obtain ⟨⟨total, entries⟩, hentries, h⟩ := bind_eq_ok_iff.1 h
    dsimp only at h
    split at h
    · cases h
    next htotal =>
    obtain rfl := Decidable.not_not.1 htotal
    obtain ⟨spans, hspans, h⟩ := bind_eq_ok_iff.1 h
    obtain ⟨results, hresults, hok⟩ := bind_eq_ok_iff.1 h
    have hlisted := readEntries_all_eq_ok_iff.1 hentries
    have hfits := fits_of_forall₂_lists hlisted.choose_spec.2.2.2
    have hfound := Except.ok.inj hok
    have hregions : found.header = header ∧ found.rangesAt = rangesAt ∧
        found.directoryAt = directoryAt ∧ found.entries = entries := by
      rw [← hfound]
      exact ⟨rfl, rfl, rfl, rfl⟩
    obtain ⟨rfl, rfl, rfl, rfl⟩ := hregions
    obtain ⟨hdisjoint, rfl⟩ := structureSpans_eq_ok_iff.1 hspans
    have hunique := found.unique_of_fits hsound hfits hdisjoint
    obtain ⟨hleads, rfl⟩ := (mapM_checkSlot_eq_ok_iff hdisjoint hunique).1 hresults
    rw [filterMap_reported] at hfound
    exact ⟨⟨hheader, hrangesAt, hdirectoryAt, hlisted, hdisjoint⟩, hleads,
      (congrArg Scan.slots hfound).symm⟩
  · intro h
    have hunique := found.unique_of_fits hsound h.fits h.disjoint
    refine bind_eq_ok_iff.2 ⟨_, h.header, bind_eq_ok_iff.2 ⟨_, h.rangesAt, bind_eq_ok_iff.2
      ⟨_, h.directoryAt, bind_eq_ok_iff.2 ⟨_, readEntries_all_eq_ok_iff.2 h.listed, ?_⟩⟩⟩⟩
    dsimp only
    rw [if_neg (Decidable.not_not.2 rfl)]
    refine bind_eq_ok_iff.2 ⟨_, structureSpans_eq_ok_iff.2 ⟨h.disjoint, rfl⟩, bind_eq_ok_iff.2
      ⟨_, (mapM_checkSlot_eq_ok_iff h.disjoint hunique).2 ⟨h.leads, rfl⟩, ?_⟩⟩
    rw [filterMap_reported, ← h.slots_eq]

end ScenePack
