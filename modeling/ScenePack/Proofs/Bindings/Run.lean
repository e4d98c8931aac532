/-
**The run of a fixup.**

A fixup goes through the ranges of a loaded image.  It shifts the directory entry of each instance,
finds the record through the shifted entry, and then shifts the pointers of the record that are not
zero.  A relocation scans the whole image before it changes anything, and it changes the words in
another order.

In an accepted image all these words lie apart from each other, from the range table and from the
counts of the header.  So whatever the fixup reads is either as it was, or a word that it has
shifted itself, and it ends with the same bytes.

Main definitions:

* `Scan.fixupWords` — the words that are changed, in the order of the fixup;
* `Scan.Shifted` — a fixup on its way: some of these words have been shifted.

Main results:

* `Accepted.perm_fixupWords` — a fixup and a relocation change the same words;
* `Shifted.shift`, `Shifted.rebase`, `Shifted.runEntry`, `Shifted.runRanges` — **what every part of
  a fixup does**;
* `Fixup.run_ofRegistry` — **the fixup of a registry does what a relocation does**.
-/

import ScenePack.Bindings.Fixup
import ScenePack.Proofs.Image.Relocation

set_option relaxedAutoImplicit false
set_option autoImplicit false

namespace ScenePack

/-! ### The order of a fixup -/

/-- The words of an instance at an index of the directory: its entry, and the pointers of its record
that lead somewhere. -/
def Entry.fixupWords (bytes : Bytes) (directoryAt : Nat) (place : Entry × Nat) : List Nat :=
  (directoryAt + place.2 * Address.width) :: bytes.nonNull place.1.pointers

/-- The words that are changed, in the order of the fixup. -/
def Scan.fixupWords (found : Scan) (bytes : Bytes) : List Nat :=
  Header.directorySlot :: Header.rangesSlot ::
    found.entries.zipIdx.flatMap (Entry.fixupWords bytes found.directoryAt)

namespace Accepted

variable {registry : Registry} {base : Nat} {bytes : Bytes} {found : Scan}

theorem length_entries (h : Accepted registry base bytes found) :
    found.entries.length = found.header.count := by
  obtain ⟨ranges, -, -, hcount, hlists⟩ := h.listed
  rw [← hlists.length_eq, List.length_zipIdx, hcount]

/-- **A fixup and a relocation change the same words.** -/
theorem perm_fixupWords (h : Accepted registry base bytes found) :
    (found.fixupWords bytes).Perm found.slots := by
  have hdirectory : (found.entries.zipIdx.flatMap fun place =>
      [found.directoryAt + place.2 * Address.width]) =
      (List.range found.header.count).map
        fun index => found.directoryAt + index * Address.width := by
    rw [← h.length_entries, List.range_eq_range', ← List.zipIdx_map_snd 0 found.entries,
      List.map_map, List.map_eq_flatMap]
    rfl
  have hpointers : (found.entries.zipIdx.flatMap fun place => bytes.nonNull place.1.pointers) =
      bytes.nonNull found.pointers := by
    rw [Bytes.nonNull, Scan.pointers, List.map_flatMap, List.filter_flatMap]
    conv_rhs => rw [← List.zipIdx_map_fst 0 found.entries, List.flatMap_map]
    rfl
  have hwords : Entry.fixupWords bytes found.directoryAt = fun place =>
      [found.directoryAt + place.2 * Address.width] ++ bytes.nonNull place.1.pointers := rfl
  rw [h.slots_eq, tableSlots, ← hdirectory, ← hpointers, Scan.fixupWords, hwords]
  exact ((List.flatMap_append_perm _ _ _).symm.cons _).cons _

/-- The words that a fixup changes lie apart. -/
theorem pairwise_fixupWords (h : Accepted registry base bytes found) (hsound : registry.Sound) :
    (found.fixupWords bytes).Pairwise WordsApart :=
  (h.perm_fixupWords.pairwise_iff WordsApart.symm).2 (h.pairwise_slots hsound)

end Accepted

/-! ### A fixup on its way -/

/-- The words `done` have been shifted, and the words `rest` come next. -/
structure Scan.Shifted (found : Scan) (base : Nat) (bytes : Bytes) (done rest : List Nat)
    (current : Bytes) : Prop where
  order : done ++ rest = found.fixupWords bytes
  patched : Bytes.Patched base done bytes current

namespace Fixup

theorem load_eq (base : Nat) (bytes : Bytes) (position : Nat) :
    load base bytes (base + position) = bytes.word? Address.width position := by
  rw [load, if_pos (Nat.le_add_right _ _), Nat.add_sub_cancel_left]

theorem shift_eq {base position value : Nat} {bytes : Bytes}
    (hvalue : bytes.word? Address.width position = some value)
    (hfits : base + value < Address.space) :
    shift base bytes (base + position) =
      some (bytes.overwrite position (Word.encode Address.width (base + value))) := by
  have hinside := Bytes.le_of_word? hvalue
  rw [shift, load_eq, hvalue]
  change store base bytes (base + position) _ = _
  rw [store, Nat.add_sub_cancel_left, if_pos ⟨Nat.le_add_right _ _, hinside⟩,
    Address.wrap_of_lt hfits]

theorem rebase_eq {base position value : Nat} {bytes : Bytes}
    (hvalue : bytes.word? Address.width position = some value) :
    rebase base bytes (base + position) =
      if value = 0 then some bytes else shift base bytes (base + position) := by
  rw [rebase, load_eq, hvalue]
  rfl

theorem runRanges_succ {fixup : Fixup} {base directory remaining first index table : Nat}
    {range : Range} {bytes next : Bytes}
    (htable : bytes.word? Address.width Header.rangesSlot = some (base + table))
    (hrange : Range.decode? bytes (table + first * Range.size) = some range)
    (hentries : (List.range range.count).foldlM (fun bytes i =>
      fixup.runEntry base range.typeId bytes (directory + (index + i) * Address.width)) bytes =
        some next) :
    fixup.runRanges base directory (remaining + 1) first index bytes =
      fixup.runRanges base directory remaining (first + 1) (index + range.count) next := by
  have hstart : base ≤ base + table + first * Range.size := by omega
  have hposition : base + table + first * Range.size - base = table + first * Range.size := by omega
  simp only [runRanges, load_eq, htable, Option.bind_eq_bind, Option.bind_some, hstart, if_true,
    hposition, hrange, hentries]

/-- The pointers of the records of a type, by its position. -/
theorem slotsOf_ofRegistry {registry : Registry} (hsound : registry.Sound) {typeId : TypeId}
    {layout : RecordLayout} (hlayout : registry.layout? typeId = some layout) :
    (ofRegistry registry).slotsOf typeId = layout.slots.map PointerSlot.offset := by
  rw [slotsOf]
  cases hfind : (ofRegistry registry).find? fun arm => arm.typeId = typeId with
  | some arm =>
      have htype : arm.typeId = typeId := by simpa using List.find?_some hfind
      obtain ⟨other, hother, harm⟩ := List.mem_filterMap.1 (List.mem_of_find?_eq_some hfind)
      split at harm
      · cases harm
      · cases harm
        obtain ⟨position, hposition⟩ := List.mem_iff_getElem?.1 hother
        obtain ⟨hid, -⟩ := hsound position other hposition
        obtain rfl : position = typeId := hid.symm.trans htype
        rw [Registry.layout?, hposition, Option.some_inj] at hlayout
        rw [hlayout]
  | none =>
      -- a type without an arm has no pointers
      have hid := (hsound typeId layout hlayout).1
      have hempty : layout.slots.isEmpty = true := by
        by_contra hslots
        refine absurd (List.find?_eq_none.1 hfind ⟨layout.id, layout.slots.map PointerSlot.offset⟩
          (List.mem_filterMap.2 ⟨layout, List.mem_of_getElem? hlayout, ?_⟩)) (by simpa using hid)
        rw [if_neg hslots]
      rw [List.isEmpty_iff.1 hempty, List.map_nil]

end Fixup

namespace Scan.Shifted

variable {registry : Registry} {base : Nat} {bytes current : Bytes} {found : Scan}
  {done rest : List Nat} {word : Nat}

/-- The words that come next lie apart from those that are done. -/
theorem apart (h : found.Shifted base bytes done (word :: rest) current)
    (haccepted : Accepted registry 0 bytes found) (hsound : registry.Sound) :
    ∀ other ∈ done, WordsApart other word := by
  have hpairwise := haccepted.pairwise_fixupWords hsound
  rw [← h.order] at hpairwise
  exact fun other hother =>
    (List.pairwise_append.1 hpairwise).2.2 other hother word List.mem_cons_self

/-- A word that is done is one of those that a relocation changes. -/
theorem mem_slots (h : found.Shifted base bytes done rest current)
    (haccepted : Accepted registry 0 bytes found) (hword : word ∈ done) : word ∈ found.slots :=
  haccepted.perm_fixupWords.subset (h.order ▸ List.mem_append_left rest hword)

/-- **The next word is shifted.** -/
theorem shift (h : found.Shifted base bytes done (word :: rest) current)
    (haccepted : Accepted registry 0 bytes found) (hsound : registry.Sound)
    (hspace : base + bytes.length < Address.space) :
    ∃ next, Fixup.shift base current (base + word) = some next ∧
      found.Shifted base bytes (done ++ [word]) rest next := by
  have happart := h.apart haccepted hsound
  have hword : word ∈ found.slots :=
    haccepted.perm_fixupWords.subset (h.order ▸ List.mem_append_right done List.mem_cons_self)
  obtain ⟨offset, hoffset, hvalue⟩ := haccepted.slot_value hword
  rw [Nat.zero_add] at hvalue
  refine ⟨_, Fixup.shift_eq ((h.patched.word_eq happart).trans hvalue) (by omega), ?_, ?_⟩
  · rw [← h.order, List.append_assoc, List.singleton_append]
  · exact h.patched.overwrite hvalue happart

theorem word_done (h : found.Shifted base bytes done rest current)
    (hspace : base + bytes.length < Address.space) (hword : word ∈ done) {value : Nat}
    (hvalue : bytes.word? Address.width word = some value) (hinside : value ≤ bytes.length) :
    current.word? Address.width word = some (base + value) := by
  rw [h.patched.word word hword value hvalue, Nat.mod_eq_of_lt (by omega)]

/-- A word that is done leads to where it led before. -/
theorem word_region (h : found.Shifted base bytes done rest current)
    (hspace : base + bytes.length < Address.space) (hword : word ∈ done)
    {value position count size align : Nat} (hvalue : bytes.word? Address.width word = some value)
    (hregion : region value 0 bytes.length count size align = .ok position) :
    current.word? Address.width word = some (base + position) := by
  obtain ⟨rfl, hinside, -⟩ := region_eq_ok_iff.1 hregion
  rw [Nat.zero_add] at hvalue
  exact h.word_done hspace hword hvalue (by omega)

/-- **The pointers of a record are shifted**, those that are zero left alone. -/
theorem rebase (haccepted : Accepted registry 0 bytes found) (hsound : registry.Sound)
    (hspace : base + bytes.length < Address.space) {slots : List PointerSlot} {offset : Nat}
    (hslots : ∀ slot ∈ slots, slot.shift offset ∈ found.pointers)
    (h : found.Shifted base bytes done
      (bytes.nonNull (slots.map (PointerSlot.shift offset)) ++ rest) current) :
    ∃ next, (slots.map PointerSlot.offset).foldlM
        (fun bytes slot => Fixup.rebase base bytes (Address.wrap (base + offset + slot))) current =
          some next ∧
      found.Shifted base bytes (done ++ bytes.nonNull (slots.map (PointerSlot.shift offset))) rest
        next := by
  induction slots generalizing done current with
  | nil => exact ⟨current, rfl, by simpa [Bytes.nonNull] using h⟩
  | cons slot slots ih =>
      obtain ⟨hslot, hslots⟩ := List.forall_mem_cons.1 hslots
      have hmem : offset + slot.offset ∈ found.words :=
        List.mem_append_right _ (List.mem_map_of_mem hslot)
      have hinside := haccepted.word_inside hsound hmem
      obtain ⟨value, hread, -⟩ := haccepted.leads _ hslot
      have hvalue : bytes.word? Address.width (offset + slot.offset) = some value :=
        Bytes.readSlot_eq_ok_iff.1 hread
      rw [List.map_cons] at h ⊢
      rw [List.map_cons, List.foldlM_cons, Address.wrap_of_lt (by omega), Nat.add_assoc]
      by_cases hnull : value = 0
      · -- no word that is done reaches into a null pointer
        have hskip : bytes.nonNull (slot.shift offset :: slots.map (PointerSlot.shift offset)) =
            bytes.nonNull (slots.map (PointerSlot.shift offset)) :=
          List.filter_cons_of_neg (by simp [PointerSlot.shift, hvalue, hnull])
        have hkept : current.word? Address.width (offset + slot.offset) = some value :=
          (h.patched.word_eq fun other hother => haccepted.null_apart hsound hslot
            (hnull ▸ hvalue) (h.mem_slots haccepted hother)).trans hvalue
        have hstep : Fixup.rebase base current (base + (offset + slot.offset)) = some current := by
          rw [Fixup.rebase_eq hkept, if_pos hnull]
        rw [hskip] at h ⊢
        rw [hstep]
        exact ih hslots h
      · have hnext : bytes.nonNull (slot.shift offset :: slots.map (PointerSlot.shift offset)) =
            (offset + slot.offset) :: bytes.nonNull (slots.map (PointerSlot.shift offset)) :=
          List.filter_cons_of_pos (by simp [PointerSlot.shift, hvalue, hnull])
        rw [hnext] at h ⊢
        have hkept := (h.patched.word_eq (h.apart haccepted hsound)).trans hvalue
        obtain ⟨next, hshift, hshifted⟩ := h.shift haccepted hsound hspace
        have hstep : Fixup.rebase base current (base + (offset + slot.offset)) = some next := by
          rw [Fixup.rebase_eq hkept, if_neg hnull, hshift]
        obtain ⟨after, hafter, hdone⟩ := ih hslots hshifted
        rw [hstep]
        refine ⟨after, hafter, ?_⟩
        rw [List.append_cons]
        exact hdone

/-- **The entry of an instance and its record are shifted.** -/
theorem runEntry (haccepted : Accepted registry 0 bytes found) (hsound : registry.Sound)
    (hspace : base + bytes.length < Address.space) {entry : Entry} {typeId : TypeId} {index : Nat}
    (hentry : entry ∈ found.entries)
    (hlists : Lists registry bytes 0 found.directoryAt (typeId, index) entry)
    (h : found.Shifted base bytes done
      (Entry.fixupWords bytes found.directoryAt (entry, index) ++ rest) current) :
    ∃ next, (Fixup.ofRegistry registry).runEntry base typeId current
        (base + found.directoryAt + index * Address.width) = some next ∧
      found.Shifted base bytes (done ++ Entry.fixupWords bytes found.directoryAt (entry, index))
        rest next := by
  obtain ⟨layout, hlayout, hread⟩ := hlists
  obtain ⟨rfl, hinside, -, hslot⟩ := readEntry_eq_ok_iff.1 hread
  have hvalue := Bytes.readSlot_eq_ok_iff.1 hslot
  rw [Nat.zero_add] at hvalue
  -- the entry comes first, and the record is found through it
  obtain ⟨middle, hmiddle, hshifted⟩ := h.shift haccepted hsound hspace
  have hrecord := hshifted.word_done hspace (by simp) hvalue (by omega)
  have hpointers : ∀ slot ∈ entry.layout.slots, slot.shift entry.offset ∈ found.pointers :=
    fun slot hslot => Scan.mem_pointers_iff.2 ⟨entry, hentry, slot, hslot, rfl⟩
  obtain ⟨next, hnext, hdone⟩ := rebase haccepted hsound hspace hpointers hshifted
  refine ⟨next, ?_, ?_⟩
  · rw [Fixup.runEntry, Nat.add_assoc, hmiddle]
    change (Fixup.load base middle _).bind _ = _
    rw [Fixup.load_eq, hrecord, Fixup.slotsOf_ofRegistry hsound hlayout]
    exact hnext
  · rw [Entry.fixupWords, List.append_cons]
    exact hdone

/-- **A list of instances is shifted**, one after the other. -/
theorem runEntries (haccepted : Accepted registry 0 bytes found) (hsound : registry.Sound)
    (hspace : base + bytes.length < Address.space) {types : List TypeId} {index : Nat}
    {entries : List Entry} (hentries : ∀ entry ∈ entries, entry ∈ found.entries)
    (hlists : List.Forall₂ (Lists registry bytes 0 found.directoryAt) (types.zipIdx index) entries)
    (h : found.Shifted base bytes done
      ((entries.zipIdx index).flatMap (Entry.fixupWords bytes found.directoryAt) ++ rest)
      current) :
    ∃ next, (types.zipIdx index).foldlM
        (fun bytes place => (Fixup.ofRegistry registry).runEntry base place.1 bytes
          (base + found.directoryAt + place.2 * Address.width)) current = some next ∧
      found.Shifted base bytes
        (done ++ (entries.zipIdx index).flatMap (Entry.fixupWords bytes found.directoryAt)) rest
        next := by
  induction types generalizing index entries done current with
  | nil =>
      obtain rfl := List.forall₂_nil_left_iff.1 hlists
      exact ⟨current, rfl, by simpa using h⟩
  | cons typeId types ih =>
      rw [List.zipIdx_cons] at hlists ⊢
      obtain ⟨entry, others, hentry, hothers, rfl⟩ := List.forall₂_cons_left_iff.1 hlists
      obtain ⟨hmem, hentries⟩ := List.forall_mem_cons.1 hentries
      rw [List.zipIdx_cons, List.flatMap_cons, List.append_assoc] at h
      obtain ⟨middle, hmiddle, hshifted⟩ := runEntry haccepted hsound hspace hmem hentry h
      obtain ⟨next, hnext, hdone⟩ := ih hentries hothers hshifted
      refine ⟨next, ?_, ?_⟩
      · rw [List.foldlM_cons]
        change ((Fixup.ofRegistry registry).runEntry _ _ _ _).bind _ = _
        rw [hmiddle]
        exact hnext
      · rw [List.zipIdx_cons, List.flatMap_cons, ← List.append_assoc]
        exact hdone

theorem decode?_range (h : found.Shifted base bytes done rest current)
    (haccepted : Accepted registry 0 bytes found) (hsound : registry.Sound) {range : Range}
    {index : Nat} (hindex : index < found.header.rangeCount)
    (hrange : bytes.readRange (found.rangesAt + index * Range.size) = .ok range) :
    Range.decode? current (found.rangesAt + index * Range.size) = some range := by
  have hkept := h.patched.agreeOn (found.rangesAt + index * Range.size)
    (found.rangesAt + index * Range.size + Range.size) fun word hword =>
      haccepted.word_outside_rangeTable hsound
        (haccepted.slots_sublist.subset (h.mem_slots haccepted hword)) hindex
  rw [← Bytes.readRange_eq_ok_iff, hkept.readRange_eq h.patched.length_eq]
  exact hrange

/-- **The ranges are gone through**, and the instances of each of them shifted. -/
theorem runRanges (haccepted : Accepted registry 0 bytes found) (hsound : registry.Sound)
    (hspace : base + bytes.length < Address.space) {ranges : List Range} {first index : Nat}
    {entries : List Entry} (hentries : ∀ entry ∈ entries, entry ∈ found.entries)
    (hranges : List.Forall₂
      (fun index range => bytes.readRange (found.rangesAt + index * Range.size) = .ok range)
      (List.range' first ranges.length) ranges)
    (hbound : first + ranges.length ≤ found.header.rangeCount)
    (hlists : List.Forall₂ (Lists registry bytes 0 found.directoryAt)
      ((Range.spread ranges).zipIdx index) entries)
    (hdone : Header.rangesSlot ∈ done)
    (h : found.Shifted base bytes done
      ((entries.zipIdx index).flatMap (Entry.fixupWords bytes found.directoryAt) ++ rest)
      current) :
    ∃ next, (Fixup.ofRegistry registry).runRanges base (base + found.directoryAt) ranges.length
        first index current = some next ∧
      found.Shifted base bytes
        (done ++ (entries.zipIdx index).flatMap (Entry.fixupWords bytes found.directoryAt)) rest
        next := by
  induction ranges generalizing first index entries done current with
  | nil =>
      obtain rfl := List.forall₂_nil_left_iff.1 hlists
      exact ⟨current, rfl, by simpa using h⟩
  | cons range ranges ih =>
      rw [List.length_cons, List.range'_succ, List.forall₂_cons] at hranges
      obtain ⟨hrange, hranges⟩ := hranges
      rw [Range.spread_cons, List.zipIdx_append, List.length_replicate] at hlists
      obtain ⟨run, others, hrun, hothers, rfl⟩ := exists_append_of_forall₂ hlists
      have hlength : run.length = range.count := by
        rw [← hrun.length_eq, List.length_zipIdx, List.length_replicate]
      rw [List.zipIdx_append, hlength, List.flatMap_append, List.append_assoc] at h
      rw [List.length_cons] at hbound
      -- the range is found in the table
      have htable := h.word_region hspace hdone
        (Bytes.readHeader_eq_ok_iff.1 haccepted.header).2.2.1 haccepted.rangesAt
      have hfound := h.decode?_range haccepted hsound (by omega) hrange
      -- its instances are shifted, and then the other ranges are gone through
      obtain ⟨middle, hmiddle, hshifted⟩ := runEntries haccepted hsound hspace
        (fun entry hentry => hentries entry (List.mem_append_left _ hentry)) hrun h
      obtain ⟨next, hnext, hafter⟩ := ih
        (fun entry hentry => hentries entry (List.mem_append_right _ hentry)) hranges (by omega)
        hothers (List.mem_append_left _ hdone) hshifted
      refine ⟨next, ?_, ?_⟩
      · rw [zipIdx_replicate, List.foldlM_map] at hmiddle
        rw [List.length_cons, Fixup.runRanges_succ htable hfound hmiddle]
        exact hnext
      · rw [List.zipIdx_append, hlength, List.flatMap_append, ← List.append_assoc]
        exact hafter

end Scan.Shifted

/-! ### The whole fixup -/

/-- **The fixup of a registry does what a relocation does**, on every image that is relocated. -/
theorem Fixup.run_ofRegistry {registry : Registry} (hexact : registry.Exact) {base count : Nat}
    {bytes after : Bytes} (h : relocate registry base bytes = (.ok count, after)) :
    (ofRegistry registry).run base bytes = some after := by
  have hsound := hexact.sound
  rcases relocateScan_cases hsound base bytes with ⟨error, herror⟩ |
    ⟨found, patched, haccepted, hspace, hfound, hpatched⟩
  · rw [relocate, herror] at h
    cases h
  rw [relocate, hfound] at h
  obtain rfl : patched = after := congrArg Prod.snd h
  obtain ⟨hdirectory, hcount, htable, hrangeCount⟩ :=
    Bytes.readHeader_eq_ok_iff.1 haccepted.header
  obtain ⟨ranges, hranges, -, -, hlists⟩ := haccepted.listed
  -- the two pointers of the header
  have hstart : found.Shifted base bytes [] (found.fixupWords bytes) bytes :=
    ⟨rfl, rfl, fun _ h => absurd h List.not_mem_nil, fun _ _ => rfl⟩
  obtain ⟨first, hfirst, hshifted⟩ := hstart.shift haccepted hsound hspace
  obtain ⟨second, hsecond, hshifted⟩ := hshifted.shift haccepted hsound hspace
  -- the header as the fixup reads it then
  have hkept : ∀ word, WordsApart Header.directorySlot word → WordsApart Header.rangesSlot word →
      second.word? Address.width word = bytes.word? Address.width word := fun word hapart hapart' =>
    hshifted.patched.word_eq (by simpa using ⟨hapart, hapart'⟩)
  have hheader : Header.decode? second = some ⟨base + found.directoryAt, found.header.count,
      base + found.rangesAt, found.header.rangeCount⟩ :=
    Bytes.decode?_header_eq_some_iff.2
      ⟨hshifted.word_region hspace (by decide) hdirectory haccepted.directoryAt,
        (hkept 8 (.inl (by decide)) (.inr (by decide))).trans hcount,
        hshifted.word_region hspace (by decide) htable haccepted.rangesAt,
        (hkept 24 (.inl (by decide)) (.inl (by decide))).trans hrangeCount⟩
  -- the ranges
  have hlength := hranges.length_eq
  rw [List.length_range] at hlength
  rw [List.range_eq_range', hlength] at hranges
  have hready : found.Shifted base bytes [Header.directorySlot, Header.rangesSlot]
      (found.entries.zipIdx.flatMap (Entry.fixupWords bytes found.directoryAt) ++ []) second := by
    rw [List.append_nil]
    exact hshifted
  obtain ⟨last, hlast, hdone⟩ := Scan.Shifted.runRanges haccepted hsound hspace
    (fun entry hentry => hentry) hranges (by omega) hlists (by decide) hready
  have hsame : patched = last := by
    refine hpatched.unique hdone.patched (fun word => ?_) fun word hword =>
      haccepted.word_inside hsound (haccepted.slots_sublist.subset hword)
    rw [← haccepted.perm_fixupWords.mem_iff, ← hdone.order, List.append_nil]
  rw [run, hfirst]
  change (shift base first _).bind _ = _
  rw [hsecond]
  change (Header.decode? second).bind _ = _
  rw [hheader]
  change runRanges _ _ _ _ _ _ _ = _
  rw [hlength, hlast, hsame]

end ScenePack
