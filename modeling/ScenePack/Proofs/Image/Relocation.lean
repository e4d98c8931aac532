/-
**Relocation.**

A scan that succeeds rules out everything that could go wrong in the middle of a relocation: the
words that are changed lie inside and apart from each other, and each of them holds a position.  So
an image is either left as it is, or the base is added to every such word once.

Main definitions:

* `View.pointers`, `View.slots` — the pointers of the instances, and the words that are changed;
* `View.Relocated` — the outcome of a relocation.

Main results:

* `Accepted.slot_value` — **every word that is changed holds a position**;
* `Accepted.null_apart` — no word that is changed reaches into a null pointer;
* `relocateScan_cases` — when a relocation succeeds;
* `relocate_outcome` — **a relocation leaves an image alone or changes each pointer once**.
-/

import ScenePack.Proofs.Image.Stored

set_option relaxedAutoImplicit false
set_option autoImplicit false

namespace ScenePack

/-! ### The words that are changed -/

namespace Accepted

variable {registry : Registry} {base : Nat} {bytes : Bytes} {found : Scan}

/-- The words of the directory hold the positions of the entries. -/
theorem directory_word (h : Accepted registry base bytes found) {index : Nat}
    (hindex : index < found.header.count) :
    ∃ entry, found.entries[index]? = some entry ∧
      bytes.readSlot (found.directoryAt + index * Address.width) = .ok (base + entry.offset) := by
  obtain ⟨ranges, -, -, hcount, hlists⟩ := h.listed
  have hplace : index < (Range.spread ranges).zipIdx.length := by
    rw [List.length_zipIdx, hcount]
    exact hindex
  have hlength := hlists.length_eq
  have hentry := hlists.get hplace (hlength ▸ hplace)
  obtain ⟨layout, -, hread⟩ := hentry
  obtain ⟨-, -, -, hword⟩ := readEntry_eq_ok_iff.1 hread
  refine ⟨_, List.getElem?_eq_getElem (hlength ▸ hplace), ?_⟩
  simpa using hword

/-- **Every word that is changed holds a position.** -/
theorem slot_value (h : Accepted registry base bytes found) {slot : Nat}
    (hslot : slot ∈ found.slots) :
    ∃ offset ≤ bytes.length, bytes.word? Address.width slot = some (base + offset) := by
  obtain ⟨hdirectory, -, hranges, -⟩ := Bytes.readHeader_eq_ok_iff.1 h.header
  rw [h.slots_eq] at hslot
  rcases List.mem_append.1 hslot with hslot | hslot
  · rcases List.mem_cons.1 hslot with rfl | hslot
    · obtain ⟨hvalue, hinside, -⟩ := region_eq_ok_iff.1 h.directoryAt
      exact ⟨found.directoryAt, by omega, hvalue ▸ hdirectory⟩
    rcases List.mem_cons.1 hslot with rfl | hslot
    · obtain ⟨hvalue, hinside, -⟩ := region_eq_ok_iff.1 h.rangesAt
      exact ⟨found.rangesAt, by omega, hvalue ▸ hranges⟩
    obtain ⟨index, hindex, rfl⟩ := List.mem_map.1 hslot
    obtain ⟨entry, hentry, hword⟩ := h.directory_word (List.mem_range.1 hindex)
    have hinside := (h.fits entry (List.mem_of_getElem? hentry)).inside
    exact ⟨entry.offset, by omega, Bytes.readSlot_eq_ok_iff.1 hword⟩
  · obtain ⟨hmem, hnull⟩ := List.mem_filter.1 hslot
    obtain ⟨pointer, hpointer, rfl⟩ := List.mem_map.1 hmem
    obtain ⟨value, hvalue, hleads⟩ := h.leads pointer hpointer
    have hword := Bytes.readSlot_eq_ok_iff.1 hvalue
    have hne : value ≠ 0 := by
      rintro rfl
      simp [hword] at hnull
    obtain ⟨target, htarget, -⟩ := hleads hne
    obtain ⟨rfl, hlt⟩ := offsetOf_eq_ok_iff.1 htarget
    exact ⟨target, by omega, hword⟩

theorem slots_sublist (h : Accepted registry base bytes found) :
    found.slots.Sublist found.words := by
  rw [h.slots_eq, Scan.words, Bytes.nonNull]
  exact List.Sublist.append (List.Sublist.refl _) List.filter_sublist

theorem pairwise_slots (h : Accepted registry base bytes found) (hsound : registry.Sound) :
    found.slots.Pairwise WordsApart :=
  (h.pairwise_words hsound).sublist h.slots_sublist

/-- A pointer that holds zero is not changed, and no word that is changed reaches into it. -/
theorem null_apart (h : Accepted registry base bytes found) (hsound : registry.Sound)
    {pointer : PointerSlot} (hpointer : pointer ∈ found.pointers)
    (hnull : bytes.word? Address.width pointer.offset = some 0) {slot : Nat}
    (hslot : slot ∈ found.slots) : WordsApart slot pointer.offset := by
  have hoffset : pointer.offset ∈ found.pointers.map PointerSlot.offset :=
    List.mem_map_of_mem hpointer
  obtain ⟨-, hpointers, hcross⟩ := List.pairwise_append.1 (h.pairwise_words hsound)
  rw [h.slots_eq] at hslot
  rcases List.mem_append.1 hslot with hslot | hslot
  · exact hcross slot hslot _ hoffset
  · obtain ⟨hmem, hnonnull⟩ := List.mem_filter.1 hslot
    have hne : slot ≠ pointer.offset := by
      rintro rfl
      simp [hnull] at hnonnull
    have hsymm : Std.Symm WordsApart := ⟨fun _ _ hab => hab.symm⟩
    exact hpointers.forall hmem hoffset hne

/-- **An accepted image is relocated**, if it fits the address space at its new place. -/
theorem exists_relocated (h : Accepted registry 0 bytes found) (hsound : registry.Sound)
    {base : Nat} (hspace : base + bytes.length < Address.space) :
    ∃ after, relocateScan registry base bytes = (.ok found, after) ∧
      Bytes.Patched base found.slots bytes after := by
  obtain ⟨after, hpatch, hpatched⟩ := patch_patched base
    (fun slot hslot => h.word_inside hsound (h.slots_sublist.subset hslot))
    (h.pairwise_slots hsound)
  refine ⟨after, ?_, hpatched⟩
  rw [relocateScan, (scan_eq_ok_iff hsound).2 h]
  dsimp only
  rw [if_neg (Nat.not_le.2 hspace), hpatch]
  rfl

end Accepted

/-- **When a relocation succeeds.**  It fails if the image is not accepted or does not fit the
address space, and then leaves the bytes as they are. -/
theorem relocateScan_cases {registry : Registry} (hsound : registry.Sound) (base : Nat)
    (bytes : Bytes) :
    (∃ error, relocateScan registry base bytes = (.error error, bytes)) ∨
      ∃ found after, Accepted registry 0 bytes found ∧ base + bytes.length < Address.space ∧
        relocateScan registry base bytes = (.ok found, after) ∧
        Bytes.Patched base found.slots bytes after := by
  cases hscan : scan registry 0 bytes with
  | error error => exact Or.inl ⟨error, by rw [relocateScan, hscan]⟩
  | ok found =>
      have haccepted := (scan_eq_ok_iff hsound).1 hscan
      by_cases hspace : base + bytes.length < Address.space
      · obtain ⟨after, hafter, hpatched⟩ := haccepted.exists_relocated hsound hspace
        exact Or.inr ⟨found, after, haccepted, hspace, hafter, hpatched⟩
      · refine Or.inl ⟨.addressOverflow base, ?_⟩
        rw [relocateScan, hscan]
        dsimp only
        rw [if_pos (Nat.not_lt.1 hspace)]

/-! ### The outcome of a relocation -/

namespace View

/-- The positions of the pointers of the instances, as their layouts list them. -/
def pointers (view : View) : List Nat :=
  view.instances.flatMap fun record =>
    record.layout.slots.map fun slot => record.offset + slot.offset

/-- The pointers that lead somewhere. -/
def livePointers (view : View) : List Nat :=
  view.pointers.filter fun position => view.bytes.word? Address.width position ≠ some 0

/-- The words that a relocation changes: two of the header, those of the directory, and the
pointers that lead somewhere. -/
def slots (view : View) : List Nat :=
  tableSlots view.directoryAt view.header.count ++ view.livePointers

/-- **The outcome of a relocation** of an image that holds positions. -/
structure Relocated (view : View) (base count : Nat) (after : Bytes) : Prop where
  /-- The pointers are the text and reference fields of the instances and of the records embedded
  in them. -/
  pointers_iff : ∀ position, position ∈ view.pointers ↔ ∃ kind, view.PointerAt ⟨position, kind⟩
  count_eq : count = 2 + view.header.count + view.livePointers.length
  length_slots : view.slots.length = count
  inside : ∀ slot ∈ view.slots, slot + Address.width ≤ view.bytes.length
  apart : view.slots.Pairwise WordsApart
  moved : ∀ slot ∈ view.slots, ∃ value, view.bytes.word? Address.width slot = some value ∧
    base + value < Address.space ∧ after.word? Address.width slot = some (base + value)
  null : ∀ position ∈ view.pointers, view.bytes.word? Address.width position = some 0 →
    after.word? Address.width position = some 0
  kept : ∀ i, (∀ slot ∈ view.slots, i < slot ∨ slot + Address.width ≤ i) →
    after[i]? = view.bytes[i]?
  length_eq : after.length = view.bytes.length

end View

namespace Accepted

variable {registry : Registry} {base : Nat} {bytes : Bytes} {found : Scan}

/-- The pointers of a view are those that the scan checked. -/
theorem pointers_eq (h : Accepted registry base bytes found) :
    (found.view registry base bytes).pointers = found.pointers.map PointerSlot.offset := by
  rw [View.pointers, h.instances_eq, Scan.pointers, List.map_flatMap, List.flatMap_map]
  simp only [Entry.pointers, List.map_map]
  rfl

/-- The words of a view that are changed are those that the scan found. -/
theorem slots_eq_view (h : Accepted registry base bytes found) :
    (found.view registry base bytes).slots = found.slots := by
  rw [View.slots, View.livePointers, h.pointers_eq, h.slots_eq]
  rfl

/-- Patching the words that a scan found relocates the image. -/
theorem relocated (h : Accepted registry 0 bytes found) (hsound : registry.Sound) {after : Bytes}
    (hspace : base + bytes.length < Address.space)
    (hpatched : Bytes.Patched base found.slots bytes after) :
    (found.view registry 0 bytes).Relocated base found.slots.length after := by
  have hslots := h.slots_eq_view
  constructor
  · intro position
    rw [h.pointers_eq, List.mem_map]
    constructor
    · rintro ⟨pointer, hpointer, rfl⟩
      exact ⟨pointer.kind, (h.pointerAt_iff hsound).2 hpointer⟩
    · rintro ⟨kind, hpointer⟩
      exact ⟨_, (h.pointerAt_iff hsound).1 hpointer, rfl⟩
  · rw [← hslots, View.slots, List.length_append, tableSlots, List.length_cons, List.length_cons,
      List.length_map, List.length_range]
    omega
  · rw [hslots]
  · intro slot hslot
    exact h.word_inside hsound (h.slots_sublist.subset (hslots ▸ hslot))
  · rw [hslots]
    exact h.pairwise_slots hsound
  · intro slot hslot
    rw [hslots] at hslot
    obtain ⟨value, hvalue, hword⟩ := h.slot_value hslot
    rw [Nat.zero_add] at hword
    have hfits : base + value < Address.space := by omega
    refine ⟨value, hword, hfits, ?_⟩
    rw [hpatched.word slot hslot value hword, Nat.mod_eq_of_lt hfits]
  · intro position hposition hnull
    rw [h.pointers_eq] at hposition
    obtain ⟨pointer, hpointer, rfl⟩ := List.mem_map.1 hposition
    have hkept := hpatched.agreeOn pointer.offset (pointer.offset + Address.width) fun slot hslot =>
        (h.null_apart hsound hpointer hnull hslot).symm
    rw [hkept.word?_eq hpatched.length_eq]
    exact hnull
  · intro i hi
    rw [hslots] at hi
    exact hpatched.kept i hi
  · exact hpatched.length_eq

end Accepted

namespace Sample

/-- The image of the sample at the address 4096. -/
def relocated : Bytes :=
  [4136, 1, 4128, 1, 4294967296, 4144, 7, 0, 4192, 0, 4144, 0].flatMap
    (Word.encode Address.width) ++ [97, 0]

theorem relocate_image : relocate registry 4096 image = (.ok 5, relocated) := by cbv

end Sample

/-- **A relocation is atomic.**  If it fails, the bytes are as before.  If it succeeds, the image
had a view, and the base has been added to each of its words that lead somewhere, once and without
reduction; all other bytes are as before. -/
theorem relocate_outcome {registry : Registry} (hexact : registry.Exact) (base : Nat)
    (bytes : Bytes) :
    match relocate registry base bytes with
    | (.error _, after) => after = bytes
    | (.ok count, after) => ∃ view, View.ofBytes registry 0 bytes = .ok view ∧
        view.Relocated base count after := by
  have hsound := hexact.sound
  rcases relocateScan_cases hsound base bytes with
    ⟨error, herror⟩ | ⟨found, after, haccepted, hspace, hok, hpatched⟩
  · rw [relocate, herror]
    rfl
  · rw [relocate, hok]
    exact ⟨_, (View.ofBytes_eq_ok_iff hsound).2 ⟨found, haccepted, rfl⟩,
      haccepted.relocated hsound hspace hpatched⟩

/-- The image of the sample is relocated by 4096: five words are changed. -/
theorem relocate_outcome_sample :
    Sample.registry.Exact ∧
      relocate Sample.registry 4096 Sample.image = (.ok 5, Sample.relocated) ∧
      Sample.view.Relocated 4096 5 Sample.relocated := by
  have houtcome := relocate_outcome Sample.exact 4096 Sample.image
  rw [Sample.relocate_image] at houtcome
  obtain ⟨view, hview, hrelocated⟩ := houtcome
  rw [Sample.ofBytes_image] at hview
  cases hview
  exact ⟨Sample.exact, Sample.relocate_image, hrelocated⟩

end ScenePack
