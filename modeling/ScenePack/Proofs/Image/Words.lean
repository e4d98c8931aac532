/-
**The words of an accepted image.**

Two words of the header, the words of the directory and the pointers of the records hold positions.
In an accepted image none of them overlaps another one, the range table, or the counts of the
header.

Main definitions:

* `Scan.words` — the positions of all words that hold positions, null pointers included.

Main results:

* `Accepted.pairwise_words` — **no two words overlap**;
* `Accepted.word_inside`, `Accepted.exists_region` — every word lies inside the image, in a region;
* `Accepted.word_outside_rangeTable`, `Accepted.word_outside_counts` — what no word reaches into.
-/

import ScenePack.Proofs.Image.Accepted
import ScenePack.Proofs.Image.Patch

set_option relaxedAutoImplicit false
set_option autoImplicit false

namespace ScenePack

/-- The positions of all words that hold positions, null pointers included. -/
def Scan.words (found : Scan) : List Nat :=
  tableSlots found.directoryAt found.header.count ++ found.pointers.map PointerSlot.offset

/-! ### Words in spans -/

/-- A span holds all bytes of the word at a position. -/
def Span.HoldsWord (span : Span) (position : Nat) : Prop :=
  span.start ≤ position ∧ position + Address.width ≤ span.stop

/-- Words in disjoint spans lie apart. -/
theorem Span.Disjoint.wordsApart {s t : Span} (h : s.Disjoint t) {a b : Nat} (ha : s.HoldsWord a)
    (hb : t.HoldsWord b) : WordsApart a b := by
  have hwidth : 0 < Address.width := by decide
  simp only [HoldsWord] at ha hb
  have := (Span.disjoint_iff (by omega) (by omega)).1 h
  simp only [WordsApart]
  omega

/-- A word in a span lies apart from a disjoint span that is not empty. -/
theorem Span.Disjoint.word_outside {s t : Span} (h : s.Disjoint t) {a : Nat} (ha : s.HoldsWord a)
    (ht : t.start < t.stop) : t.stop ≤ a ∨ a + Address.width ≤ t.start := by
  have hwidth : 0 < Address.width := by decide
  simp only [HoldsWord] at ha
  have := (Span.disjoint_iff (by omega) ht).1 h
  omega

/-! ### The words of the parts -/

namespace Scan

variable {found : Scan} {word : Nat}

theorem holdsWord_directory {index : Nat} (h : index < found.header.count) :
    found.directory.HoldsWord (found.directoryAt + index * Address.width) := by
  have : (index + 1) * Address.width ≤ found.header.count * Address.width :=
    Nat.mul_le_mul_right _ h
  rw [Nat.succ_mul] at this
  simp only [Span.HoldsWord, directory]
  omega

/-- The words of the tables lie in the header or in the directory. -/
theorem holdsWord_of_mem_tableSlots
    (h : word ∈ tableSlots found.directoryAt found.header.count) :
    word = 0 ∨ word = 16 ∨ found.directory.HoldsWord word := by
  rcases List.mem_cons.1 h with rfl | h
  · exact Or.inl rfl
  rcases List.mem_cons.1 h with rfl | h
  · exact Or.inr (Or.inl rfl)
  obtain ⟨index, hindex, rfl⟩ := List.mem_map.1 h
  exact Or.inr (Or.inr (holdsWord_directory (List.mem_range.1 hindex)))

theorem mem_pointers_iff {pointer : PointerSlot} :
    pointer ∈ found.pointers ↔
      ∃ entry ∈ found.entries, ∃ slot ∈ entry.layout.slots, pointer = slot.shift entry.offset := by
  simp only [pointers, List.mem_flatMap, Entry.pointers, List.mem_map, eq_comm]

end Scan

namespace Accepted

variable {registry : Registry} {base : Nat} {bytes : Bytes} {found : Scan}

/-- The pointers of a record are in order and lie inside the record. -/
theorem inOrder (h : Accepted registry base bytes found) (hsound : registry.Sound) {entry : Entry}
    (hentry : entry ∈ found.entries) :
    PointerSlot.InOrder (entry.offset + entry.layout.size) entry.pointers := by
  obtain ⟨position, hlayout⟩ := (h.fits entry hentry).known
  exact (hsound.inOrder hlayout).shift entry.offset

theorem holdsWord_record (h : Accepted registry base bytes found) (hsound : registry.Sound)
    {entry : Entry} (hentry : entry ∈ found.entries) {pointer : PointerSlot}
    (hpointer : pointer ∈ entry.pointers) : entry.span.HoldsWord pointer.offset := by
  obtain ⟨slot, hslot, rfl⟩ := List.mem_map.1 hpointer
  exact ⟨Nat.le_add_right _ _, (h.inOrder hsound hentry).2 _ hpointer⟩

/-- Every word lies in the header, in the directory or in a record. -/
theorem holdsWord_of_mem_words (h : Accepted registry base bytes found) (hsound : registry.Sound)
    {word : Nat} (hword : word ∈ found.words) :
    word = 0 ∨ word = 16 ∨ found.directory.HoldsWord word ∨
      ∃ entry ∈ found.entries, entry.span.HoldsWord word := by
  rcases List.mem_append.1 hword with hword | hword
  · rcases Scan.holdsWord_of_mem_tableSlots hword with hword | hword | hword
    · exact Or.inl hword
    · exact Or.inr (Or.inl hword)
    · exact Or.inr (Or.inr (Or.inl hword))
  · obtain ⟨pointer, hpointer, rfl⟩ := List.mem_map.1 hword
    obtain ⟨entry, hentry, hpointer⟩ := List.mem_flatMap.1 hpointer
    exact Or.inr (Or.inr (Or.inr ⟨entry, hentry, h.holdsWord_record hsound hentry hpointer⟩))

theorem exists_region (h : Accepted registry base bytes found) (hsound : registry.Sound)
    {word : Nat} (hword : word ∈ found.words) :
    ∃ region ∈ found.regions, region.HoldsWord word := by
  rcases h.holdsWord_of_mem_words hsound hword with rfl | rfl | hword | ⟨entry, hentry, hword⟩
  · exact ⟨⟨0, Header.size⟩, List.mem_cons_self, by decide, by decide⟩
  · exact ⟨⟨0, Header.size⟩, List.mem_cons_self, by decide, by decide⟩
  · exact ⟨found.directory, by simp [Scan.regions], hword⟩
  · refine ⟨entry.span, ?_, hword⟩
    simp only [Scan.regions, List.mem_cons, List.mem_map]
    exact Or.inr (Or.inr (Or.inr ⟨entry, hentry, rfl⟩))

/-! ### Disjoint parts -/

theorem disjoint_parts (h : Accepted registry base bytes found) :
    (∀ region ∈ found.rangeTable :: found.directory :: found.entries.map Entry.span,
        Span.Disjoint ⟨0, Header.size⟩ region) ∧
      (∀ region ∈ found.directory :: found.entries.map Entry.span,
        found.rangeTable.Disjoint region) ∧
      (∀ entry ∈ found.entries, found.directory.Disjoint entry.span) ∧
      found.entries.Pairwise fun a b => a.span.Disjoint b.span := by
  have hdisjoint := h.disjoint
  simp only [Scan.regions, List.pairwise_cons, List.pairwise_map, List.forall_mem_map]
    at hdisjoint
  exact hdisjoint

theorem pairwise_directory (directoryAt count : Nat) :
    ((List.range count).map fun index => directoryAt + index * Address.width).Pairwise
      WordsApart := by
  refine List.pairwise_map.2 (List.pairwise_lt_range.imp fun {a b} hab => Or.inl ?_)
  have : (a + 1) * Address.width ≤ b * Address.width := Nat.mul_le_mul_right _ hab
  rw [Nat.succ_mul] at this
  omega

theorem header_apart (h : Accepted registry base bytes found) {word other : Nat}
    (hword : word = 0 ∨ word = 16)
    (hother : found.directory.HoldsWord other ∨
      ∃ entry ∈ found.entries, entry.span.HoldsWord other) : WordsApart word other := by
  have hin : Span.HoldsWord ⟨0, Header.size⟩ word := by
    rcases hword with rfl | rfl
    · exact ⟨by decide, by decide⟩
    · exact ⟨by decide, by decide⟩
  rcases hother with hother | ⟨entry, hentry, hother⟩
  · exact (h.disjoint_parts.1 found.directory (by simp)).wordsApart hin hother
  · refine (h.disjoint_parts.1 entry.span ?_).wordsApart hin hother
    exact List.mem_cons_of_mem _ (List.mem_cons_of_mem _ (List.mem_map_of_mem hentry))

/-- **No two words overlap.** -/
theorem pairwise_words (h : Accepted registry base bytes found) (hsound : registry.Sound) :
    found.words.Pairwise WordsApart := by
  obtain ⟨-, -, hdirectory, hrecords⟩ := h.disjoint_parts
  have hlisted : ∀ word ∈ (List.range found.header.count).map
      (fun index => found.directoryAt + index * Address.width),
      found.directory.HoldsWord word := by
    intro word hword
    obtain ⟨index, hindex, rfl⟩ := List.mem_map.1 hword
    exact Scan.holdsWord_directory (List.mem_range.1 hindex)
  have hrecord : ∀ word ∈ found.pointers.map PointerSlot.offset,
      ∃ entry ∈ found.entries, entry.span.HoldsWord word := by
    intro word hword
    obtain ⟨pointer, hpointer, rfl⟩ := List.mem_map.1 hword
    obtain ⟨entry, hentry, hpointer⟩ := List.mem_flatMap.1 hpointer
    exact ⟨entry, hentry, h.holdsWord_record hsound hentry hpointer⟩
  refine List.pairwise_append.2 ⟨?_, ?_, ?_⟩
  · -- the header and the directory
    refine List.pairwise_cons.2 ⟨List.forall_mem_cons.2 ⟨Or.inl (by decide), ?_⟩,
      List.pairwise_cons.2 ⟨?_, pairwise_directory _ _⟩⟩
    · exact fun word hword => h.header_apart (Or.inl rfl) (Or.inl (hlisted word hword))
    · exact fun word hword => h.header_apart (Or.inr rfl) (Or.inl (hlisted word hword))
  · -- the records
    refine List.pairwise_map.2 (List.pairwise_flatMap.2 ⟨?_, ?_⟩)
    · intro entry hentry
      exact (h.inOrder hsound hentry).1.imp fun hab => Or.inl hab
    · refine hrecords.imp_of_mem fun {a b} ha hb hab x hx y hy => ?_
      exact hab.wordsApart (h.holdsWord_record hsound ha hx) (h.holdsWord_record hsound hb hy)
  · intro word hword other hother
    obtain ⟨entry, hentry, hother⟩ := hrecord other hother
    rcases Scan.holdsWord_of_mem_tableSlots hword with hword | hword | hword
    · exact h.header_apart (Or.inl hword) (Or.inr ⟨entry, hentry, hother⟩)
    · exact h.header_apart (Or.inr hword) (Or.inr ⟨entry, hentry, hother⟩)
    · exact (hdirectory entry hentry).wordsApart hword hother

/-! ### What no word reaches into -/

theorem header_le (h : Accepted registry base bytes found) : Header.size ≤ bytes.length :=
  Bytes.le_of_readHeader h.header

/-- **Every word lies inside the image.** -/
theorem word_inside (h : Accepted registry base bytes found) (hsound : registry.Sound) {word : Nat}
    (hword : word ∈ found.words) : word + Address.width ≤ bytes.length := by
  have hsize := h.header_le
  rcases h.holdsWord_of_mem_words hsound hword with rfl | rfl | hword | ⟨entry, hentry, hword⟩
  · exact Nat.le_trans (by decide) hsize
  · exact Nat.le_trans (by decide) hsize
  · have hinside := (region_eq_ok_iff.1 h.directoryAt).2.1
    exact Nat.le_trans hword.2 hinside
  · exact Nat.le_trans hword.2 (h.fits entry hentry).inside

theorem word_outside_rangeTable (h : Accepted registry base bytes found) (hsound : registry.Sound)
    {word index : Nat} (hword : word ∈ found.words) (hindex : index < found.header.rangeCount) :
    found.rangesAt + index * Range.size + Range.size ≤ word ∨
      word + Address.width ≤ found.rangesAt + index * Range.size := by
  have hrange : (index + 1) * Range.size ≤ found.header.rangeCount * Range.size :=
    Nat.mul_le_mul_right _ hindex
  rw [Nat.succ_mul] at hrange
  have hsize : 0 < Range.size := by decide
  have hpositive : found.rangeTable.start < found.rangeTable.stop := by
    simp only [Scan.rangeTable]
    omega
  obtain ⟨hheader, htable, -, -⟩ := h.disjoint_parts
  -- the word lies in another region, and the range table is not empty
  have houtside : found.rangeTable.stop ≤ word ∨ word + Address.width ≤ found.rangeTable.start := by
    have hfirst := (hheader found.rangeTable (by simp))
    rcases h.holdsWord_of_mem_words hsound hword with rfl | rfl | hword | ⟨entry, hentry, hword⟩
    · exact hfirst.word_outside ⟨by decide, by decide⟩ hpositive
    · exact hfirst.word_outside ⟨by decide, by decide⟩ hpositive
    · exact (htable _ (by simp)).symm.word_outside hword hpositive
    · refine (htable entry.span ?_).symm.word_outside hword hpositive
      exact List.mem_cons_of_mem _ (List.mem_map_of_mem hentry)
  simp only [Scan.rangeTable] at houtside
  omega

/-- No word reaches into the counts of the header. -/
theorem word_outside_counts (h : Accepted registry base bytes found) (hsound : registry.Sound)
    {word : Nat} (hword : word ∈ found.words) : word = 0 ∨ word = 16 ∨ Header.size ≤ word := by
  obtain ⟨hheader, -, -, -⟩ := h.disjoint_parts
  have hpositive : 0 < Header.size := by decide
  rcases h.holdsWord_of_mem_words hsound hword with hword | hword | hword | ⟨entry, hentry, hword⟩
  · exact Or.inl hword
  · exact Or.inr (Or.inl hword)
  · have := (hheader found.directory (by simp)).symm.word_outside hword hpositive
    simp only at this
    omega
  · have := (hheader entry.span (List.mem_cons_of_mem _
      (List.mem_cons_of_mem _ (List.mem_map_of_mem hentry)))).symm.word_outside hword hpositive
    simp only at this
    omega

end Accepted

end ScenePack
