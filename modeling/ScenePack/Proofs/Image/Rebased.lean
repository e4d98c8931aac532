/-
**Relocated images.**

A relocation changes words and nothing else.  The tables and the records stay where they are, so the
fixed parts of the relocated image are in place again, under the new base.  Numbers, references and
embedded records read as before; a text does if its bytes have been kept.

Main definitions:

* `Rebased` — an accepted image and its bytes after a relocation;
* `Scan.rebase` — what a scan finds in the relocated image;
* `View.TextAt` — a text that a view shows, by its position;
* `View.TextsKept` — the texts of a view read the same in other bytes.

Main results:

* `Rebased.framed` — **the fixed parts of a relocated image are in place**;
* `Rebased.allHeldAt` — **the relocated image holds the same values** if texts are kept;
* `Rebased.readText_of_allHeldAt` — texts are kept if both images hold the same values.
-/

import ScenePack.Proofs.Image.Contents
import ScenePack.Proofs.Image.Relocation

set_option relaxedAutoImplicit false
set_option autoImplicit false

namespace ScenePack

/-! ### Texts of a view -/

namespace View

/-- A text that a view shows, by its position. -/
def TextAt (view : View) (start : Nat) (text : String) : Prop :=
  ∃ position, view.PointerAt ⟨position, .text⟩ ∧ view.base + start ≠ 0 ∧
    view.bytes.word? Address.width position = some (view.base + start) ∧
    view.bytes.readText start = .ok text

/-- The texts of a view read the same in other bytes. -/
def TextsKept (view : View) (after : Bytes) : Prop :=
  ∀ start text, view.TextAt start text → after.readText start = .ok text

end View

/-! ### The relocated image -/

/-- What a scan finds in an image whose pointers hold `base` more. -/
def Scan.rebase (found : Scan) (base : Nat) : Scan :=
  { found with
    header := { found.header with
      directory := base + found.header.directory
      ranges := base + found.header.ranges } }

/-- An accepted image and its bytes after a relocation. -/
structure Rebased (registry : Registry) (base : Nat) (bytes after : Bytes) (found : Scan) :
    Prop where
  sound : registry.Sound
  accepted : Accepted registry 0 bytes found
  space : base + bytes.length < Address.space
  patched : Bytes.Patched base found.slots bytes after

namespace Rebased

variable {registry : Registry} {base : Nat} {bytes after : Bytes} {found : Scan}

/-- A word that is changed holds the base and what it held before. -/
theorem slot_after (h : Rebased registry base bytes after found) {slot value : Nat}
    (hslot : slot ∈ found.slots) (hvalue : bytes.word? Address.width slot = some value) :
    after.word? Address.width slot = some (base + value) := by
  obtain ⟨offset, hinside, hword⟩ := h.accepted.slot_value hslot
  rw [Nat.zero_add, hvalue, Option.some_inj] at hword
  have hspace := h.space
  rw [h.patched.word slot hslot value hvalue, Nat.mod_eq_of_lt (by omega)]

theorem mem_slots_of_mem_tableSlots (h : Rebased registry base bytes after found) {slot : Nat}
    (hslot : slot ∈ tableSlots found.directoryAt found.header.count) : slot ∈ found.slots := by
  rw [h.accepted.slots_eq]
  exact List.mem_append_left _ hslot

/-- A pointer holds the base and what it held before, unless that was zero. -/
theorem pointer_after (h : Rebased registry base bytes after found) {pointer : PointerSlot}
    (hpointer : pointer ∈ found.pointers) {word : Nat}
    (hword : bytes.readSlot pointer.offset = .ok word) :
    after.readSlot pointer.offset = .ok (if word = 0 then 0 else base + word) := by
  have hvalue := Bytes.readSlot_eq_ok_iff.1 hword
  split
  · next hzero =>
      have hkept := h.patched.agreeOn pointer.offset (pointer.offset + Address.width)
        fun slot hslot =>
          (h.accepted.null_apart h.sound hpointer (hzero ▸ hvalue) hslot).symm
      rw [hkept.readSlot_eq h.patched.length_eq, hword, hzero]
  · next hnonzero =>
      refine Bytes.readSlot_eq_ok_iff.2 (h.slot_after ?_ hvalue)
      rw [h.accepted.slots_eq]
      refine List.mem_append_right _ (List.mem_filter.2 ⟨List.mem_map_of_mem hpointer, ?_⟩)
      simp [hvalue, hnonzero]

theorem header (h : Rebased registry base bytes after found) :
    after.readHeader = .ok (found.rebase base).header := by
  obtain ⟨hdirectory, hcount, hranges, hrangeCount⟩ :=
    Bytes.readHeader_eq_ok_iff.1 h.accepted.header
  -- no word that is changed reaches into the counts
  have hkept : ∀ start stop, (start = 8 ∧ stop = 16) ∨ (start = 24 ∧ stop = 32) →
      Bytes.AgreeOn after bytes start stop := by
    intro start stop hspan
    refine h.patched.agreeOn start stop ?_
    intro slot hslot
    have hcases := h.accepted.word_outside_counts h.sound (h.accepted.slots_sublist.subset hslot)
    simp only [Header.size, Address.width] at hcases ⊢
    omega
  refine Bytes.readHeader_eq_ok_iff.2 ⟨?_, ?_, ?_, ?_⟩
  · exact h.slot_after (h.mem_slots_of_mem_tableSlots List.mem_cons_self) hdirectory
  · have hword : after.word? Address.width 8 = bytes.word? Address.width 8 :=
      (hkept 8 16 (Or.inl ⟨rfl, rfl⟩)).word?_eq h.patched.length_eq
    exact hword.trans hcount
  · exact h.slot_after (h.mem_slots_of_mem_tableSlots
      (List.mem_cons_of_mem _ List.mem_cons_self)) hranges
  · have hword : after.word? Address.width 24 = bytes.word? Address.width 24 :=
      (hkept 24 32 (Or.inr ⟨rfl, rfl⟩)).word?_eq h.patched.length_eq
    exact hword.trans hrangeCount

theorem lists (h : Rebased registry base bytes after found) {place : TypeId × Nat} {entry : Entry}
    (hindex : place.2 < found.header.count)
    (hlists : Lists registry bytes 0 found.directoryAt place entry) :
    Lists registry after base found.directoryAt place entry := by
  obtain ⟨layout, hlayout, hentry⟩ := hlists
  obtain ⟨hlayouteq, hinside, halign, hword⟩ := readEntry_eq_ok_iff.1 hentry
  refine ⟨layout, hlayout, readEntry_eq_ok_iff.2 ⟨hlayouteq, ?_, halign, ?_⟩⟩
  · rw [h.patched.length_eq]
    exact hinside
  · have hslot : found.directoryAt + place.2 * Address.width ∈
        tableSlots found.directoryAt found.header.count :=
      List.mem_cons_of_mem _ (List.mem_cons_of_mem _
        (List.mem_map_of_mem (List.mem_range.2 hindex)))
    have hafter := h.slot_after (h.mem_slots_of_mem_tableSlots hslot)
      (Bytes.readSlot_eq_ok_iff.1 hword)
    rw [Nat.zero_add] at hafter
    exact Bytes.readSlot_eq_ok_iff.2 hafter

/-- **The fixed parts of a relocated image are in place.** -/
theorem framed (h : Rebased registry base bytes after found) :
    Framed registry base after (found.rebase base) := by
  have hlength := h.patched.length_eq
  refine ⟨h.header, ?_, ?_, ?_, h.accepted.disjoint⟩
  · obtain ⟨hvalue, hinside, halign⟩ := region_eq_ok_iff.1 h.accepted.rangesAt
    refine region_eq_ok_iff.2 ⟨?_, hlength ▸ hinside, halign⟩
    rw [Scan.rebase, hvalue, Nat.zero_add]
  · obtain ⟨hvalue, hinside, halign⟩ := region_eq_ok_iff.1 h.accepted.directoryAt
    refine region_eq_ok_iff.2 ⟨?_, hlength ▸ hinside, halign⟩
    rw [Scan.rebase, hvalue, Nat.zero_add]
  · obtain ⟨ranges, hranges, hknown, hcount, hlists⟩ := h.accepted.listed
    refine ⟨ranges, forall₂_imp_of_mem (fun index hindex range hrange => ?_) hranges, hknown,
      hcount, forall₂_imp_of_mem (fun place hplace entry hentry => ?_) hlists⟩
    · -- no word that is changed reaches into the range table
      have hkept := h.patched.agreeOn (found.rangesAt + index * Range.size)
        (found.rangesAt + index * Range.size + Range.size) fun slot hslot =>
          h.accepted.word_outside_rangeTable h.sound (h.accepted.slots_sublist.subset hslot)
            (List.mem_range.1 hindex)
      exact (hkept.readRange_eq hlength).trans hrange
    · refine h.lists ?_ hentry
      have hlt := List.snd_lt_of_mem_zipIdx hplace
      omega

/-! ### Values of the relocated image -/

/-- A text that a pointer of the image leads to is shown. -/
theorem textAt (h : Rebased registry base bytes after found) {pointer : PointerSlot}
    (hpointer : pointer ∈ found.pointers) (hkind : pointer.kind = .text) {target : Nat}
    {text : String} (hword : bytes.readSlot pointer.offset = .ok target) (hnonzero : target ≠ 0)
    (htext : bytes.readText target = .ok text) :
    (found.view registry 0 bytes).TextAt target text := by
  refine ⟨pointer.offset, ?_, ?_, ?_, htext⟩
  · rw [← hkind]
    exact (h.accepted.pointerAt_iff h.sound).2 hpointer
  · rw [Scan.view, Nat.zero_add]
    exact hnonzero
  · rw [Scan.view, Nat.zero_add]
    exact Bytes.readSlot_eq_ok_iff.1 hword

theorem slice?_after (h : Rebased registry base bytes after found) {layout : RecordLayout}
    {offset : Nat} (hholds : found.Holds registry bytes.length layout offset)
    {field : FieldLayout} (hfield : field ∈ layout.fields) {type : ScalarType}
    (hkind : field.kind = .scalar type) :
    after.slice? (offset + field.offset) type.size =
      bytes.slice? (offset + field.offset) type.size := by
  obtain ⟨position, hlayout⟩ := hholds.known
  have hextent : registry.extent? field.kind = some (.ofScalar type) := by
    rw [hkind]
    rfl
  have hslots := Registry.slotsOf_eq hextent
  have hwidth : field.size = type.size := (h.sound position layout hlayout).2.size_eq hfield hextent
  refine Bytes.AgreeOn.slice?_eq (h.patched.agreeOn _ _ fun slot hslot => ?_) h.patched.length_eq
  rcases hholds.owned_field h.sound hfield (h.accepted.slots_sublist.subset hslot) with
    hbefore | hafter | ⟨own, hown, -⟩
  · exact Or.inr hbefore
  · exact Or.inl (hwidth ▸ hafter)
  · rw [hslots] at hown
    exact absurd hown List.not_mem_nil

/-- **The relocated image holds the values** that the image held, if texts are kept. -/
theorem allHeldAt (h : Rebased registry base bytes after found)
    (hkept : (found.view registry 0 bytes).TextsKept after) {key? : Nat → Option InstanceKey}
    {layout : RecordLayout} {offset : Nat}
    (hholds : found.Holds registry bytes.length layout offset) {values : List Value}
    (hvalues : Value.AllHeldAt registry ((found.view registry 0 bytes).store key?) layout.fields
      offset values) :
    Value.AllHeldAt registry (((found.rebase base).view registry base after).store key?)
      layout.fields offset values := by
  refine Value.AllHeldAt.transfer h.sound
    (fun layout offset => found.Holds registry bytes.length layout offset)
    (fun hholds => hholds.known)
    (fun hholds hfield hkind hinner => hholds.embedded h.sound hfield hkind hinner)
    (fun hholds hfield hkind => h.slice?_after hholds hfield hkind) ?_ ?_ hholds hvalues
  · intro layout offset field word content hholds hfield hkind hword hcontent
    have hpointer : ⟨offset + field.offset, .text⟩ ∈ found.pointers :=
      hholds.pointer_of_slotKind? h.sound hfield (by rw [hkind]; rfl)
    refine ⟨_, h.pointer_after hpointer hword, View.textAt_eq_ok_iff.2 ?_⟩
    rcases View.textAt_eq_ok_iff.1 hcontent with
      ⟨hzero, hnone⟩ | ⟨hnonzero, target, text, htarget, htext, hsome⟩
    · exact Or.inl ⟨if_pos hzero, hnone⟩
    · have htarget : word = target := htarget.trans (Nat.zero_add _)
      rw [if_neg hnonzero]
      refine Or.inr ⟨by omega, target, text, by rw [htarget]; rfl, ?_, hsome⟩
      exact hkept target text
        (h.textAt hpointer rfl (htarget ▸ hword) (htarget ▸ hnonzero) htext)
  · rintro layout offset field target word key hholds hfield hkind hword ⟨record, hrecord, hkey⟩
    have hpointer : ⟨offset + field.offset, .ref target.id⟩ ∈ found.pointers :=
      hholds.pointer_of_slotKind? h.sound hfield (by rw [hkind]; rfl)
    refine ⟨_, h.pointer_after hpointer hword, ?_⟩
    rcases View.recordAt_eq_ok_iff.1 hrecord with
      ⟨hzero, rfl⟩ | ⟨hnonzero, inner, place, hinner, hplace, hinside, halign, rfl⟩
    · exact ⟨none, View.recordAt_eq_ok_iff.2 (Or.inl ⟨if_pos hzero, rfl⟩), hkey⟩
    · have hplace : word = place := hplace.trans (Nat.zero_add _)
      refine ⟨some ⟨(found.rebase base).view registry base after, inner, place⟩,
        View.recordAt_eq_ok_iff.2 ?_, hkey⟩
      rw [if_neg hnonzero]
      exact Or.inr ⟨by omega, inner, place, hinner, by rw [hplace]; rfl,
        h.patched.length_eq ▸ hinside, halign, rfl⟩

/-- **Texts are kept** if both images hold the same values. -/
theorem readText_of_allHeldAt (h : Rebased registry base bytes after found)
    {key? : Nat → Option InstanceKey} {entry : Entry} (hentry : entry ∈ found.entries)
    {values : List Value}
    (hbefore : Value.AllHeldAt registry ((found.view registry 0 bytes).store key?)
      entry.layout.fields entry.offset values)
    (hafter : Value.AllHeldAt registry (((found.rebase base).view registry base after).store key?)
      entry.layout.fields entry.offset values)
    {slot : PointerSlot} (hslot : slot ∈ entry.layout.slots) (hkind : slot.kind = .text)
    {target : Nat} {text : String}
    (hword : bytes.readSlot (entry.offset + slot.offset) = .ok target) (hnonzero : target ≠ 0)
    (htext : bytes.readText target = .ok text) : after.readText target = .ok text := by
  have hpointer := Scan.mem_pointers_iff.2 ⟨entry, hentry, slot, hslot, rfl⟩
  obtain ⟨word, moved, hread, hmoved, hagree⟩ := Store.agreeAt_of_allHeldAt h.sound
    (h.accepted.fits entry hentry).known hbefore hafter hslot
  rw [PointerSlot.shift, hkind] at hagree
  obtain ⟨content, hcontent, hsame⟩ := hagree
  -- the word was the position of the text, and is now the base plus that position
  have hwordeq : word = target := Except.ok.inj (hread.symm.trans hword)
  have hmovedeq : moved = base + target := by
    have hnew := h.pointer_after hpointer hread
    rw [if_neg (hwordeq ▸ hnonzero), hwordeq] at hnew
    exact Except.ok.inj (hmoved.symm.trans hnew)
  rcases View.textAt_eq_ok_iff.1 hcontent with
    ⟨hzero, -⟩ | ⟨-, first, shown, hfirst, hshown, rfl⟩
  · exact absurd (hwordeq.symm.trans hzero) hnonzero
  have hfirsteq : first = target := (hfirst.trans (Nat.zero_add _)).symm.trans hwordeq
  have hshowneq : shown = text := by
    rw [hfirsteq] at hshown
    exact Except.ok.inj (hshown.symm.trans htext)
  rcases View.textAt_eq_ok_iff.1 hsame with ⟨-, hnone⟩ | ⟨-, second, again, hsecond, hagain, hsome⟩
  · cases hnone
  have hsecondeq : second = target := by
    have : base + second = base + target := hsecond.symm.trans hmovedeq
    omega
  have hagaineq : again = text := (Option.some_inj.1 hsome).symm.trans hshowneq
  rw [← hsecondeq, ← hagaineq]
  exact hagain

end Rebased

end ScenePack
