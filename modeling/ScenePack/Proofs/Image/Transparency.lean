/-
**What a relocation keeps.**

A scan checks that a text starts outside the header, the tables and the records.  It does not check
where the text ends: a text may start in a gap and run on into a word that a relocation changes.
Then the relocated image may hold another text, or none.  This is the only way in which a relocation
can change a scene.

Main definitions:

* `View.ShownBy` — bytes show the scene of a view at another base;
* `View.TextsClear` — no text runs into a word that a relocation changes.

Main results:

* `Rebased.shownBy_iff` — **a relocation keeps the scene exactly if it keeps the texts**;
* `Rebased.textsKept_of_textsClear`, `Rebased.textsClear_of_textsKept` — texts that are clear of all
  changed words are kept, and no others unless the base is a multiple of 256;
* `relocation_keeps_scene_iff` — both for `relocate` and for buffers;
* `Sample.relocation_changes_text` — **a relocation that changes a text**.
-/

import ScenePack.Image.Buffer
import ScenePack.Proofs.Image.Rebased

set_option relaxedAutoImplicit false
set_option autoImplicit false

namespace ScenePack

namespace View

/-- Bytes show the scene of a view at another base. -/
def ShownBy (view : View) (base : Nat) (after : Bytes) : Prop :=
  ∃ moved, View.ofBytes view.registry base after = .ok moved ∧ moved.toScene = view.toScene

/-- No text runs into a word that a relocation changes. -/
def TextsClear (view : View) : Prop :=
  ∀ start text, view.TextAt start text → ∀ slot ∈ view.slots,
    slot + Address.width ≤ start ∨ start + textSize text ≤ slot

end View

namespace Rebased

variable {registry : Registry} {base : Nat} {bytes after : Bytes} {found : Scan}

/-! ### The relocated image -/

/-- The pointers that lead somewhere are the same after a relocation. -/
theorem nonNull_after (h : Rebased registry base bytes after found) :
    after.nonNull found.pointers = bytes.nonNull found.pointers := by
  refine List.filter_congr ?_
  intro position hposition
  obtain ⟨pointer, hpointer, rfl⟩ := List.mem_map.1 hposition
  obtain ⟨word, hword, -⟩ := h.accepted.leads pointer hpointer
  rw [Bytes.readSlot_eq_ok_iff.1 (h.pointer_after hpointer hword),
    Bytes.readSlot_eq_ok_iff.1 hword]
  by_cases hzero : word = 0
  · rw [if_pos hzero, hzero]
  · rw [if_neg hzero]
    simp [hzero]

/-- **A relocated image is accepted** if texts are kept. -/
theorem accepted_after (h : Rebased registry base bytes after found)
    (hkept : (found.view registry 0 bytes).TextsKept after) :
    Accepted registry base after (found.rebase base) := by
  refine ⟨h.framed, ?_, ?_⟩
  · intro pointer hpointer
    obtain ⟨word, hword, hleads⟩ := h.accepted.leads pointer hpointer
    refine ⟨_, h.pointer_after hpointer hword, ?_⟩
    intro hnonzero
    have hne : word ≠ 0 := fun hzero => hnonzero (if_pos hzero)
    obtain ⟨target, htarget, hkind⟩ := hleads hne
    obtain ⟨hvalue, hlt⟩ := offsetOf_eq_ok_iff.1 htarget
    rw [Nat.zero_add] at hvalue
    refine ⟨target, offsetOf_eq_ok_iff.2 ⟨?_, h.patched.length_eq ▸ hlt⟩, ?_⟩
    · rw [if_neg hne, hvalue]
    · cases hslot : pointer.kind with
      | text =>
          rw [hslot] at hkind
          obtain ⟨houtside, text, htext⟩ := hkind
          exact ⟨houtside, text, hkept target text
            (h.textAt hpointer hslot (hvalue ▸ hword) (hvalue ▸ hne) htext)⟩
      | ref expected =>
          rw [hslot] at hkind
          exact hkind
  · exact h.accepted.slots_eq.trans (congrArg (_ ++ ·) h.nonNull_after.symm)

/-- A relocated image that has a view at all has this one. -/
theorem view_eq (h : Rebased registry base bytes after found) {moved : View}
    (hmoved : View.ofBytes registry base after = .ok moved) :
    moved = (found.rebase base).view registry base after := by
  obtain ⟨other, haccepted, rfl⟩ := (View.ofBytes_eq_ok_iff h.sound).1 hmoved
  have hheader : other.header = (found.rebase base).header :=
    Except.ok.inj (haccepted.header.symm.trans h.header)
  have hranges := haccepted.rangesAt
  have hdirectory := haccepted.directoryAt
  rw [hheader] at hranges hdirectory
  have hrangesAt : other.rangesAt = (found.rebase base).rangesAt :=
    Except.ok.inj (hranges.symm.trans h.framed.rangesAt)
  have hdirectoryAt : other.directoryAt = (found.rebase base).directoryAt :=
    Except.ok.inj (hdirectory.symm.trans h.framed.directoryAt)
  rw [Scan.view, Scan.view, hheader, hrangesAt, hdirectoryAt]

/-! ### Scenes -/

/-- **A relocation keeps the scene exactly if it keeps the texts.** -/
theorem toScene_eq_iff (h : Rebased registry base bytes after found) :
    ((found.rebase base).view registry base after).toScene = (found.view registry 0 bytes).toScene ↔
      (found.view registry 0 bytes).TextsKept after := by
  obtain ⟨scene, hscene⟩ := h.accepted.exists_toScene h.sound
  have hbefore := (h.accepted.toScene_eq_ok_iff h.sound).1 hscene
  rw [hscene, h.framed.toScene_eq_ok_iff h.sound]
  constructor
  · rintro hafter target text ⟨position, hposition, hnonzero, hword, htext⟩
    have hpointer := (h.accepted.pointerAt_iff h.sound).1 hposition
    obtain ⟨entry, hentry, slot, hslot, hshift⟩ := Scan.mem_pointers_iff.1 hpointer
    obtain ⟨hoffset, hkind⟩ := PointerSlot.mk.inj hshift
    obtain ⟨record, ⟨-, hfirst⟩, -, hsecond⟩ := exists_of_forall₂_of_mem hbefore hafter hentry
    rw [Scan.view, Nat.zero_add] at hnonzero hword
    refine h.readText_of_allHeldAt hentry hfirst hsecond hslot hkind.symm ?_ hnonzero htext
    rw [← hoffset]
    exact Bytes.readSlot_eq_ok_iff.2 hword
  · intro hkept
    refine forall₂_imp_of_mem (fun entry hentry record hrecord => ?_) hbefore
    exact ⟨hrecord.1, h.allHeldAt hkept (h.accepted.holds_of_entry h.sound hentry) hrecord.2⟩

/-- A relocated image has a view that shows the scene exactly if texts are kept. -/
theorem shownBy_iff (h : Rebased registry base bytes after found) :
    (found.view registry 0 bytes).ShownBy base after ↔
      (found.view registry 0 bytes).TextsKept after := by
  rw [← h.toScene_eq_iff]
  constructor
  · rintro ⟨moved, hmoved, hscene⟩
    rw [← h.view_eq hmoved]
    exact hscene
  · intro hscene
    exact ⟨_, (View.ofBytes_eq_ok_iff h.sound).2
      ⟨_, h.accepted_after (h.toScene_eq_iff.1 hscene), rfl⟩, hscene⟩

/-! ### Texts that are kept -/

/-- **Texts that are clear of all changed words are kept.** -/
theorem textsKept_of_textsClear (h : Rebased registry base bytes after found)
    (hclear : (found.view registry 0 bytes).TextsClear) :
    (found.view registry 0 bytes).TextsKept after := by
  intro start text htext
  have hagree := h.patched.agreeOn start (start + textSize text)
    fun slot hslot => (hclear start text htext slot (by rwa [h.accepted.slots_eq_view])).symm
  obtain ⟨_, _, _, _, hread⟩ := htext
  exact hagree.readText hread

theorem start_outside (h : Rebased registry base bytes after found) {start : Nat} {text : String}
    (htext : (found.view registry 0 bytes).TextAt start text) :
    ∀ region ∈ found.regions, ¬region.Contains start := by
  obtain ⟨position, hposition, hnonzero, hword, -⟩ := htext
  have hpointer := (h.accepted.pointerAt_iff h.sound).1 hposition
  obtain ⟨value, hvalue, hleads⟩ := h.accepted.leads _ hpointer
  have hvalueeq : value = 0 + start :=
    Option.some_inj.1 ((Bytes.readSlot_eq_ok_iff.1 hvalue).symm.trans hword)
  obtain ⟨target, htarget, houtside, -⟩ := hleads (hvalueeq ▸ hnonzero)
  obtain ⟨htargeteq, -⟩ := offsetOf_eq_ok_iff.1 htarget
  have heq : start = target := by omega
  exact heq ▸ houtside

/-- **No other texts are kept**, unless the base is a multiple of 256: a text that runs into a
changed word covers its lowest byte, which changes. -/
theorem textsClear_of_textsKept (h : Rebased registry base bytes after found)
    (hbase : base % 256 ≠ 0) (hkept : (found.view registry 0 bytes).TextsKept after) :
    (found.view registry 0 bytes).TextsClear := by
  intro start text htext slot hslot
  rw [h.accepted.slots_eq_view] at hslot
  by_contra hoverlap
  have houtside := h.start_outside htext
  have hread := hkept start text htext
  obtain ⟨_, _, _, _, htext⟩ := htext
  -- the text starts in front of the word, since it starts outside of its region
  obtain ⟨region, hregion, hholds⟩ :=
    h.accepted.exists_region h.sound (h.accepted.slots_sublist.subset hslot)
  have hstart := houtside region hregion
  simp only [Span.Contains, Span.HoldsWord] at hstart hholds
  have hbyte : after[slot]? = bytes[slot]? :=
    Bytes.agreeOn_of_readText hread htext slot (by omega) (by omega)
  obtain ⟨offset, -, hword⟩ := h.accepted.slot_value hslot
  have hbefore := Bytes.getElem?_of_word? (by decide) hword
  have hafter := Bytes.getElem?_of_word? (by decide) (h.slot_after hslot hword)
  rw [hbefore, hafter, Option.some_inj, ← UInt8.toNat_inj, UInt8.toNat_ofNat',
    UInt8.toNat_ofNat'] at hbyte
  omega

end Rebased

/-! ### Relocations and buffers -/

theorem rebased_of_relocateScan {registry : Registry} (hsound : registry.Sound) {base : Nat}
    {bytes after : Bytes} {found : Scan}
    (h : relocateScan registry base bytes = (.ok found, after)) :
    Rebased registry base bytes after found := by
  rcases relocateScan_cases hsound base bytes with
    ⟨error, herror⟩ | ⟨other, next, haccepted, hspace, hok, hpatched⟩
  · cases herror.symm.trans h
  · cases hok.symm.trans h
    exact ⟨hsound, haccepted, hspace, hpatched⟩

/-- A buffer that is resolved holds a relocated image, and shows what the scan found in it. -/
theorem Buffer.rebased_of_resolve {registry : Registry} (hsound : registry.Sound)
    {buffer next : Buffer} {shown : View} (h : buffer.resolve registry = (.ok shown, next)) :
    ∃ found, Rebased registry buffer.address buffer.bytes next.bytes found ∧
      buffer.view registry = .ok (found.view registry 0 buffer.bytes) ∧
      shown = (found.rebase buffer.address).view registry buffer.address next.bytes ∧
      next.view registry = View.ofBytes registry buffer.address next.bytes ∧
      ∀ other, next.resolve other = (.error .alreadyResolved, next) := by
  obtain ⟨address, bytes, state⟩ := buffer
  cases state with
  | resolved base => cases h
  | raw =>
      dsimp only [resolve] at h
      split at h
      · cases h
      next found after hrelocate =>
      have hrebased := rebased_of_relocateScan hsound hrelocate
      rw [show View.ofScan registry address after found =
        .ok ((found.rebase address).view registry address after) by
          rw [View.ofScan, hrebased.header]; rfl] at h
      cases h
      exact ⟨found, hrebased, (View.ofBytes_eq_ok_iff hsound).2 ⟨found, hrebased.accepted, rfl⟩,
        rfl, rfl, fun _ => rfl⟩

/-- **When a relocation keeps the scene.**  The relocated image has a view that shows the same scene
exactly if the texts are kept.  They are if no text runs into a word that is changed, and otherwise
only if the base is a multiple of 256.  The same holds of resolving a buffer, whose view is then the
one that all later views show. -/
theorem relocation_keeps_scene_iff {registry : Registry} (hexact : registry.Exact) :
    (∀ base bytes view count after, View.ofBytes registry 0 bytes = .ok view →
      relocate registry base bytes = (.ok count, after) →
      (view.ShownBy base after ↔ view.TextsKept after) ∧
        (view.TextsClear → view.TextsKept after) ∧
        (base % 256 ≠ 0 → view.TextsKept after → view.TextsClear)) ∧
    ∀ buffer shown next, Buffer.resolve registry buffer = (.ok shown, next) →
      ∃ before, buffer.view registry = .ok before ∧
        (next.view registry = .ok shown ∧ shown.toScene = before.toScene ↔
          before.TextsKept next.bytes) ∧
        (before.TextsClear → before.TextsKept next.bytes) ∧
        (buffer.address % 256 ≠ 0 → before.TextsKept next.bytes → before.TextsClear) ∧
        ∀ other, next.resolve other = (.error .alreadyResolved, next) := by
  have hsound := hexact.sound
  constructor
  · intro base bytes view count after hview hrelocate
    obtain ⟨found, haccepted, rfl⟩ := (View.ofBytes_eq_ok_iff hsound).1 hview
    rw [relocate] at hrelocate
    rcases relocateScan_cases hsound base bytes with
      ⟨error, herror⟩ | ⟨other, next, hother, -, hok, -⟩
    · rw [herror] at hrelocate
      cases hrelocate
    · rw [hok] at hrelocate
      cases hrelocate
      have hsame : other = found := Except.ok.inj
        (((scan_eq_ok_iff hsound).2 hother).symm.trans ((scan_eq_ok_iff hsound).2 haccepted))
      rw [hsame] at hok
      have hrebased := rebased_of_relocateScan hsound hok
      exact ⟨hrebased.shownBy_iff, hrebased.textsKept_of_textsClear,
        hrebased.textsClear_of_textsKept⟩
  · intro buffer shown next hresolve
    obtain ⟨found, hrebased, hbefore, rfl, hnext, hagain⟩ :=
      Buffer.rebased_of_resolve hsound hresolve
    refine ⟨_, hbefore, ⟨fun h => hrebased.toScene_eq_iff.1 h.2, fun hkept => ⟨?_, ?_⟩⟩,
      hrebased.textsKept_of_textsClear, hrebased.textsClear_of_textsKept, hagain⟩
    · rw [hnext]
      exact (View.ofBytes_eq_ok_iff hsound).2 ⟨_, hrebased.accepted_after hkept, rfl⟩
    · exact hrebased.toScene_eq_iff.2 hkept

/-- The sample keeps its scene at the address 4096 exactly if it keeps its text. -/
theorem relocation_keeps_scene_iff_sample :
    Sample.registry.Exact ∧ View.ofBytes Sample.registry 0 Sample.image = .ok Sample.view ∧
      relocate Sample.registry 4096 Sample.image = (.ok 5, Sample.relocated) ∧
      (Sample.view.ShownBy 4096 Sample.relocated ↔ Sample.view.TextsKept Sample.relocated) :=
  ⟨Sample.exact, Sample.ofBytes_image, Sample.relocate_image,
    ((relocation_keeps_scene_iff Sample.exact).1 4096 Sample.image Sample.view 5 Sample.relocated
      Sample.ofBytes_image Sample.relocate_image).1⟩

/-! ### A text that is changed -/

namespace Sample

/-- The image of one tag at 64, whose text starts in the gap at 56 and runs on into the word that
leads to it. -/
def straddling : Bytes :=
  [40, 1, 32, 1, 4294967297, 64, 0].flatMap (Word.encode Address.width) ++
    List.replicate 8 65 ++ [56, 0].flatMap (Word.encode Address.width)

/-- **A relocation that changes a text**: the lowest byte of the word is the last byte of the text,
`'8'` at first and `'9'` behind the base 1. -/
theorem relocation_changes_text :
    registry.Exact ∧ ∃ view after moved,
      View.ofBytes registry 0 straddling = .ok view ∧
      relocate registry 1 straddling = (.ok 4, after) ∧
      View.ofBytes registry 1 after = .ok moved ∧
      view.toScene = .ok [⟨1, [.text (some "AAAAAAAA8")]⟩] ∧
      moved.toScene = .ok [⟨1, [.text (some "AAAAAAAA9")]⟩] ∧
      moved.toScene ≠ view.toScene := by
  let after : Bytes :=
    [41, 1, 33, 1, 4294967297, 65, 0].flatMap (Word.encode Address.width) ++
      List.replicate 8 65 ++ [57, 0].flatMap (Word.encode Address.width)
  have hbefore : (View.mk registry 0 straddling ⟨40, 1, 32, 1⟩ 32 40).toScene =
      .ok [⟨1, [.text (some "AAAAAAAA8")]⟩] := by cbv
  have hafter : (View.mk registry 1 after ⟨41, 1, 33, 1⟩ 32 40).toScene =
      .ok [⟨1, [.text (some "AAAAAAAA9")]⟩] := by cbv
  refine ⟨exact, ⟨registry, 0, straddling, ⟨40, 1, 32, 1⟩, 32, 40⟩, after,
    ⟨registry, 1, after, ⟨41, 1, 33, 1⟩, 32, 40⟩, by cbv, by cbv, by cbv, hbefore, hafter, ?_⟩
  rw [hbefore, hafter]
  simp

end Sample

end ScenePack
