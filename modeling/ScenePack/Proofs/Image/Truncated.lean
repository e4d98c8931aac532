/-
**Truncated images.**

An image does not say how long it is.  That some of its bytes are missing at the end shows all the
same: a table or a record that is cut short does not lie inside any more, and behind the records
there are only texts, the last of which some record refers to.  So an image has no end but its own.

Main results:

* `Scene.exists_textPlace` — every text that an image keeps is the text of some leaf;
* `Scene.textAt_le_of_accepted`, `Scene.text_le_of_accepted` — what is accepted of an image reaches
  up to its texts, and holds each of them;
* `Scene.length_le_of_accepted` — **what is accepted of an image is all of it**;
* `Scene.truncation_detected` — **a truncated image has no view and is not relocated**.
-/

import ScenePack.Proofs.Image.Composed
import ScenePack.Proofs.Image.Extended

set_option relaxedAutoImplicit false
set_option autoImplicit false

namespace ScenePack

/-! ### Texts that leaves refer to -/

/-- **Every text that an image keeps is the text of some leaf**, the last one in particular. -/
theorem Scene.exists_textPlace {config : PackConfig} {scene : Scene} {kept : Nat} {text : String}
    (h : (scene.keptTexts config)[kept]? = some text) :
    ∃ index : Nat, scene.texts[index]? = some text ∧ scene.textPlace config index text = kept := by
  obtain ⟨hlt, hkept⟩ := List.getElem?_eq_some_iff.1 h
  cases hshared : config.shareTexts with
  | false =>
      rw [keptTexts, hshared] at h
      refine ⟨kept, h, ?_⟩
      rw [textPlace, hshared]
      rfl
  | true =>
      have hmem : text ∈ scene.texts := by
        have hmem := List.mem_of_getElem? h
        rw [keptTexts, hshared] at hmem
        exact List.mem_eraseDups.1 hmem
      have hnodup : (scene.keptTexts config).Nodup := by
        rw [keptTexts, hshared]
        exact nodup_eraseDups _
      obtain ⟨index, hindex⟩ := List.mem_iff_getElem?.1 hmem
      refine ⟨index, hindex, ?_⟩
      rw [textPlace, hshared, if_pos rfl, ← hkept]
      exact hnodup.idxOf_getElem kept hlt

/-- The words of the text leaves are pointers of the records. -/
theorem Scene.pointer_of_textsAt {registry : Registry} (hsound : registry.Sound)
    {config : PackConfig} {scene : Scene} (hformed : scene.Formed registry) {bytes : Bytes}
    {place : Nat × String}
    (h : place ∈ Leaf.textsAt ((scene.arrange registry config).leaves registry)) :
    ⟨place.1, .text⟩ ∈ ((scene.arrange registry config).found bytes).pointers := by
  rw [Arrangement.leaves, Leaf.textsAt, List.filterMap_flatMap] at h
  obtain ⟨stored, hstored, hplace⟩ := List.mem_flatMap.1 h
  have hmem := Arrangement.mem_stored_of_mem_places hstored
  obtain ⟨hlayout, -, hrecord⟩ := of_mem_stored hsound hmem
  obtain ⟨layout, hother, hvalues⟩ := hformed _ (List.mem_of_getElem? hrecord)
  cases hother.symm.trans hlayout
  have hrecordsound := (hsound _ _ hlayout).2
  have hslot := Value.slot_of_textsAt_allLeaves hsound stored.1.record.values hvalues
    hrecordsound.extent place hplace
  rw [← hrecordsound.slots_eq] at hslot
  exact List.mem_flatMap.2 ⟨_, List.mem_map_of_mem hstored, hslot⟩

/-! ### What is accepted of an image -/

namespace Scene

variable {registry : Registry} {config : PackConfig} {scene : Scene} {bytes front : Bytes}

theorem textAt_le_of_accepted
    (hcomposed : scene.Composed registry config (scene.arrange registry config).sizes
      (scene.arrange registry config).ranges (scene.arrange registry config).entries bytes)
    (hsound : registry.Sound)
    (h : Accepted registry 0 front ((scene.arrange registry config).found bytes)) :
    (scene.arrange registry config).sizes.textAt ≤ front.length := by
  rw [hcomposed.records_end]
  split
  · next entry hlast => exact (h.fits entry (List.mem_of_getLast? hlast)).inside
  · -- without records, the directory is the last part
    obtain ⟨-, hrecordsAt, -⟩ := parts_of_sizes hsound config scene
    obtain ⟨-, hinside, -⟩ := region_eq_ok_iff.1 h.directoryAt
    rw [hrecordsAt]
    exact hinside

/-- What is accepted of an image holds every text that is kept. -/
theorem text_le_of_accepted
    (hcomposed : scene.Composed registry config (scene.arrange registry config).sizes
      (scene.arrange registry config).ranges (scene.arrange registry config).entries bytes)
    (hsound : registry.Sound) (hformed : scene.Formed registry) (hfront : front <+: bytes)
    (h : Accepted registry 0 front ((scene.arrange registry config).found bytes)) {kept : Nat}
    {text : String} (hkept : (scene.keptTexts config)[kept]? = some text) :
    (scene.arrange registry config).sizes.textAt +
      textsSize ((scene.keptTexts config).take (kept + 1)) ≤ front.length := by
  obtain ⟨extra, rfl⟩ := hfront
  have hknown : ∀ record ∈ scene, ∃ layout, registry.layout? record.typeId = some layout :=
    fun record hrecord => ⟨_, (hformed record hrecord).choose_spec.1⟩
  have hleaves := (scene.placed hsound config).leaves_eq hsound hknown
  -- some leaf refers to the text
  obtain ⟨index, hindex, hplace⟩ := exists_textPlace hkept
  rw [← hcomposed.texts_leaves, List.getElem?_map, Option.map_eq_some_iff] at hindex
  obtain ⟨place, hleaf, rfl⟩ := hindex
  have hword := hcomposed.word index place hleaf
  rw [hplace] at hword
  have hmem := List.mem_of_getElem? hleaf
  rw [hleaves] at hmem
  obtain ⟨value, hvalue, hleads⟩ := h.leads _ (pointer_of_textsAt hsound hformed hmem)
  obtain rfl := Except.ok.inj ((Bytes.readSlot_extended hvalue extra).symm.trans hword)
  have hne : (scene.arrange registry config).sizes.textAt +
      textsSize ((scene.keptTexts config).take kept) ≠ 0 := by
    have hheader : 0 < (scene.arrange registry config).sizes.header := by
      rw [hcomposed.header_eq]
      decide
    simp only [ImageSizes.textAt, ImageSizes.recordsAt, ImageSizes.directoryAt,
      ImageSizes.rangesAt]
    omega
  obtain ⟨target, htarget, -, found, hfound⟩ := hleads hne
  obtain ⟨heq, -⟩ := offsetOf_eq_ok_iff.1 htarget
  rw [Nat.zero_add] at heq
  rw [← heq] at hfound
  obtain rfl : found = place.2 := Except.ok.inj
    ((Bytes.readText_extended hfound extra).symm.trans (hcomposed.readText hkept))
  have hinside := Bytes.le_of_readText hfound
  rw [List.take_add_one, hkept, Option.toList_some, textsSize_append, textsSize, textsSize]
  omega

/-- **What is accepted of an image is all of it.** -/
theorem length_le_of_accepted
    (hcomposed : scene.Composed registry config (scene.arrange registry config).sizes
      (scene.arrange registry config).ranges (scene.arrange registry config).entries bytes)
    (hsound : registry.Sound) (hformed : scene.Formed registry) (hfront : front <+: bytes)
    (h : Accepted registry 0 front ((scene.arrange registry config).found bytes)) :
    bytes.length ≤ front.length := by
  rw [hcomposed.length_eq_text]
  cases hlength : (scene.keptTexts config).length with
  | zero =>
      rw [List.length_eq_zero_iff.1 hlength]
      exact textAt_le_of_accepted hcomposed hsound h
  | succ last =>
      have hlast := List.getElem?_eq_getElem (hlength ▸ Nat.lt_add_one last)
      have hle := text_le_of_accepted hcomposed hsound hformed hfront h hlast
      rwa [List.take_of_length_le (Nat.le_of_eq hlength)] at hle

/-- **A truncated image is detected**: it has no view, and is not relocated to any place.  The
registry is exact, the scene is well formed, type ids and the count of records of each type are
32-bit numbers, and the image fits the address space. -/
theorem truncation_detected {registry : Registry} (hexact : registry.Exact) {config : PackConfig}
    {scene : Scene} (hformed : scene.Formed registry)
    (hids : ∀ record ∈ scene, record.typeId < Range.countLimit)
    (hcounts : ∀ id, (scene.filter fun record => record.typeId = id).length < Range.countLimit)
    {bytes : Bytes} (hpack : scene.pack registry config = .ok bytes)
    (hspace : bytes.length < Address.space) {front : Bytes} (hfront : front <+: bytes)
    (hne : front ≠ bytes) :
    (∃ error, View.ofBytes registry 0 front = .error error) ∧
      ∀ base, ∃ error, relocate registry base front = (.error error, front) := by
  have hsound := hexact.sound
  have hrefused : ∀ found, ¬Accepted registry 0 front found := by
    intro found haccepted
    have hcomposed := composed_arrange hsound hformed hids hcounts hpack hspace
    obtain ⟨writing, rfl, rfl, rfl, hpacked⟩ :=
      exists_packed hsound hformed hids hcounts hpack hspace
    -- a scan of all of the image finds the same
    obtain ⟨extra, hextra⟩ := hfront
    have hextended := haccepted.extended extra
    rw [hextra, ← scan_eq_ok_iff hsound, (scan_eq_ok_iff hsound).2 hpacked.accepted,
      Except.ok.injEq] at hextended
    subst hextended
    have hle := length_le_of_accepted hcomposed hsound hformed ⟨extra, hextra⟩ haccepted
    exact hne (List.IsPrefix.eq_of_length_le ⟨extra, hextra⟩ hle)
  constructor
  · cases hview : View.ofBytes registry 0 front with
    | error error => exact ⟨error, rfl⟩
    | ok view =>
        obtain ⟨found, haccepted, -⟩ := (View.ofBytes_eq_ok_iff hsound).1 hview
        exact absurd haccepted (hrefused found)
  · intro base
    rcases relocateScan_cases hsound base front with
      ⟨error, herror⟩ | ⟨found, _, haccepted, -⟩
    · exact ⟨error, by rw [relocate, herror]; rfl⟩
    · exact absurd haccepted (hrefused found)

/-- The image of the sample without its last byte. -/
theorem truncation_detected_sample :
    Sample.registry.Exact ∧ Sample.scene.Formed Sample.registry ∧
      Sample.scene.pack Sample.registry ⟨true⟩ = .ok Sample.packed ∧
      (∃ error, View.ofBytes Sample.registry 0 Sample.packed.dropLast = .error error) ∧
      ∃ error, relocate Sample.registry 4096 Sample.packed.dropLast =
        (.error error, Sample.packed.dropLast) := by
  have hne : Sample.packed.dropLast ≠ Sample.packed := by decide +kernel
  obtain ⟨hview, hrelocate⟩ := truncation_detected Sample.exact Sample.scene_formed
    Sample.typeId_lt Sample.count_lt Sample.pack_scene Sample.packed_lt (List.dropLast_prefix _) hne
  exact ⟨Sample.exact, Sample.scene_formed, Sample.pack_scene, hview, hrelocate 4096⟩

end Scene

end ScenePack
