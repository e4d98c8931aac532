/-
**Trailing bytes.**

The length of an image enters every check of a scan, but only as an upper bound, and a text ends at
its first zero byte.  So what is read from an image is also read if more bytes follow: an accepted
image stays accepted, a scan finds the same in it, and a relocation passes the bytes behind it
over.

Main results:

* `Bytes.word?_extended`, `Bytes.readText_extended` — what is read is read from a longer string;
* `Accepted.extended` — **an accepted image may be followed by any bytes**;
* `Accepted.toScene_extended` — they do not change the scene;
* `Bytes.Patched.extended` — nor are they patched;
* `View.trailing_inert` — **trailing bytes are inert**, for views and for relocation.
-/

import ScenePack.Proofs.Image.Contents
import ScenePack.Proofs.Image.Relocation

set_option relaxedAutoImplicit false
set_option autoImplicit false

namespace ScenePack

/-! ### What is read from a longer string -/

namespace Bytes

variable {bytes : Bytes} {position : Nat}

theorem slice?_extended {span : Bytes} {count : Nat} (h : bytes.slice? position count = some span)
    (extra : Bytes) : (bytes ++ extra).slice? position count = some span := by
  have hinside : position + count ≤ bytes.length := Nat.not_lt.1 fun hlt => by
    simp [slice?_eq_none_iff.2 hlt] at h
  rw [slice?, if_pos hinside] at h
  rw [slice?, if_pos (by rw [List.length_append]; omega), List.drop_append_of_le_length (by omega),
    List.take_append_of_le_length (by rw [List.length_drop]; omega)]
  exact h

theorem word?_extended {width value : Nat} (h : bytes.word? width position = some value)
    (extra : Bytes) : (bytes ++ extra).word? width position = some value := by
  obtain ⟨span, hspan, rfl⟩ := Option.map_eq_some_iff.1 h
  rw [word?, slice?_extended hspan extra]
  rfl

/-- **A word that lies inside** holds the same in a longer string. -/
theorem word?_append_of_le {width : Nat} (h : position + width ≤ bytes.length) (extra : Bytes) :
    (bytes ++ extra).word? width position = bytes.word? width position := by
  obtain ⟨span, hspan⟩ := exists_slice? h
  have hvalue : bytes.word? width position = some (Word.decode span) := by
    rw [word?, hspan]
    rfl
  rw [hvalue, word?_extended hvalue extra]

theorem readSlot_extended {value : Nat} (h : bytes.readSlot position = .ok value) (extra : Bytes) :
    (bytes ++ extra).readSlot position = .ok value :=
  readSlot_eq_ok_iff.2 (word?_extended (readSlot_eq_ok_iff.1 h) extra)

theorem readHeader_extended {header : Header} (h : bytes.readHeader = .ok header)
    (extra : Bytes) : (bytes ++ extra).readHeader = .ok header := by
  obtain ⟨hdirectory, hcount, hranges, hrangeCount⟩ := readHeader_eq_ok_iff.1 h
  exact readHeader_eq_ok_iff.2 ⟨word?_extended hdirectory extra, word?_extended hcount extra,
    word?_extended hranges extra, word?_extended hrangeCount extra⟩

theorem readRange_extended {range : Range} (h : bytes.readRange position = .ok range)
    (extra : Bytes) : (bytes ++ extra).readRange position = .ok range := by
  rw [readRange_eq_ok_iff] at h ⊢
  simp only [Range.decode?, Option.bind_eq_bind, Option.bind_eq_some_iff] at h ⊢
  obtain ⟨typeId, htype, count, hcount, hrange⟩ := h
  exact ⟨typeId, word?_extended htype extra, count, word?_extended hcount extra, hrange⟩

/-- **A text that ends inside** is the same in a longer string. -/
theorem readText_extended {text : String} (h : bytes.readText position = .ok text)
    (extra : Bytes) : (bytes ++ extra).readText position = .ok text := by
  have hinside := le_of_readText h
  rw [textSize] at hinside
  obtain ⟨hfree, rest, hrest⟩ := readText_eq_ok_iff.1 h
  refine readText_eq_ok_iff.2 ⟨hfree, rest ++ extra, ?_⟩
  rw [List.drop_append_of_le_length (by omega), hrest, List.append_assoc, List.cons_append]

end Bytes

/-- A region that lies inside also lies inside a longer image. -/
theorem region_extended {value base length longer count size align offset : Nat}
    (h : region value base length count size align = .ok offset) (hlength : length ≤ longer) :
    region value base longer count size align = .ok offset := by
  obtain ⟨hvalue, hinside, halign⟩ := region_eq_ok_iff.1 h
  exact region_eq_ok_iff.2 ⟨hvalue, Nat.le_trans hinside hlength, halign⟩

/-! ### Accepted images -/

section Extended

variable {registry : Registry} {base : Nat} {bytes : Bytes} {found : Scan}

theorem Lists.extended {directoryAt : Nat} {place : TypeId × Nat} {entry : Entry}
    (h : Lists registry bytes base directoryAt place entry) (extra : Bytes) :
    Lists registry (bytes ++ extra) base directoryAt place entry := by
  obtain ⟨layout, hlayout, hentry⟩ := h
  obtain ⟨heq, hinside, halign, hword⟩ := readEntry_eq_ok_iff.1 hentry
  refine ⟨layout, hlayout, readEntry_eq_ok_iff.2 ⟨heq, ?_, halign, ?_⟩⟩
  · rw [List.length_append]
    omega
  · exact Bytes.readSlot_extended hword extra

/-- A pointer leads to the same place if more bytes follow. -/
theorem Scan.Leads.extended {kind : SlotKind} {value : Nat} (h : found.Leads bytes base kind value)
    (extra : Bytes) : found.Leads (bytes ++ extra) base kind value := by
  obtain ⟨target, htarget, hkind⟩ := h
  obtain ⟨rfl, hinside⟩ := offsetOf_eq_ok_iff.1 htarget
  refine ⟨target, offsetOf_eq_ok_iff.2 ⟨rfl, ?_⟩, ?_⟩
  · rw [List.length_append]
    omega
  · cases kind with
    | text =>
        obtain ⟨houtside, text, htext⟩ := hkind
        exact ⟨houtside, text, Bytes.readText_extended htext extra⟩
    | ref expected => exact hkind

theorem Framed.extended (h : Framed registry base bytes found) (extra : Bytes) :
    Framed registry base (bytes ++ extra) found := by
  have hlength : bytes.length ≤ (bytes ++ extra).length := by
    rw [List.length_append]
    omega
  obtain ⟨ranges, hranges, hknown, hcount, hlists⟩ := h.listed
  refine ⟨Bytes.readHeader_extended h.header extra, region_extended h.rangesAt hlength,
    region_extended h.directoryAt hlength, ⟨ranges, ?_, hknown, hcount, ?_⟩, h.disjoint⟩
  · exact hranges.imp fun _ _ hrange => Bytes.readRange_extended hrange extra
  · exact hlists.imp fun _ _ hentry => hentry.extended extra

namespace Accepted

/-- **An accepted image may be followed by any bytes**: a scan finds the same in it. -/
theorem extended (h : Accepted registry base bytes found) (extra : Bytes) :
    Accepted registry base (bytes ++ extra) found := by
  refine ⟨h.toFramed.extended extra, ?_, ?_⟩
  · intro pointer hpointer
    obtain ⟨value, hvalue, hleads⟩ := h.leads pointer hpointer
    exact ⟨value, Bytes.readSlot_extended hvalue extra, fun hne => (hleads hne).extended extra⟩
  · rw [h.slots_eq, Bytes.nonNull, Bytes.nonNull]
    refine congrArg _ (List.filter_congr ?_)
    intro position hposition
    obtain ⟨pointer, hpointer, rfl⟩ := List.mem_map.1 hposition
    obtain ⟨value, hvalue, -⟩ := h.leads pointer hpointer
    have hword := Bytes.readSlot_eq_ok_iff.1 hvalue
    rw [hword, Bytes.word?_extended hword extra]

theorem allHeldAt_extended (hsound : registry.Sound) {key? : Nat → Option InstanceKey}
    {layout : RecordLayout} {offset : Nat}
    (hholds : found.Holds registry bytes.length layout offset) {values : List Value}
    (hvalues : Value.AllHeldAt registry ((found.view registry base bytes).store key?) layout.fields
      offset values) (extra : Bytes) :
    Value.AllHeldAt registry ((found.view registry base (bytes ++ extra)).store key?) layout.fields
      offset values := by
  refine Value.AllHeldAt.transfer hsound
    (fun layout offset => found.Holds registry bytes.length layout offset)
    (fun hholds => hholds.known)
    (fun hholds hfield hkind hinner => hholds.embedded hsound hfield hkind hinner)
    ?_ ?_ ?_ hholds hvalues
  · intro layout offset field type hholds hfield hkind
    obtain ⟨position, hlayout⟩ := hholds.known
    have hwidth : field.size = type.size :=
      (hsound position layout hlayout).2.size_eq hfield (by rw [hkind]; rfl)
    obtain ⟨span, hspan⟩ := Bytes.exists_slice? (hwidth ▸ hholds.field_inside hsound hfield)
    exact (Bytes.slice?_extended hspan extra).trans hspan.symm
  · intro layout offset field word content _ _ _ hword hcontent
    refine ⟨word, Bytes.readSlot_extended hword extra, View.textAt_eq_ok_iff.2 ?_⟩
    rcases View.textAt_eq_ok_iff.1 hcontent with
      hnull | ⟨hnonzero, target, text, htarget, htext, hsome⟩
    · exact Or.inl hnull
    · exact Or.inr ⟨hnonzero, target, text, htarget, Bytes.readText_extended htext extra, hsome⟩
  · rintro layout offset field target word key _ _ _ hword ⟨record, hrecord, hkey⟩
    refine ⟨word, Bytes.readSlot_extended hword extra, ?_⟩
    rcases View.recordAt_eq_ok_iff.1 hrecord with
      ⟨hzero, rfl⟩ | ⟨hnonzero, inner, place, hinner, hplace, hinside, halign, rfl⟩
    · exact ⟨none, View.recordAt_eq_ok_iff.2 (Or.inl ⟨hzero, rfl⟩), hkey⟩
    · refine ⟨some ⟨found.view registry base (bytes ++ extra), inner, place⟩,
        View.recordAt_eq_ok_iff.2 (Or.inr ⟨hnonzero, inner, place, hinner, hplace, ?_, halign,
          rfl⟩), hkey⟩
      have hlength : bytes.length ≤ (bytes ++ extra).length := by simp
      exact Nat.le_trans hinside hlength

/-- **The scene of an image** does not depend on the bytes that follow it. -/
theorem toScene_extended (h : Accepted registry base bytes found) (hsound : registry.Sound)
    (extra : Bytes) :
    (found.view registry base (bytes ++ extra)).toScene =
      (found.view registry base bytes).toScene := by
  obtain ⟨scene, hscene⟩ := h.exists_toScene hsound
  rw [hscene, (h.toFramed.extended extra).toScene_eq_ok_iff hsound]
  refine forall₂_imp_of_mem ?_ ((h.toScene_eq_ok_iff hsound).1 hscene)
  rintro entry hentry record ⟨htype, hheld⟩
  exact ⟨htype, allHeldAt_extended hsound (h.holds_of_entry hsound hentry) hheld extra⟩

end Accepted

end Extended

/-! ### Patches -/

/-- **Bytes that follow the patched words** are kept. -/
theorem Bytes.Patched.extended {base : Nat} {slots : List Nat} {before after : Bytes}
    (h : Patched base slots before after)
    (hinside : ∀ slot ∈ slots, slot + Address.width ≤ before.length) (extra : Bytes) :
    Patched base slots (before ++ extra) (after ++ extra) := by
  refine ⟨?_, ?_, ?_⟩
  · rw [List.length_append, List.length_append, h.length_eq]
  · intro slot hslot value hvalue
    rw [word?_append_of_le (hinside slot hslot)] at hvalue
    exact word?_extended (h.word slot hslot value hvalue) extra
  · intro i hi
    rcases Nat.lt_or_ge i before.length with hlt | hge
    · rw [List.getElem?_append_left (h.length_eq ▸ hlt), List.getElem?_append_left hlt]
      exact h.kept i hi
    · rw [List.getElem?_append_right (h.length_eq ▸ hge), List.getElem?_append_right hge,
        h.length_eq]

/-! ### Views and relocation -/

/-- **Trailing bytes are inert.**  An image that has a view has one if any bytes follow: with the
same tables, the same instances at the same positions, and the same scene.  If an image is
relocated, it is also relocated with these bytes, as long as they fit the address space: the same
words are changed, and the bytes that follow are kept. -/
theorem View.trailing_inert {registry : Registry} (hexact : registry.Exact) (base : Nat)
    (bytes extra : Bytes) :
    (∀ view, View.ofBytes registry base bytes = .ok view →
      ∃ longer, View.ofBytes registry base (bytes ++ extra) = .ok longer ∧
        longer = { view with bytes := bytes ++ extra } ∧
        longer.instances.map (fun record => (record.layout, record.offset)) =
          view.instances.map (fun record => (record.layout, record.offset)) ∧
        longer.toScene = view.toScene) ∧
      ∀ count after, relocate registry base bytes = (.ok count, after) →
        base + (bytes ++ extra).length < Address.space →
          relocate registry base (bytes ++ extra) = (.ok count, after ++ extra) := by
  have hsound := hexact.sound
  constructor
  · intro view hview
    obtain ⟨found, haccepted, rfl⟩ := (View.ofBytes_eq_ok_iff hsound).1 hview
    refine ⟨_, (View.ofBytes_eq_ok_iff hsound).2 ⟨found, haccepted.extended extra, rfl⟩, rfl, ?_,
      haccepted.toScene_extended hsound extra⟩
    rw [(haccepted.extended extra).instances_eq, haccepted.instances_eq, List.map_map,
      List.map_map]
    rfl
  · intro count after hrelocate hspace
    rcases relocateScan_cases hsound base bytes with
      ⟨error, herror⟩ | ⟨found, patched, haccepted, -, hok, hpatched⟩
    · simp [relocate, herror, Except.map] at hrelocate
    obtain ⟨hcount, rfl⟩ : Except.ok found.slots.length = .ok count ∧ patched = after := by
      simpa [relocate, hok, Except.map] using hrelocate
    have hinside : ∀ slot ∈ found.slots, slot + Address.width ≤ bytes.length := fun slot hslot =>
      haccepted.word_inside hsound (haccepted.slots_sublist.subset hslot)
    obtain ⟨longer, hlonger, hpatchedlonger⟩ :=
      (haccepted.extended extra).exists_relocated hsound hspace
    obtain rfl : longer = patched ++ extra := by
      refine hpatchedlonger.unique (hpatched.extended hinside extra) (fun _ => Iff.rfl) ?_
      intro slot hslot
      rw [List.length_append]
      exact Nat.le_trans (hinside slot hslot) (Nat.le_add_right _ _)
    rw [relocate, hlonger]
    exact congrArg (·, _) hcount

/-- The image of the sample may be followed by a byte. -/
theorem View.trailing_inert_sample :
    Sample.registry.Exact ∧
      View.ofBytes Sample.registry 0 (Sample.image ++ [7]) =
        .ok { Sample.view with bytes := Sample.image ++ [7] } ∧
      relocate Sample.registry 4096 (Sample.image ++ [7]) = (.ok 5, Sample.relocated ++ [7]) := by
  obtain ⟨longer, hlonger, rfl, -⟩ :=
    (trailing_inert Sample.exact 0 Sample.image [7]).1 Sample.view Sample.ofBytes_image
  exact ⟨Sample.exact, hlonger, (trailing_inert Sample.exact 4096 Sample.image [7]).2 5
    Sample.relocated Sample.relocate_image (by decide)⟩

end ScenePack
