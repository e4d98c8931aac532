/-
**Canonical images.**

The image of a scene does not depend on the order in which the scene lists records of different
types: arranging, writing and the pool of texts only look at the order of the image.  An image that
is read and packed again is therefore the same, byte for byte.

Main definitions:

* `Arrangement.rename` — an arrangement of the same records by other keys.

Main results:

* `Scene.Rearranges.pack_iff` — **rearranged scenes have the same image**;
* `Scene.counts_of_ofBytes` — an image is accepted only if no count of its ranges was reduced;
* `Scene.pack_canonical` — **images are canonical**, also when they are read and packed again.
-/

import ScenePack.Proofs.Image.RoundTrip
import ScenePack.Proofs.Scene.Rearranged

set_option relaxedAutoImplicit false
set_option autoImplicit false

namespace ScenePack

variable {registry : Registry} {config : PackConfig} {move : InstanceKey → InstanceKey}

/-! ### Texts -/

namespace Value

mutual

/-- Texts do not depend on what references lead to. -/
theorem texts_rename (value : Value) : texts (value.rename move) = texts value := by
  cases value with
  | scalar number => rw [rename_scalar]
  | text content => rw [rename_text]
  | component typeId values =>
      rw [rename_component, texts, texts]
      exact allTexts_renameAll values
  | ref key =>
      cases key with
      | none => rw [rename_none]
      | some key => rw [rename_ref, texts.eq_def, texts.eq_def]

theorem allTexts_renameAll (values : List Value) :
    allTexts (renameAll move values) = allTexts values := by
  cases values with
  | nil => rw [renameAll]
  | cons value values =>
      rw [renameAll, allTexts, allTexts, texts_rename value, allTexts_renameAll values]

end

end Value

/-! ### Arrangements -/

/-- The arrangement of the same records, known by other keys. -/
def Arrangement.rename (move : InstanceKey → InstanceKey) (arrangement : Arrangement) :
    Arrangement :=
  { arrangement with stored := arrangement.stored.map (StoredRecord.rename move) }

theorem Arrangement.front_rename (arrangement : Arrangement) :
    (arrangement.rename move).front = arrangement.front := by
  have hheader : (arrangement.rename move).header = arrangement.header := by
    rw [header, header, rename, List.length_map]
  rw [front, front, hheader]
  rfl

/-- A position is looked up by its key, which may be changed if other keys stay others. -/
theorem lookup_map_key {items : List (InstanceKey × Nat)} {key : InstanceKey}
    (h : ∀ item ∈ items, move key = move item.1 ↔ key = item.1) :
    (items.map fun item => (move item.1, item.2)).lookup (move key) = items.lookup key := by
  induction items with
  | nil => rfl
  | cons item rest ih =>
      obtain ⟨hitem, hrest⟩ := List.forall_mem_cons.1 h
      rw [List.map_cons, List.lookup_cons, List.lookup_cons, ih hrest]
      by_cases heq : key = item.1
      · rw [heq, beq_self_eq_true, beq_self_eq_true]
      · have hne : move key ≠ move item.1 := fun hsame => heq (hitem.1 hsame)
        rw [beq_eq_false_iff_ne.2 hne, beq_eq_false_iff_ne.2 heq]

namespace Scene.Rearranges

variable {scene other : Scene}

theorem ranges_eq (h : Rearranges move scene other) (registry : Registry) :
    other.ranges registry = scene.ranges registry := by
  simp only [ranges, h.storedOf_eq, List.length_map]

theorem storedTexts_eq (h : Rearranges move scene other) (registry : Registry)
    (config : PackConfig) :
    other.storedTexts registry config = scene.storedTexts registry config := by
  have htexts : ((other.stored registry).flatMap fun entry => Value.allTexts entry.record.values) =
      (scene.stored registry).flatMap fun entry => Value.allTexts entry.record.values := by
    rw [h.stored_eq, List.flatMap_map]
    exact congrArg (List.flatMap · _)
      (funext fun entry => Value.allTexts_renameAll entry.record.values)
  rw [storedTexts, storedTexts, htexts]

/-- **A rearranged scene is arranged alike.** -/
theorem arrange_eq (h : Rearranges move scene other) (registry : Registry) (config : PackConfig) :
    other.arrange registry config = (scene.arrange registry config).rename move := by
  have hlayouts : (other.stored registry).map StoredRecord.layout =
      (scene.stored registry).map StoredRecord.layout := by
    rw [h.stored_eq, List.map_map]
    rfl
  simp only [arrange, Arrangement.rename, hlayouts, h.ranges_eq, h.storedTexts_eq]
  rw [h.stored_eq, List.length_map]

theorem position?_eq (h : Rearranges move scene other) (registry : Registry) (config : PackConfig)
    (key : InstanceKey) :
    (other.arrange registry config).position? (move key) =
      (scene.arrange registry config).position? key := by
  rw [h.arrange_eq, Arrangement.position?, Arrangement.position?]
  have hkeys : ((scene.arrange registry config).rename move).stored.map StoredRecord.key =
      ((scene.arrange registry config).stored.map StoredRecord.key).map move := by
    rw [Arrangement.rename, List.map_map, List.map_map]
    rfl
  rw [hkeys, List.zip_map_left]
  refine lookup_map_key ?_
  rintro ⟨own, position⟩ hitem
  obtain ⟨entry, hentry, rfl⟩ := List.mem_map.1 (List.of_mem_zip hitem).1
  obtain ⟨layout, -, hentry⟩ := List.mem_flatMap.1 hentry
  exact h.eq_iff (List.getElem?_eq_some_iff.1 (mem_storedOf_iff.1 hentry).1).1 key

end Scene.Rearranges

/-! ### Writing -/

section Writing

variable {first second : InstanceKey → Option Nat}

mutual

/-- A value is written as it was, if positions do not depend on keys. -/
theorem writeValue_rename_iff (h : ∀ key, second (move key) = first key) {owner field : String}
    {pool : TextPool} {result : Bytes × TextPool} (value : Value) :
    writeValue registry second owner field (value.rename move) pool = .ok result ↔
      writeValue registry first owner field value pool = .ok result := by
  cases value with
  | scalar number => rw [Value.rename_scalar, writeValue, writeValue]
  | text content =>
      cases content with
      | none => rw [Value.rename_text, writeValue, writeValue]
      | some text => rw [Value.rename_text, writeValue, writeValue]
  | component typeId values =>
      rw [Value.rename_component, writeValue, writeValue]
      split
      · exact Iff.rfl
      · next layout hlayout =>
          rw [bind_eq_ok_iff, bind_eq_ok_iff]
          exact exists_congr fun _ => and_congr_left fun _ => writeFields_rename_iff h values
  | ref key =>
      cases key with
      | none => rw [Value.rename_none, writeValue, writeValue]
      | some key =>
          rw [Value.rename_ref, writeValue, writeValue, h key]
          cases first key with
          | some position => exact Iff.rfl
          | none => simp

theorem writeFields_rename_iff (h : ∀ key, second (move key) = first key) {owner : RecordLayout}
    {fields : List FieldLayout} {written : Bytes} {pool : TextPool} {result : Bytes × TextPool}
    (values : List Value) :
    writeFields registry second owner fields (Value.renameAll move values) written pool =
        .ok result ↔
      writeFields registry first owner fields values written pool = .ok result := by
  cases values with
  | nil => simp [Value.renameAll, writeFields]
  | cons value values =>
      cases fields with
      | nil => simp [writeFields]
      | cons field fields =>
          rw [Value.renameAll, writeFields, writeFields, bind_eq_ok_iff, bind_eq_ok_iff]
          exact exists_congr fun _ =>
            and_congr (writeValue_rename_iff h value) (writeFields_rename_iff h values)

end

theorem writeRecords_rename_iff (h : ∀ key, second (move key) = first key)
    (places : List (StoredRecord × Nat)) {written : Bytes} {pool : TextPool}
    {result : Bytes × TextPool} :
    writeRecords registry second (places.map fun place => (place.1.rename move, place.2)) written
        pool = .ok result ↔
      writeRecords registry first places written pool = .ok result := by
  induction places generalizing written pool with
  | nil => exact Iff.rfl
  | cons place rest ih =>
      rw [List.map_cons, writeRecords, writeRecords, bind_eq_ok_iff, bind_eq_ok_iff]
      refine exists_congr fun _ => and_congr ?_ ih
      rw [writeRecord, writeRecord, bind_eq_ok_iff, bind_eq_ok_iff]
      exact exists_congr fun _ => and_congr_left fun _ => writeFields_rename_iff h _

end Writing

namespace Scene

/-- **Rearranged scenes have the same image**: both can be packed or none of them, and to the same
bytes. -/
theorem Rearranges.pack_iff {scene other : Scene} (h : Rearranges move scene other)
    (registry : Registry) (config : PackConfig) {bytes : Bytes} :
    other.pack registry config = .ok bytes ↔ scene.pack registry config = .ok bytes := by
  have hplaces : (other.arrange registry config).places =
      (scene.arrange registry config).places.map fun place => (place.1.rename move, place.2) := by
    rw [h.arrange_eq, Arrangement.places, Arrangement.rename, List.zip_map_left]
    rfl
  have hfront : (other.arrange registry config).front = (scene.arrange registry config).front := by
    rw [h.arrange_eq, Arrangement.front_rename]
  have htextAt : (other.arrange registry config).textAt = (scene.arrange registry config).textAt ∧
      (other.arrange registry config).sizes = (scene.arrange registry config).sizes := by
    rw [h.arrange_eq]
    exact ⟨rfl, rfl⟩
  rw [pack_eq_ok_iff, pack_eq_ok_iff, h.check_iff, write, write, hplaces, hfront, htextAt.1,
    htextAt.2]
  simp only [writeRecords_rename_iff (h.position?_eq registry config)]

end Scene

/-! ### Counts that were reduced -/

/-- Writing records keeps what has been written before. -/
theorem prefix_of_writeRecords {position? : InstanceKey → Option Nat}
    {places : List (StoredRecord × Nat)} {written out : Bytes} {pool next : TextPool}
    (h : writeRecords registry position? places written pool = .ok (out, next)) :
    written <+: out := by
  induction places generalizing written pool with
  | nil =>
      cases h
      exact List.prefix_refl _
  | cons place rest ih =>
      obtain ⟨⟨bytes, middle⟩, -, hrest⟩ := bind_eq_ok_iff.1 h
      exact ((Bytes.prefix_padTo _ _).trans (List.prefix_append _ _)).trans (ih hrest)

namespace Scene

variable {scene : Scene} {bytes : Bytes}

theorem front_of_pack (h : scene.pack registry config = .ok bytes) :
    (scene.arrange registry config).front <+: bytes ∧
      (scene.arrange registry config).textAt ≤ bytes.length := by
  obtain ⟨-, out, pool, hwrite, rfl⟩ := pack_eq_ok_iff.1 h
  constructor
  · exact (((prefix_of_writeRecords hwrite).trans (Bytes.prefix_padTo _ _)).trans
      (List.prefix_append _ _)).trans (Bytes.prefix_padTo _ _)
  · rw [Bytes.length_padTo, List.length_append, Bytes.length_padTo]
    omega

/-- The ranges cover no more instances than there are, and fewer if a count was reduced. -/
theorem length_spread_ranges (scene : Scene) (types : List RecordLayout) :
    (Range.spread (scene.ranges ⟨registry.config, types⟩)).length ≤
        (scene.stored ⟨registry.config, types⟩).length ∧
      ((Range.spread (scene.ranges ⟨registry.config, types⟩)).length =
          (scene.stored ⟨registry.config, types⟩).length →
        ∀ layout ∈ types, (scene.storedOf layout).length < Range.countLimit) := by
  induction types with
  | nil => exact ⟨Nat.le_refl _, fun _ _ h => absurd h List.not_mem_nil⟩
  | cons layout rest ih =>
      have hspread : (Range.spread (scene.ranges ⟨registry.config, layout :: rest⟩)).length =
          (scene.storedOf layout).length % Range.countLimit +
            (Range.spread (scene.ranges ⟨registry.config, rest⟩)).length := by
        rw [ranges, List.filterMap_cons]
        dsimp only
        by_cases hempty : (scene.storedOf layout).length = 0
        · rw [if_pos hempty, hempty, Nat.zero_mod, Nat.zero_add]
          rfl
        · rw [if_neg hempty]
          dsimp only
          rw [Range.spread_cons, List.length_append, List.length_replicate]
          rfl
      have hstored : (scene.stored ⟨registry.config, layout :: rest⟩).length =
          (scene.storedOf layout).length + (scene.stored ⟨registry.config, rest⟩).length := by
        rw [stored, List.flatMap_cons, List.length_append]
        rfl
      have hmod : (scene.storedOf layout).length % Range.countLimit ≤
          (scene.storedOf layout).length := Nat.mod_le _ _
      have hlt : (scene.storedOf layout).length % Range.countLimit < Range.countLimit :=
        Nat.mod_lt _ (by decide)
      refine ⟨by omega, fun heq => List.forall_mem_cons.2 ⟨by omega, ih.2 (by omega)⟩⟩

/-- What holds of the count of the records of every known type holds of all counts. -/
theorem counts_of_types (hsound : registry.Sound)
    (hknown : ∀ record ∈ scene, ∃ layout, registry.layout? record.typeId = some layout)
    (h : ∀ layout ∈ registry.types, (scene.storedOf layout).length < Range.countLimit) :
    ∀ id, (scene.filter fun record => record.typeId = id).length < Range.countLimit := by
  intro id
  by_cases hid : ∃ layout ∈ registry.types, layout.id = id
  · obtain ⟨layout, hlayout, rfl⟩ := hid
    rw [← length_storedOf]
    exact h layout hlayout
  · -- no record is of an unknown type
    have hnone : scene.filter (fun record => record.typeId = id) = [] := by
      refine List.filter_eq_nil_iff.2 fun record hrecord htype => hid ?_
      obtain ⟨layout, hlayout⟩ := hknown record hrecord
      refine ⟨layout, List.mem_of_getElem? hlayout, ?_⟩
      rw [(hsound _ layout hlayout).1]
      exact of_decide_eq_true htype
    rw [hnone]
    decide

/-- **An image is accepted only if no count of its ranges was reduced.** -/
theorem counts_of_ofBytes (hsound : registry.Sound)
    (hids : ∀ record ∈ scene, record.typeId < Range.countLimit)
    (hpack : scene.pack registry config = .ok bytes) (hspace : bytes.length < Address.space)
    {view : View} (hview : View.ofBytes registry 0 bytes = .ok view) :
    ∀ id, (scene.filter fun record => record.typeId = id).length < Range.countLimit := by
  have hplaced := scene.placed hsound config
  obtain ⟨hfront, htext⟩ := front_of_pack hpack
  have hfits := hplaced.header_fits (Nat.lt_of_le_of_lt htext hspace)
  obtain ⟨found, haccepted, rfl⟩ := (View.ofBytes_eq_ok_iff hsound).1 hview
  -- the header and the ranges that are read are those that were written
  have hheader : found.header = (scene.arrange registry config).header :=
    Except.ok.inj (haccepted.header.symm.trans (Arrangement.Placed.readHeader hfits hfront))
  have hrangesAt : found.rangesAt = Header.size := by
    have hregion := (region_eq_ok_iff.1 haccepted.rangesAt).1
    rw [hheader] at hregion
    exact (hregion.trans (Nat.zero_add _)).symm
  obtain ⟨ranges, hranges, -, hcount, -⟩ := haccepted.listed
  have hwritten := hplaced.readRanges hsound hids hfront
  rw [hheader, hrangesAt] at hranges
  have hsame : ranges = (scene.arrange registry config).ranges :=
    Except.ok.inj ((mapM_eq_ok_iff.2 hranges).symm.trans (mapM_eq_ok_iff.2 hwritten))
  rw [hsame, hheader] at hcount
  exact counts_of_types hsound (typed_of_check (pack_eq_ok_iff.1 hpack).1)
    ((@length_spread_ranges registry scene registry.types).2 hcount)

/-! ### Canonical images -/

/-- **Images are canonical.**  Scenes that list the same records, those of one type in the same
order, have the same image or none.  An image that is read holds a scene that is packed into the
same bytes again; and it is read if no more records of a type are stored than can be counted.  The
registry is exact and the scene is well formed; type ids are 32-bit numbers, and the image fits the
address space. -/
theorem pack_canonical (hexact : registry.Exact) (config : PackConfig)
    (hformed : scene.Formed registry) :
    (∀ move other, Rearranges move scene other → ∀ bytes,
      other.pack registry config = .ok bytes ↔ scene.pack registry config = .ok bytes) ∧
    ∀ bytes, scene.pack registry config = .ok bytes → bytes.length < Address.space →
      (∀ record ∈ scene, record.typeId < Range.countLimit) →
      (∀ view, View.ofBytes registry 0 bytes = .ok view →
        ∃ read, view.toScene = .ok read ∧ read.pack registry config = .ok bytes) ∧
      ((∀ id, (scene.filter fun record => record.typeId = id).length < Range.countLimit) →
        ∃ view, View.ofBytes registry 0 bytes = .ok view) := by
  refine ⟨fun move other h bytes => h.pack_iff registry config, ?_⟩
  intro bytes hpack hspace hids
  have hreads := fun hcounts => (reads_back hexact hformed hids hcounts hpack
    (Nat.lt_of_le_of_lt (Nat.le_of_eq (Nat.zero_add _)) hspace)).1
  constructor
  · intro view hview
    obtain ⟨raw, hraw, hscene⟩ :=
      hreads (counts_of_ofBytes hexact.sound hids hpack hspace hview)
    obtain rfl : raw = view := Except.ok.inj (hraw.symm.trans hview)
    exact ⟨scene.renumbered, hscene,
      (scene.rearranges_renumbered.pack_iff registry config).2 hpack⟩
  · intro hcounts
    obtain ⟨raw, hraw, -⟩ := hreads hcounts
    exact ⟨raw, hraw⟩

/-- The sample, listed in the order of its image, has the same image; and so does what is read from
it. -/
theorem pack_canonical_sample :
    Sample.registry.Exact ∧ Sample.scene.Formed Sample.registry ∧
      Sample.scene.pack Sample.registry ⟨true⟩ = .ok Sample.packed ∧
      Sample.packed.length < Address.space ∧
      Sample.scene.renumbered.pack Sample.registry ⟨true⟩ = .ok Sample.packed ∧
      ∃ view read, View.ofBytes Sample.registry 0 Sample.packed = .ok view ∧
        view.toScene = .ok read ∧ read.pack Sample.registry ⟨true⟩ = .ok Sample.packed := by
  obtain ⟨hrearranged, hread⟩ :=
    pack_canonical Sample.exact ⟨true⟩ Sample.scene_formed
  obtain ⟨hagain, hview⟩ := hread _ Sample.pack_scene Sample.packed_lt Sample.typeId_lt
  obtain ⟨view, hview⟩ := hview Sample.count_lt
  obtain ⟨read, hscene, hpack⟩ := hagain view hview
  exact ⟨Sample.exact, Sample.scene_formed, Sample.pack_scene, Sample.packed_lt,
    (hrearranged _ _ (rearranges_renumbered Sample.scene) _).2 Sample.pack_scene,
    view, read, hview, hscene, hpack⟩

end Scene

end ScenePack
