/-
**Packing what has been read.**

Whatever an accepted image holds can be packed: reading checks the kinds of values by the layouts,
texts end at their first zero byte, and references were found to lead to instances of the right
type.  The new image holds the same records in the stable order by type, even if the ranges of the
old one named types repeatedly or in any order, its texts overlapped, or its parts left gaps.

Main results:

* `Accepted.allStorable_of_toValues` — **what is read from an image can be stored**;
* `Scene.renumbered_of_pairwise` — a scene in the order of its types is not changed by renumbering;
* `View.repacked` — **what is read from an image can be packed and read again**.
-/

import ScenePack.Proofs.Image.Enumerated
import ScenePack.Proofs.Image.RoundTrip
import ScenePack.Proofs.Image.Total
import ScenePack.Proofs.Scene.Producers

set_option relaxedAutoImplicit false
set_option autoImplicit false

namespace ScenePack

variable {registry : Registry} {base : Nat} {bytes : Bytes} {found : Scan} {scene : Scene}

/-! ### What is read can be stored -/

namespace Accepted

/-- **What is read from a record of an image can be stored**, in a scene that has a record of the
right type at the key of every entry. -/
theorem allStorable_of_toValues (h : Accepted registry base bytes found) (hsound : registry.Sound)
    {key? : Nat → Option InstanceKey}
    (hkey : ∀ entry ∈ found.entries, ∀ {key}, key? entry.offset = some key →
      ∃ record, scene[key]? = some record ∧ record.typeId = entry.layout.id)
    {nesting : Nat} {record : RecordView} (hview : record.view = found.view registry base bytes)
    (hholds : found.Holds registry bytes.length record.layout record.offset)
    {values : List Value} (hvalues : record.toValues key? nesting = .ok values) :
    Value.AllStorable registry scene record.layout.fields values := by
  induction nesting using Nat.strongRecOn generalizing record values with
  | ind nesting ih =>
      rw [RecordView.toValues_eq, mapM_eq_ok_iff] at hvalues
      refine Value.allStorable_iff.2
        (forall₂_imp_of_mem (fun field hfield value hvalue => ?_) hvalues)
      obtain ⟨shown, hshown, hvalue⟩ := bind_eq_ok_iff.1 hvalue
      obtain ⟨_, hread, hreads⟩ := h.exists_readField hsound hview hholds hfield
      obtain rfl := Except.ok.inj (hshown.symm.trans hread)
      cases shown with
      | scalar number =>
          cases hvalue
          rw [hreads.1]
          exact Value.storable_scalar_iff.2 ⟨number, rfl, rfl⟩
      | text content =>
          cases hvalue
          cases content with
          | none =>
              rw [hreads.1]
              exact Value.storable_text_iff.2 ⟨none, rfl, fun _ hnone => nomatch hnone⟩
          | some text =>
              obtain ⟨hkind, _, _, _, _, _, hfree⟩ := hreads
              rw [hkind]
              refine Value.storable_text_iff.2 ⟨some text, rfl, ?_⟩
              rintro _ ⟨⟩
              exact hfree
      | component inner =>
          obtain ⟨target, layout, hkind, hlayout, rfl⟩ :=
            RecordView.kind_of_readField_component hshown
          obtain ⟨embedded, hembedded, hvalue⟩ := bind_eq_ok_iff.1 hvalue
          cases hvalue
          rw [hview] at hlayout
          cases nesting with
          | zero => cases hembedded
          | succ nesting =>
              have hinner := @ih nesting (Nat.lt_succ_self nesting)
                ⟨record.view, layout, record.offset + field.offset⟩ hview
                (hholds.embedded hsound hfield hkind hlayout) embedded hembedded
              have hid : layout.id = target.id := (hsound target.id layout hlayout).1
              rw [hkind]
              exact Value.storable_component_iff.2
                ⟨layout, embedded, by rw [hid], hlayout, hinner⟩
      | ref target =>
          obtain ⟨key, rfl, hfound⟩ := FieldView.toValue_ref_eq_ok_iff.1 hvalue
          cases target with
          | none =>
              obtain ⟨⟨target, hkind⟩, -⟩ := hreads
              rw [hkind]
              obtain rfl : key = none := Option.map_eq_none_iff.1 hfound.symm
              exact Value.storable_ref_iff.2 ⟨none, rfl, fun _ hnone => nomatch hnone⟩
          | some shown =>
              -- the record is one of the instances, and of the type that the field names
              obtain ⟨target, hkind, -, -, hlisted, hid, -⟩ := hreads
              rw [hview] at hlisted
              obtain ⟨entry, hentry, rfl⟩ := h.mem_instances_iff.1 hlisted
              rw [hkind]
              refine Value.storable_ref_iff.2 ⟨key, rfl, ?_⟩
              rintro old rfl
              obtain ⟨record, hrecord, htype⟩ := hkey entry hentry (Option.some_inj.1 hfound)
              exact ⟨record, hrecord, htype.trans hid⟩

/-- The records of the scene are read from the entries, one by one. -/
theorem forall₂_of_toScene (h : Accepted registry base bytes found)
    (hscene : (found.view registry base bytes).toScene = .ok scene) :
    List.Forall₂ (fun entry record => record.typeId = entry.layout.id ∧
        (entry.record (found.view registry base bytes)).toValues found.key? entry.layout.depth =
          .ok record.values)
      found.entries scene := by
  have hkeys : (found.view registry base bytes).instances.map RecordView.offset =
      found.entries.map Entry.offset := by
    rw [h.instances_eq, List.map_map]
    rfl
  rw [View.toScene, hkeys, h.instances_eq, mapM_eq_ok_iff, List.forall₂_map_left_iff] at hscene
  refine hscene.imp fun entry record hrecord => ?_
  obtain ⟨values, hvalues, hok⟩ := bind_eq_ok_iff.1 hrecord
  cases hok
  exact ⟨rfl, hvalues⟩

/-- **An accepted image holds a scene that can be stored.** -/
theorem storable_of_toScene (h : Accepted registry base bytes found) (hsound : registry.Sound)
    (hscene : (found.view registry base bytes).toScene = .ok scene) :
    ∀ record ∈ scene, record.Storable registry scene := by
  have hread := h.forall₂_of_toScene hscene
  have hkey : ∀ entry ∈ found.entries, ∀ {key}, found.key? entry.offset = some key →
      ∃ record, scene[key]? = some record ∧ record.typeId = entry.layout.id := by
    intro entry hentry key hkey
    have hplace := List.mem_zipIdx_iff_getElem?.1 (mem_of_lookup_eq_some hkey)
    rw [List.getElem?_map, Option.map_eq_some_iff] at hplace
    obtain ⟨other, hother, hoffset⟩ := hplace
    -- there is only one entry at the position
    obtain rfl := found.unique_of_fits hsound h.fits h.disjoint other
      (List.mem_of_getElem? hother) entry hentry hoffset
    obtain ⟨record, hrecord, htype, -⟩ := exists_getElem?_of_forall₂ hread hother
    exact ⟨record, hrecord, htype⟩
  intro record hrecord
  obtain ⟨entry, hentry, htype, hvalues⟩ := exists_mem_of_forall₂ hread hrecord
  obtain ⟨position, hlayout⟩ := (h.fits entry hentry).known
  have hid : entry.layout.id = position := (hsound position entry.layout hlayout).1
  refine ⟨entry.layout, by rw [htype, hid, hlayout], ?_⟩
  exact h.allStorable_of_toValues hsound hkey rfl (h.holds_of_entry hsound hentry) hvalues

theorem map_typeId_of_toScene (h : Accepted registry base bytes found)
    (hscene : (found.view registry base bytes).toScene = .ok scene) :
    scene.map Record.typeId =
      (found.view registry base bytes).instances.map fun record => record.layout.id := by
  have htypes : List.Forall₂ (fun entry id => id = entry.layout.id) found.entries
      (scene.map Record.typeId) :=
    List.forall₂_map_right_iff.2 ((h.forall₂_of_toScene hscene).imp fun _ _ hrecord => hrecord.1)
  rw [forall₂_eq_map_iff.1 htypes, h.instances_eq, List.map_map]
  rfl

theorem map_id_instances (h : Accepted registry base bytes found) (hsound : registry.Sound) :
    ((found.view registry base bytes).instances.map fun record => record.layout.id) =
      Range.spread (found.view registry base bytes).ranges := by
  obtain ⟨-, hlists⟩ := h.view_lists
  have hplaces : List.Forall₂ (fun place id => id = Prod.fst place)
      (Range.spread (found.view registry base bytes).ranges).zipIdx
      (found.entries.map fun entry => entry.layout.id) := by
    refine List.forall₂_map_right_iff.2 (hlists.imp ?_)
    rintro ⟨typeId, index⟩ entry ⟨layout, hlayout, hentry⟩
    obtain ⟨rfl, -⟩ := readEntry_eq_ok_iff.1 hentry
    exact (hsound typeId _ hlayout).1
  rw [forall₂_eq_map_iff, List.zipIdx_map_fst] at hplaces
  rw [← hplaces, h.instances_eq, List.map_map]
  rfl

end Accepted

theorem View.typeId_lt_of_mem_ranges {view : View} {range : Range} (h : range ∈ view.ranges) :
    range.typeId < Range.countLimit := by
  obtain ⟨index, -, hrange⟩ := List.mem_filterMap.1 h
  obtain ⟨typeId, htype, hrange⟩ := Option.bind_eq_some_iff.1 hrange
  obtain ⟨count, -, hrange⟩ := Option.bind_eq_some_iff.1 hrange
  cases hrange
  exact Bytes.word?_lt htype

/-! ### Scenes in the order of their types -/

namespace Value

mutual

/-- A value that can be stored is not changed by a renaming that keeps the keys of the scene. -/
theorem rename_of_storable {move : InstanceKey → InstanceKey} {kind : FieldKind Target}
    (hmove : ∀ key < scene.length, move key = key) (value : Value)
    (h : value.Storable registry scene kind) : value.rename move = value := by
  cases value with
  | scalar number => rw [rename_scalar]
  | text content => rw [rename_text]
  | component typeId values =>
      cases kind with
      | scalar type => exact h.elim
      | text => exact h.elim
      | ref target => exact h.elim
      | component target =>
          obtain ⟨-, layout, -, hvalues⟩ := h
          rw [rename_component, renameAll_of_allStorable hmove values hvalues]
  | ref key =>
      cases key with
      | none => rw [rename_none]
      | some key =>
          cases kind with
          | scalar type => exact h.elim
          | text => exact h.elim
          | component target => exact h.elim
          | ref target =>
              obtain ⟨record, hrecord, -⟩ := h key rfl
              rw [rename_ref, hmove key (List.getElem?_eq_some_iff.1 hrecord).1]

theorem renameAll_of_allStorable {move : InstanceKey → InstanceKey} {fields : List FieldLayout}
    (hmove : ∀ key < scene.length, move key = key) (values : List Value)
    (h : AllStorable registry scene fields values) : renameAll move values = values := by
  cases values with
  | nil => rw [renameAll]
  | cons value values =>
      cases fields with
      | nil => exact h.elim
      | cons field fields =>
          rw [AllStorable] at h
          rw [renameAll, rename_of_storable hmove value h.1,
            renameAll_of_allStorable hmove values h.2]

end

end Value

/-- **A scene in the order of its types is not changed by renumbering.** -/
theorem Scene.renumbered_of_pairwise (hstorable : ∀ record ∈ scene, record.Storable registry scene)
    (hordered : (scene.map Record.typeId).Pairwise (· ≤ ·)) : scene.renumbered = scene := by
  have horder : scene.order = scene.zipIdx := by
    refine List.mergeSort_of_pairwise ?_
    have hpairs : ((scene.zipIdx.map Prod.fst).map Record.typeId).Pairwise (· ≤ ·) := by
      rwa [List.zipIdx_map_fst]
    rw [List.map_map] at hpairs
    exact (List.pairwise_map.1 hpairs).imp fun hab => decide_eq_true hab
  have hkey : ∀ key < scene.length, scene.newKey key = key := by
    intro key hkey
    have hrange : (scene.order.map Prod.snd) = List.range' 0 scene.length := by
      rw [horder, List.zipIdx_map_snd]
    have hlt : key < (List.range' 0 scene.length).length := by rwa [List.length_range']
    have hfind := (List.nodup_range' : (List.range' 0 scene.length).Nodup).idxOf_getElem key hlt
    rw [List.getElem_range', Nat.zero_add, Nat.one_mul] at hfind
    rw [newKey, hrange, hfind]
  rw [renumbered, horder]
  refine List.ext_getElem? fun index => ?_
  rw [List.getElem?_map, List.getElem?_zipIdx]
  cases hrecord : scene[index]? with
  | none => rfl
  | some record =>
      obtain ⟨layout, -, hvalues⟩ := hstorable record (List.mem_of_getElem? hrecord)
      simp only [Option.map_some, Value.renameAll_of_allStorable hkey record.values hvalues]

theorem Range.pairwise_spread {ranges : List Range}
    (h : ranges.Pairwise fun a b => a.typeId ≤ b.typeId) :
    (Range.spread ranges).Pairwise (· ≤ ·) := by
  refine List.pairwise_flatMap.2 ⟨fun range _ => ?_, h.imp fun hab x hx y hy => ?_⟩
  · exact List.pairwise_replicate.2 (Or.inr (Nat.le_refl _))
  · rw [List.eq_of_mem_replicate hx, List.eq_of_mem_replicate hy]
    exact hab

/-! ### Packing again -/

/-- **What is read from an image can be packed and read again.**  The new image holds the scene in
the stable order by type, its references leading to the new positions; and the same scene, if the
ranges of the old image are in the order of their types.  The registry is exact, no type has 2³² or
more instances, and the new image fits the address space. -/
theorem View.repacked (hexact : registry.Exact) {view : View}
    (hview : View.ofBytes registry base bytes = .ok view)
    (hcounts : ∀ id, (view.instances.filter fun record => record.layout.id = id).length <
      Range.countLimit) :
    ∃ scene, view.toScene = .ok scene ∧ ∀ config, ∃ packed,
      scene.pack registry config = .ok packed ∧ (packed.length < Address.space →
        ∃ again, View.ofBytes registry 0 packed = .ok again ∧
          again.toScene = .ok scene.renumbered ∧
          (view.ranges.Pairwise (fun a b => a.typeId ≤ b.typeId) →
            again.toScene = .ok scene)) := by
  have hsound := hexact.sound
  obtain ⟨found, haccepted, rfl⟩ := (View.ofBytes_eq_ok_iff hsound).1 hview
  obtain ⟨scene, hscene⟩ := haccepted.exists_toScene hsound
  have hformed : scene.Formed registry := View.formed_of_toScene hsound.grounded hscene
  have hstorable := haccepted.storable_of_toScene hsound hscene
  have htypes := haccepted.map_typeId_of_toScene hscene
  have hids : ∀ record ∈ scene, record.typeId < Range.countLimit := by
    intro record hrecord
    have hmem : record.typeId ∈ Range.spread (found.view registry base bytes).ranges := by
      rw [← haccepted.map_id_instances hsound, ← htypes]
      exact List.mem_map_of_mem hrecord
    obtain ⟨range, hrange, htype⟩ := List.mem_flatMap.1 hmem
    rw [List.eq_of_mem_replicate htype]
    exact View.typeId_lt_of_mem_ranges hrange
  have hrecords : ∀ id, (scene.filter fun record => record.typeId = id).length <
      Range.countLimit := by
    intro id
    have hcount := congrArg (fun ids => (ids.filter fun own => own = id).length) htypes
    simp only [List.filter_map, List.length_map] at hcount
    exact Nat.lt_of_le_of_lt (Nat.le_of_eq hcount) (hcounts id)
  refine ⟨scene, hscene, fun config => ?_⟩
  obtain ⟨packed, hpacked⟩ := (Scene.exists_pack_iff hsound.grounded config).2
    (Scene.check_of_storable hstorable)
  refine ⟨packed, hpacked, fun hspace => ?_⟩
  obtain ⟨⟨again, hagain, hread⟩, -⟩ := Scene.reads_back hexact hformed hids hrecords hpacked
    (Nat.lt_of_le_of_lt (Nat.le_of_eq (Nat.zero_add _)) hspace)
  refine ⟨again, hagain, hread, fun hordered => ?_⟩
  rw [hread, Scene.renumbered_of_pairwise hstorable]
  rw [htypes, haccepted.map_id_instances hsound]
  exact Range.pairwise_spread hordered

namespace Sample

theorem toScene_unordered : unorderedView.toScene = .ok Sample.scene := by cbv

end Sample

/-- An image whose ranges are not in the order of their types holds the sample scene, which is
packed and read again in that order. -/
theorem View.repacked_sample :
    Sample.registry.Exact ∧
      View.ofBytes Sample.registry 0 Sample.unordered = .ok Sample.unorderedView ∧
      (∀ id, (Sample.unorderedView.instances.filter fun record => record.layout.id = id).length <
        Range.countLimit) ∧
      Sample.unorderedView.toScene = .ok Sample.scene ∧
      ∀ config, ∃ packed, Sample.scene.pack Sample.registry config = .ok packed ∧
        (packed.length < Address.space → ∃ again,
          View.ofBytes Sample.registry 0 packed = .ok again ∧
            again.toScene = .ok Sample.scene.renumbered) := by
  have hlength : Sample.unorderedView.instances.length < Range.countLimit := by decide +kernel
  have hcounts : ∀ id, (Sample.unorderedView.instances.filter fun record =>
      record.layout.id = id).length < Range.countLimit := fun id =>
    Nat.lt_of_le_of_lt (List.length_filter_le _ _) hlength
  obtain ⟨scene, hscene, hpacked⟩ := repacked Sample.exact Sample.ofBytes_unordered hcounts
  obtain rfl : scene = Sample.scene :=
    Except.ok.inj (hscene.symm.trans Sample.toScene_unordered)
  refine ⟨Sample.exact, Sample.ofBytes_unordered, hcounts, hscene, fun config => ?_⟩
  obtain ⟨packed, hpack, hagain⟩ := hpacked config
  refine ⟨packed, hpack, fun hspace => ?_⟩
  obtain ⟨again, hview, hread, -⟩ := hagain hspace
  exact ⟨again, hview, hread⟩

end ScenePack
