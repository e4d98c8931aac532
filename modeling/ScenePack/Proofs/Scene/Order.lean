/-
**The order of records in an image.**

An image lists the records of a scene type by type, in the order of the scene within a type.  That
is the stable order by type, and references have to be renumbered to it.

Main definitions:

* `Value.rename`, `Value.renameAll` — values with the keys of their references changed;
* `Scene.newKey` — the new keys of records in the stable order by type;
* `Scene.renumbered` — the scene in that order.

Main results:

* `eq_of_filter_eq` — lists in order that agree on each key are equal;
* `Scene.getElem?_renumbered` — **each record stands at its new position**;
* `Scene.stored_eq_order` — **an image lists the records in the stable order by type**.
-/

import ScenePack.Image.Arrangement
import ScenePack.Proofs.Layout.Sound

set_option relaxedAutoImplicit false
set_option autoImplicit false

namespace ScenePack

/-! ### The stable order -/

section Stable

variable {α : Type} {key : α → Nat}

theorem mem_iff_of_filter_eq {first second : List α}
    (h : ∀ k, first.filter (fun a => key a = k) = second.filter fun a => key a = k) {item : α} :
    item ∈ first ↔ item ∈ second := by
  have hleft : item ∈ first ↔ item ∈ first.filter fun a => key a = key item := by simp
  have hright : item ∈ second ↔ item ∈ second.filter fun a => key a = key item := by simp
  rw [hleft, hright, h (key item)]

/-- **Lists in order of their keys that agree on each key are equal.** -/
theorem eq_of_filter_eq {first second : List α}
    (hfirst : first.Pairwise fun a b => key a ≤ key b)
    (hsecond : second.Pairwise fun a b => key a ≤ key b)
    (h : ∀ k, first.filter (fun a => key a = k) = second.filter fun a => key a = k) :
    first = second := by
  induction first generalizing second with
  | nil =>
      cases second with
      | nil => rfl
      | cons b second =>
          exact absurd ((mem_iff_of_filter_eq h).2 List.mem_cons_self) List.not_mem_nil
  | cons a first ih =>
      cases second with
      | nil => exact absurd ((mem_iff_of_filter_eq h).1 List.mem_cons_self) List.not_mem_nil
      | cons b second =>
          obtain ⟨ha, hfirstrest⟩ := List.pairwise_cons.1 hfirst
          obtain ⟨hb, hsecondrest⟩ := List.pairwise_cons.1 hsecond
          -- each head is in the other list, so neither key is larger
          have hle : key a ≤ key b := by
            have hin : b ∈ a :: first := (mem_iff_of_filter_eq h).2 List.mem_cons_self
            rcases List.mem_cons.1 hin with rfl | hin
            · exact Nat.le_refl _
            · exact ha b hin
          have hge : key b ≤ key a := by
            have hin : a ∈ b :: second := (mem_iff_of_filter_eq h).1 List.mem_cons_self
            rcases List.mem_cons.1 hin with rfl | hin
            · exact Nat.le_refl _
            · exact hb a hin
          have hheads := h (key a)
          rw [List.filter_cons_of_pos (by simp), List.filter_cons_of_pos (by simp; omega)] at hheads
          obtain ⟨rfl, -⟩ := List.cons.inj hheads
          refine congrArg (a :: ·) (ih hfirstrest hsecondrest ?_)
          intro k
          have hk := h k
          rw [List.filter_cons, List.filter_cons] at hk
          split at hk
          · exact (List.cons.inj hk).2
          · exact hk

theorem keyOrder_trans (a b c : α) (hab : keyOrder key a b = true) (hbc : keyOrder key b c = true) :
    keyOrder key a c = true := by
  simp only [keyOrder, decide_eq_true_eq] at hab hbc ⊢
  omega

theorem keyOrder_total (a b : α) : (keyOrder key a b || keyOrder key b a) = true := by
  simp only [keyOrder, Bool.or_eq_true, decide_eq_true_eq]
  omega

/-- Sorting by keys puts them in order. -/
theorem pairwise_mergeSort_keyOrder (items : List α) :
    (items.mergeSort (keyOrder key)).Pairwise fun a b => key a ≤ key b := by
  have h : (items.mergeSort (keyOrder key)).Pairwise fun a b => keyOrder key a b = true :=
    List.pairwise_mergeSort keyOrder_trans keyOrder_total items
  exact h.imp fun hab => of_decide_eq_true hab

/-- Sorting by keys keeps the items of each key in their order. -/
theorem filter_mergeSort_keyOrder (items : List α) (k : Nat) :
    (items.mergeSort (keyOrder key)).filter (fun a => key a = k) =
      items.filter fun a => key a = k := by
  have hequal : (items.filter fun a => key a = k).Pairwise
      fun a b => keyOrder key a b = true := by
    refine List.pairwise_of_forall_mem_list ?_
    intro a ha b hb
    have ha := of_decide_eq_true (List.mem_filter.1 ha).2
    have hb := of_decide_eq_true (List.mem_filter.1 hb).2
    exact decide_eq_true (Nat.le_of_eq (ha.trans hb.symm))
  have hsublist := List.sublist_mergeSort keyOrder_trans keyOrder_total hequal
    List.filter_sublist
  have hfilter := hsublist.filter fun a => key a = k
  rw [List.filter_filter] at hfilter
  simp only [Bool.and_self] at hfilter
  refine (hfilter.eq_of_length ?_).symm
  exact ((List.mergeSort_perm items _).filter _).length_eq.symm

end Stable

/-! ### Renumbering -/

namespace Value

mutual

/-- A value with the keys of its references changed. -/
def rename (newKey : InstanceKey → InstanceKey) : Value → Value
  | ref (some key) => ref (some (newKey key))
  | component typeId values => component typeId (renameAll newKey values)
  | value => value

/-- Values with the keys of their references changed. -/
def renameAll (newKey : InstanceKey → InstanceKey) : List Value → List Value
  | [] => []
  | value :: values => rename newKey value :: renameAll newKey values

end

end Value

namespace Scene

/-- The position of a record in the stable order by type. -/
def newKey (scene : Scene) (key : InstanceKey) : InstanceKey :=
  (scene.order.map Prod.snd).idxOf key

/-- The scene in the stable order by type, its references leading to the new positions. -/
def renumbered (scene : Scene) : Scene :=
  scene.order.map fun entry => ⟨entry.1.typeId, Value.renameAll scene.newKey entry.1.values⟩

theorem order_perm (scene : Scene) : scene.order.Perm scene.zipIdx := List.mergeSort_perm _ _

/-- A record with its key stands at its new position in the order. -/
theorem getElem?_order_newKey {scene : Scene} {key : InstanceKey} {record : Record}
    (h : scene[key]? = some record) : scene.order[scene.newKey key]? = some (record, key) := by
  have hmem : (record, key) ∈ scene.order :=
    scene.order_perm.mem_iff.2 (List.mem_zipIdx_iff_getElem?.2 h)
  have hlt : scene.newKey key < (scene.order.map Prod.snd).length :=
    List.idxOf_lt_length_of_mem (List.mem_map_of_mem hmem)
  have hkey : (scene.order.map Prod.snd)[scene.newKey key]? = some key := by
    rw [List.getElem?_eq_getElem hlt]
    exact congrArg some (List.getElem_idxOf hlt)
  rw [List.getElem?_map, Option.map_eq_some_iff] at hkey
  obtain ⟨⟨found, place⟩, hfound, rfl⟩ := hkey
  -- the entry of a key holds the record of that key
  have hsame := List.mem_zipIdx_iff_getElem?.1
    (scene.order_perm.mem_iff.1 (List.mem_of_getElem? hfound))
  obtain rfl : found = record := Option.some_inj.1 (hsame.symm.trans h)
  exact hfound

/-- **Each record stands at its new position**, its references renumbered. -/
theorem getElem?_renumbered {scene : Scene} {key : InstanceKey} {record : Record}
    (h : scene[key]? = some record) :
    scene.renumbered[scene.newKey key]? =
      some ⟨record.typeId, Value.renameAll scene.newKey record.values⟩ := by
  rw [renumbered, List.getElem?_map, getElem?_order_newKey h]
  rfl

/-! ### The records of an image -/

variable {registry : Registry} {config : PackConfig} {scene : Scene}

theorem of_mem_stored (hsound : registry.Sound) {entry : StoredRecord}
    (h : entry ∈ scene.stored registry) :
    registry.layout? entry.record.typeId = some entry.layout ∧
      entry.layout.id = entry.record.typeId ∧ scene[entry.key]? = some entry.record := by
  obtain ⟨layout, hlayout, hentry⟩ := List.mem_flatMap.1 h
  obtain ⟨place, hplace, rfl⟩ := List.mem_map.1 hentry
  obtain ⟨hplace, htype⟩ := List.mem_filter.1 hplace
  have htype : place.1.typeId = layout.id := of_decide_eq_true htype
  obtain ⟨position, hposition⟩ := List.mem_iff_getElem?.1 hlayout
  have hid := (hsound position layout hposition).1
  refine ⟨?_, htype.symm, List.mem_zipIdx_iff_getElem?.1 hplace⟩
  rw [htype, hid]
  exact hposition

theorem map_storedOf (layout : RecordLayout) :
    (scene.storedOf layout).map (fun entry => (entry.record, entry.key)) =
      scene.zipIdx.filter fun entry => entry.1.typeId = layout.id := by
  rw [storedOf, List.map_map]
  exact List.map_id _

theorem pairwise_types (hsound : registry.Sound) :
    registry.types.Pairwise fun a b => a.id < b.id := by
  refine List.pairwise_iff_getElem.2 ?_
  intro i j hi hj hij
  have hfirst := (hsound i _ (List.getElem?_eq_getElem hi)).1
  have hsecond := (hsound j _ (List.getElem?_eq_getElem hj)).1
  rw [hfirst, hsecond]
  exact hij

/-- The part of one type, of the records of several types. -/
theorem filter_flatMap_typeId {types : List RecordLayout}
    (hdistinct : types.Pairwise fun a b => a.id < b.id) (entries : List (Record × InstanceKey))
    {id : TypeId} (hknown : id ∈ types.map RecordLayout.id) :
    (types.flatMap fun layout => entries.filter fun entry => entry.1.typeId = layout.id).filter
        (fun entry => entry.1.typeId = id) =
      entries.filter fun entry => entry.1.typeId = id := by
  have hother : ∀ layout : RecordLayout, layout.id ≠ id →
      (entries.filter fun entry => entry.1.typeId = layout.id).filter
        (fun entry => entry.1.typeId = id) = [] := by
    intro layout hne
    refine List.filter_eq_nil_iff.2 ?_
    intro entry hentry htype
    have hlayout := of_decide_eq_true (List.mem_filter.1 hentry).2
    exact hne (hlayout.symm.trans (of_decide_eq_true htype))
  rw [List.filter_flatMap]
  induction types with
  | nil => exact absurd hknown List.not_mem_nil
  | cons layout rest ih =>
      obtain ⟨hfirst, hrest⟩ := List.pairwise_cons.1 hdistinct
      rw [List.flatMap_cons]
      by_cases hid : layout.id = id
      · -- all later types are different
        have hnone : rest.flatMap (fun other =>
            (entries.filter fun entry => entry.1.typeId = other.id).filter
              fun entry => entry.1.typeId = id) = [] := by
          refine List.flatMap_eq_nil_iff.2 fun other hmem => hother other ?_
          have hlt := hfirst other hmem
          exact fun heq => absurd (hid.trans heq.symm) (Nat.ne_of_lt hlt)
        rw [hnone, List.append_nil, List.filter_filter, hid]
        simp only [Bool.and_self]
      · rw [hother layout hid, List.nil_append]
        rcases List.mem_cons.1 hknown with heq | hknown
        · exact absurd heq.symm hid
        · exact ih hrest hknown

/-- **An image lists the records in the stable order by type.** -/
theorem stored_eq_order (hsound : registry.Sound)
    (hknown : ∀ record ∈ scene, ∃ layout, registry.layout? record.typeId = some layout) :
    (scene.stored registry).map (fun entry => (entry.record, entry.key)) = scene.order := by
  have hstored : (scene.stored registry).map (fun entry => (entry.record, entry.key)) =
      registry.types.flatMap fun layout =>
        scene.zipIdx.filter fun entry => entry.1.typeId = layout.id := by
    rw [stored, List.map_flatMap]
    exact congrArg (registry.types.flatMap ·) (funext fun layout => map_storedOf layout)
  have htypes := pairwise_types hsound
  rw [hstored]
  refine eq_of_filter_eq ?_ (pairwise_mergeSort_keyOrder scene.zipIdx) ?_
  · -- within a type all keys are equal, and the types are in order
    refine List.pairwise_flatMap.2 ⟨?_, htypes.imp fun hab x hx y hy => ?_⟩
    · intro layout _
      refine List.pairwise_of_forall_mem_list ?_
      intro a ha b hb
      have ha := of_decide_eq_true (List.mem_filter.1 ha).2
      have hb := of_decide_eq_true (List.mem_filter.1 hb).2
      exact Nat.le_of_eq (ha.trans hb.symm)
    · have hx := of_decide_eq_true (List.mem_filter.1 hx).2
      have hy := of_decide_eq_true (List.mem_filter.1 hy).2
      exact Nat.le_of_lt (hx ▸ hy ▸ hab)
  · intro id
    rw [order, filter_mergeSort_keyOrder]
    by_cases hid : id ∈ registry.types.map RecordLayout.id
    · exact filter_flatMap_typeId htypes scene.zipIdx hid
    · -- no record is of an unknown type
      have hnone : ∀ entry ∈ scene.zipIdx, ¬decide (entry.1.typeId = id) = true := by
        rintro ⟨record, key⟩ hentry htype
        obtain ⟨layout, hlayout⟩ := hknown record (List.fst_mem_of_mem_zipIdx hentry)
        have hlayoutid := (hsound _ layout hlayout).1
        refine hid (List.mem_map.2 ⟨layout, List.mem_of_getElem? hlayout, ?_⟩)
        exact hlayoutid.trans (of_decide_eq_true htype)
      rw [List.filter_eq_nil_iff.2 hnone, List.filter_eq_nil_iff]
      intro entry hentry
      obtain ⟨layout, _, hentry⟩ := List.mem_flatMap.1 hentry
      exact hnone entry (List.mem_of_mem_filter hentry)

/-- The keys of the stored records, in the order of the image. -/
theorem map_key_stored (hsound : registry.Sound)
    (hknown : ∀ record ∈ scene, ∃ layout, registry.layout? record.typeId = some layout) :
    (scene.stored registry).map StoredRecord.key = scene.order.map Prod.snd := by
  rw [← stored_eq_order hsound hknown, List.map_map]
  rfl

/-- The texts that were counted are those of the scene in the order of its image. -/
theorem storedTexts_eq (hsound : registry.Sound)
    (hknown : ∀ record ∈ scene, ∃ layout, registry.layout? record.typeId = some layout) :
    scene.storedTexts registry config = scene.keptTexts config := by
  rw [storedTexts, keptTexts, texts, ← stored_eq_order hsound hknown, List.flatMap_map]

theorem length_stored (hsound : registry.Sound)
    (hknown : ∀ record ∈ scene, ∃ layout, registry.layout? record.typeId = some layout) :
    (scene.stored registry).length = scene.length := by
  rw [← List.length_map, stored_eq_order hsound hknown, scene.order_perm.length_eq,
    List.length_zipIdx]

theorem nodup_order_keys (scene : Scene) : (scene.order.map Prod.snd).Nodup := by
  refine (scene.order_perm.map Prod.snd).symm.nodup ?_
  rw [List.zipIdx_map_snd]
  exact List.nodup_range'

theorem newKey_of_stored (hsound : registry.Sound)
    (hknown : ∀ record ∈ scene, ∃ layout, registry.layout? record.typeId = some layout)
    {index : Nat} {entry : StoredRecord} (h : (scene.stored registry)[index]? = some entry) :
    scene.newKey entry.key = index := by
  have hkey : (scene.order.map Prod.snd)[index]? = some entry.key := by
    rw [← map_key_stored hsound hknown, List.getElem?_map, h]
    rfl
  obtain ⟨hlt, heq⟩ := List.getElem?_eq_some_iff.1 hkey
  rw [newKey, ← heq]
  exact (nodup_order_keys scene).idxOf_getElem index hlt

/-- The renumbered scene, by the stored records. -/
theorem renumbered_eq (hsound : registry.Sound)
    (hknown : ∀ record ∈ scene, ∃ layout, registry.layout? record.typeId = some layout) :
    scene.renumbered = (scene.stored registry).map fun entry =>
      ⟨entry.record.typeId, Value.renameAll scene.newKey entry.record.values⟩ := by
  rw [renumbered, ← stored_eq_order hsound hknown, List.map_map]
  rfl

end Scene

end ScenePack
