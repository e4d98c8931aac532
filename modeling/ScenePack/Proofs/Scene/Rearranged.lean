/-
**Rearranged scenes.**

The records of a scene may be listed in another order, their references leading to the new places.
As long as records of one type keep their order, an image lists the same records either way, and the
check has the same outcome.

Main definitions:

* `Record.rename`, `StoredRecord.rename` — records with the keys of their references changed;
* `Scene.Rearranges` — two scenes with the same records, those of one type in the same order.

Main results:

* `Scene.Rearranges.stored_eq` — **an image lists the same records**;
* `Scene.Rearranges.check_iff` — **a rearranged scene passes the check if the scene does**;
* `Scene.rearranges_renumbered` — the scene in the stable order by type is a rearranged one.
-/

import ScenePack.Proofs.Scene.Formed
import ScenePack.Proofs.Scene.Order

set_option relaxedAutoImplicit false
set_option autoImplicit false

namespace ScenePack

/-- A record with the keys of its references changed. -/
def Record.rename (move : InstanceKey → InstanceKey) (record : Record) : Record :=
  ⟨record.typeId, Value.renameAll move record.values⟩

/-- A stored record at another key, with the keys of its references changed. -/
def StoredRecord.rename (move : InstanceKey → InstanceKey) (entry : StoredRecord) : StoredRecord :=
  ⟨move entry.key, entry.record.rename move, entry.layout⟩

namespace Value

variable {move : InstanceKey → InstanceKey}

theorem rename_scalar {number : Scalar} : (scalar number).rename move = scalar number := rfl

theorem rename_text {content : Option String} : (text content).rename move = text content := rfl

theorem rename_none : (ref none).rename move = ref none := rfl

theorem rename_ref {key : InstanceKey} : (ref (some key)).rename move = ref (some (move key)) := rfl

theorem rename_component {typeId : TypeId} {values : List Value} :
    (component typeId values).rename move = component typeId (renameAll move values) := rfl

end Value

namespace Scene

/-! ### Stored records of a type -/

theorem mem_storedOf_iff {scene : Scene} {layout : RecordLayout}
    {entry : StoredRecord} : entry ∈ scene.storedOf layout ↔
      scene[entry.key]? = some entry.record ∧ entry.record.typeId = layout.id ∧
        entry.layout = layout := by
  rw [storedOf, List.mem_map]
  constructor
  · rintro ⟨place, hplace, rfl⟩
    obtain ⟨hplace, htype⟩ := List.mem_filter.1 hplace
    exact ⟨List.mem_zipIdx_iff_getElem?.1 hplace, of_decide_eq_true htype, rfl⟩
  · rintro ⟨hkey, htype, rfl⟩
    exact ⟨(entry.record, entry.key), List.mem_filter.2
      ⟨List.mem_zipIdx_iff_getElem?.2 hkey, decide_eq_true htype⟩, rfl⟩

theorem pairwise_storedOf (scene : Scene) (layout : RecordLayout) :
    (scene.storedOf layout).Pairwise fun a b => a.key < b.key := by
  have hkeys : (scene.zipIdx.map Prod.snd).Pairwise (· < ·) := by
    rw [List.zipIdx_map_snd]
    exact List.pairwise_lt_range'
  exact List.pairwise_map.2 ((List.pairwise_map.1 hkeys).sublist List.filter_sublist)

/-! ### Scenes with the same records -/

/-- The second scene has the records of the first one at other places: `move` leads from the old
keys to the new ones.  Records of one type keep their order, and keys that lead nowhere still do. -/
structure Rearranges (move : InstanceKey → InstanceKey) (scene other : Scene) : Prop where
  length_eq : other.length = scene.length
  lt_iff : ∀ key, move key < scene.length ↔ key < scene.length
  moved : ∀ {key record}, scene[key]? = some record →
    other[move key]? = some (record.rename move)
  ordered : ∀ {key later record follower}, scene[key]? = some record →
    scene[later]? = some follower → record.typeId = follower.typeId → key < later →
      move key < move later

namespace Rearranges

variable {registry : Registry} {move : InstanceKey → InstanceKey} {scene other : Scene}

/-! ### Keys -/

/-- Two records have two places: those of one type keep their order, and others are of different
types wherever they are. -/
theorem ne_of_lt (h : Rearranges move scene other) {key later : InstanceKey} (hlt : key < later)
    (hlater : later < scene.length) : move key ≠ move later := by
  intro heq
  have hrecord := List.getElem?_eq_getElem (Nat.lt_trans hlt hlater)
  have hfollower := List.getElem?_eq_getElem hlater
  have hmoved := h.moved hrecord
  rw [heq, h.moved hfollower, Option.some_inj] at hmoved
  have htype := (congrArg Record.typeId hmoved).symm
  exact Nat.ne_of_lt (h.ordered hrecord hfollower htype hlt) heq

theorem eq_iff (h : Rearranges move scene other) {key : InstanceKey} (hkey : key < scene.length)
    (later : InstanceKey) : move later = move key ↔ later = key := by
  refine ⟨fun heq => ?_, fun heq => heq ▸ rfl⟩
  have hlater : later < scene.length := (h.lt_iff later).1 (heq ▸ (h.lt_iff key).2 hkey)
  rcases Nat.lt_trichotomy later key with hlt | hsame | hlt
  · exact absurd heq (h.ne_of_lt hlt hkey)
  · exact hsame
  · exact absurd heq.symm (h.ne_of_lt hlt hlater)

theorem exists_key (h : Rearranges move scene other) {place : InstanceKey}
    (hplace : place < scene.length) : ∃ key < scene.length, move key = place := by
  let onto (key : Fin scene.length) : Fin scene.length := ⟨move key, (h.lt_iff key).2 key.2⟩
  have hinjective : Function.Injective onto := by
    intro key later heq
    exact Fin.ext ((h.eq_iff later.2 key).1 (congrArg Fin.val heq))
  obtain ⟨key, hkey⟩ := Finite.surjective_of_injective hinjective ⟨place, hplace⟩
  exact ⟨key, key.2, congrArg Fin.val hkey⟩

theorem getElem?_eq_some_iff (h : Rearranges move scene other) {place : InstanceKey}
    {record : Record} : other[place]? = some record ↔
      ∃ key old, scene[key]? = some old ∧ move key = place ∧ record = old.rename move := by
  constructor
  · intro hrecord
    have hplace := (List.getElem?_eq_some_iff.1 hrecord).1
    obtain ⟨key, hkey, rfl⟩ := h.exists_key (h.length_eq ▸ hplace)
    have hold := List.getElem?_eq_getElem hkey
    exact ⟨key, _, hold, rfl, Option.some_inj.1 (hrecord.symm.trans (h.moved hold))⟩
  · rintro ⟨key, old, hold, rfl, rfl⟩
    exact h.moved hold

/-! ### The records of an image -/

/-- An image lists the same records of each type. -/
theorem storedOf_eq (h : Rearranges move scene other) (layout : RecordLayout) :
    other.storedOf layout = (scene.storedOf layout).map (StoredRecord.rename move) := by
  let before (a b : StoredRecord) : Prop := a.key < b.key
  have hirrefl : Std.Irrefl before := ⟨fun a => Nat.lt_irrefl a.key⟩
  have hantisymm : Std.Antisymm before := ⟨fun a b hab hba => absurd hba (Nat.lt_asymm hab)⟩
  have hother : (other.storedOf layout).Pairwise before := pairwise_storedOf other layout
  have hscene : ((scene.storedOf layout).map (StoredRecord.rename move)).Pairwise before := by
    refine List.pairwise_map.2 ((pairwise_storedOf scene layout).imp_of_mem fun ha hb hlt => ?_)
    obtain ⟨hkey, htype, -⟩ := mem_storedOf_iff.1 ha
    obtain ⟨hlater, hsame, -⟩ := mem_storedOf_iff.1 hb
    exact h.ordered hkey hlater (htype.trans hsame.symm) hlt
  refine hother.eq_of_mem_iff hscene fun entry => ?_
  rw [mem_storedOf_iff, List.mem_map, h.getElem?_eq_some_iff]
  constructor
  · rintro ⟨⟨key, old, hold, hkey, hrecord⟩, htype, hlayout⟩
    refine ⟨⟨key, old, entry.layout⟩, mem_storedOf_iff.2 ⟨hold, ?_, hlayout⟩, ?_⟩
    · rw [hrecord] at htype
      exact htype
    · rw [StoredRecord.rename, ← hrecord, hkey]
  · rintro ⟨old, hold, rfl⟩
    obtain ⟨hkey, htype, hlayout⟩ := mem_storedOf_iff.1 hold
    exact ⟨⟨old.key, old.record, hkey, rfl, rfl⟩, htype, hlayout⟩

/-- **An image lists the same records.** -/
theorem stored_eq (h : Rearranges move scene other) (registry : Registry) :
    other.stored registry = (scene.stored registry).map (StoredRecord.rename move) := by
  rw [stored, stored, List.map_flatMap]
  exact congrArg (registry.types.flatMap ·) (funext h.storedOf_eq)

/-! ### The check -/

/-- The type of the record that a reference leads to stays. -/
theorem exists_record_iff (h : Rearranges move scene other) {key : InstanceKey} {id : TypeId} :
    (∃ record, other[move key]? = some record ∧ record.typeId = id) ↔
      ∃ record, scene[key]? = some record ∧ record.typeId = id := by
  constructor
  · rintro ⟨record, hrecord, htype⟩
    obtain ⟨own, old, hold, hmove, rfl⟩ := h.getElem?_eq_some_iff.1 hrecord
    have hown := (List.getElem?_eq_some_iff.1 hold).1
    obtain rfl := (h.eq_iff hown key).1 hmove.symm
    exact ⟨old, hold, htype⟩
  · rintro ⟨record, hrecord, htype⟩
    exact ⟨_, h.moved hrecord, htype⟩

mutual

/-- A value passes the check if it did. -/
theorem checkValue_iff (h : Rearranges move scene other) {owner : RecordLayout}
    {field : FieldLayout} (value : Value) :
    checkValue registry other owner field (value.rename move) = .ok () ↔
      checkValue registry scene owner field value = .ok () := by
  cases value with
  | scalar number => rw [Value.rename_scalar, checkValue_scalar_iff, checkValue_scalar_iff]
  | text content => rw [Value.rename_text, checkValue_text_iff, checkValue_text_iff]
  | component typeId values =>
      rw [Value.rename_component, checkValue_component_iff, checkValue_component_iff]
      refine exists_congr fun target => exists_congr fun layout => ?_
      refine and_congr_right fun _ => and_congr_right fun _ => and_congr_right fun _ => ?_
      exact h.checkValues_iff values
  | ref key =>
      cases key with
      | none =>
          rw [Value.rename_none, checkValue_ref_iff, checkValue_ref_iff]
          exact exists_congr fun target => and_congr_right fun _ => by simp
      | some key =>
          rw [Value.rename_ref, checkValue_ref_iff, checkValue_ref_iff]
          refine exists_congr fun target => and_congr_right fun _ => ?_
          simpa using h.exists_record_iff

/-- Values pass the check if they did. -/
theorem checkValues_iff (h : Rearranges move scene other) {owner : RecordLayout}
    {fields : List FieldLayout} (values : List Value) :
    checkValues registry other owner fields (Value.renameAll move values) = .ok () ↔
      checkValues registry scene owner fields values = .ok () := by
  cases values with
  | nil => simp [Value.renameAll, checkValues]
  | cons value values =>
      cases fields with
      | nil => simp [checkValues]
      | cons field fields =>
          rw [Value.renameAll, checkValues, checkValues, bind_eq_ok_iff, bind_eq_ok_iff]
          constructor
          · rintro ⟨_, hvalue, hvalues⟩
            exact ⟨(), (h.checkValue_iff value).1 hvalue, (h.checkValues_iff values).1 hvalues⟩
          · rintro ⟨_, hvalue, hvalues⟩
            exact ⟨(), (h.checkValue_iff value).2 hvalue, (h.checkValues_iff values).2 hvalues⟩

end

/-- A record passes the check if it did. -/
theorem checkRecord_iff (h : Rearranges move scene other) (record : Record) :
    checkRecord registry other (record.rename move) = .ok () ↔
      checkRecord registry scene record = .ok () := by
  unfold checkRecord
  dsimp only [Record.rename]
  split
  · simp
  · exact h.checkValues_iff record.values

/-- **A rearranged scene passes the check if the scene does.** -/
theorem check_iff (h : Rearranges move scene other) (registry : Registry) :
    other.check registry = .ok () ↔ scene.check registry = .ok () := by
  rw [check, check, forM_eq_ok_iff, forM_eq_ok_iff]
  constructor
  · intro hcheck record hrecord
    obtain ⟨key, hkey⟩ := List.mem_iff_getElem?.1 hrecord
    exact (h.checkRecord_iff record).1 (hcheck _ (List.mem_of_getElem? (h.moved hkey)))
  · intro hcheck record hrecord
    obtain ⟨place, hplace⟩ := List.mem_iff_getElem?.1 hrecord
    obtain ⟨key, old, hold, -, rfl⟩ := h.getElem?_eq_some_iff.1 hplace
    exact (h.checkRecord_iff old).2 (hcheck old (List.mem_of_getElem? hold))

end Rearranges

/-! ### The stable order -/

/-- **The scene in the stable order by type is a rearranged one.** -/
theorem rearranges_renumbered (scene : Scene) :
    Rearranges scene.newKey scene scene.renumbered := by
  have hlength : scene.order.length = scene.length := by
    rw [scene.order_perm.length_eq, List.length_zipIdx]
  refine ⟨by rw [renumbered, List.length_map, hlength], fun key => ?_,
    fun hrecord => getElem?_renumbered hrecord, ?_⟩
  · have hmem : key ∈ scene.order.map Prod.snd ↔ key < scene.length := by
      rw [(scene.order_perm.map Prod.snd).mem_iff, List.zipIdx_map_snd, List.mem_range'_1]
      simp
    rw [← hmem, newKey, ← hlength, ← List.length_map Prod.snd]
    exact List.idxOf_lt_length_iff
  · intro key later record follower hkey hlater htype hlt
    -- in the order of the scene, the records of the type of `follower` have ascending keys
    have hascending : (scene.zipIdx.filter fun entry => entry.1.typeId = follower.typeId).Pairwise
        fun a b => a.2 < b.2 := by
      have hkeys : (scene.zipIdx.map Prod.snd).Pairwise (· < ·) := by
        rw [List.zipIdx_map_snd]
        exact List.pairwise_lt_range'
      exact (List.pairwise_map.1 hkeys).sublist List.filter_sublist
    rw [← filter_mergeSort_keyOrder, List.pairwise_filter] at hascending
    change scene.order.Pairwise _ at hascending
    obtain ⟨hplace, hfound⟩ := List.getElem?_eq_some_iff.1 (getElem?_order_newKey hkey)
    obtain ⟨hother, hlast⟩ := List.getElem?_eq_some_iff.1 (getElem?_order_newKey hlater)
    by_contra hle
    rcases Nat.lt_or_eq_of_le (Nat.not_lt.1 hle) with hbefore | hsame
    · have hpair := List.pairwise_iff_getElem.1 hascending _ _ hother hplace hbefore
      rw [hfound, hlast] at hpair
      exact Nat.lt_asymm hlt (hpair (decide_eq_true rfl) (decide_eq_true htype))
    · have heq := getElem?_order_newKey hlater
      rw [hsame, getElem?_order_newKey hkey, Option.some_inj] at heq
      exact Nat.ne_of_lt hlt (congrArg Prod.snd heq)

end Scene

end ScenePack
