/-
**Distinct keys.**

A text may give a member of an object more than once; the last of them counts.  So a value that has
been read has no object with a key twice, and the same holds of the fields of the instances of a
scene.

Main definitions:

* `Json.Distinct` — a value in which no object has a key twice;
* `InstanceSource.Distinct` — an instance whose fields are such values, under distinct names.

Main results:

* `Json.membersFrom_keeps`, `Json.record_keeps` — what every member keeps, an object keeps, and a
  record;
* `Json.distinct_of_value` — **a value that has been read has distinct keys**;
* `InstanceSource.distinct_of_readAll` — **so have the instances of a scene**.
-/

import Mathlib.Data.String.Basic
import ScenePack.Proofs.Outcome
import ScenePack.Scene.Source

set_option relaxedAutoImplicit false
set_option autoImplicit false

namespace ScenePack

namespace Json

/-! ### Containers -/

section Containers

variable {α σ : Type} {first : Bool} {bound : Nat} {text rest : List Char}

/-- Whether or not a comma comes first, the reading goes on in the same way. -/
theorem exists_of_afterComma {closing : Char} {next : List Char → Except Fault (α × List Char)}
    {result : α × List Char}
    (h : (if first then (Except.ok text : Except Fault (List Char)) >>= next
      else afterComma closing text >>= next) = .ok result) : ∃ text, next text = .ok result := by
  split at h
  · exact ⟨text, h⟩
  · obtain ⟨text, -, h⟩ := bind_eq_ok_iff.1 h
    exact ⟨text, h⟩

/-- What holds of every element that can be read holds of the elements of an array. -/
theorem forall_of_elementsFrom {holds : α → Prop} {element : Reader α}
    (helement : ∀ text item rest, element text = .ok (item, rest) → holds item) {items : List α}
    (h : elementsFrom element bound first text = .ok (items, rest)) :
    ∀ item ∈ items, holds item := by
  induction bound generalizing first text items with
  | zero => cases h
  | succ bound ih =>
      rw [elementsFrom] at h
      split at h
      · cases h
      · cases h
        exact fun _ hitem => absurd hitem List.not_mem_nil
      · obtain ⟨_, h⟩ := exists_of_afterComma h
        obtain ⟨⟨item, _⟩, hitem, h⟩ := bind_eq_ok_iff.1 h
        obtain ⟨⟨items, _⟩, hitems, h⟩ := bind_eq_ok_iff.1 h
        cases h
        exact List.forall_mem_cons.2 ⟨helement _ _ _ hitem, ih hitems⟩

/-- The reader of a member is the one that its key calls for. -/
theorem exists_key_of_memberKey {enter : String → Except Fault (Reader σ)} {read : Reader σ}
    (h : memberKey enter text = .ok (read, rest)) : ∃ key, enter key = .ok read := by
  unfold memberKey at h
  split at h
  · obtain ⟨⟨key, _⟩, -, h⟩ := bind_eq_ok_iff.1 h
    obtain ⟨found, hfound, h⟩ := bind_eq_ok_iff.1 h
    refine ⟨key, ?_⟩
    split at h
    · cases h
    · cases h
      exact hfound
    · cases h
  · cases h

/-- **What every member keeps, an object keeps**: a property of the state that is passed from member
to member. -/
theorem membersFrom_keeps (holds : σ → Prop) {enter : σ → String → Except Fault (Reader σ)}
    (henter : ∀ state key read text next rest, holds state → enter state key = .ok read →
      read text = .ok (next, rest) → holds next)
    {state next : σ} (hstate : holds state)
    (h : membersFrom enter bound first state text = .ok (next, rest)) : holds next := by
  induction bound generalizing first state text with
  | zero => cases h
  | succ bound ih =>
      rw [membersFrom] at h
      split at h
      · cases h
      · cases h
        exact hstate
      · obtain ⟨_, h⟩ := exists_of_afterComma h
        obtain ⟨⟨read, _⟩, hread, h⟩ := bind_eq_ok_iff.1 h
        obtain ⟨⟨state', _⟩, hstate', h⟩ := bind_eq_ok_iff.1 h
        obtain ⟨key, hkey⟩ := exists_key_of_memberKey hread
        exact ih (henter _ _ _ _ _ _ hstate hkey hstate') h

/-- A property of the state that every member keeps is kept by a record that is written as an
array. -/
theorem positional_keeps {holds : σ → Prop} {shape : List (Member σ)}
    (hstore : ∀ member ∈ shape, ∀ state text next rest, holds state →
      member.store state text = .ok (next, rest) → holds next)
    {state next : σ} (hstate : holds state)
    (h : positional shape first state text = .ok (next, rest)) : holds next := by
  induction shape generalizing first state text with
  | nil =>
      rw [positional] at h
      split at h
      · cases h
      · cases h
        exact hstate
      · cases h
  | cons member shape ih =>
      obtain ⟨hmember, hshape⟩ := List.forall_mem_cons.1 hstore
      rw [positional] at h
      split at h
      · cases h
      · split at h
        · cases h
        · cases h
          exact hstate
      · obtain ⟨_, h⟩ := exists_of_afterComma h
        obtain ⟨⟨state', _⟩, hstate', h⟩ := bind_eq_ok_iff.1 h
        exact ih hshape (hmember _ _ _ _ hstate hstate') h

/-- **What every member keeps, a record keeps**, whether it is written as an object or as an
array. -/
theorem record_keeps (holds : σ → Prop) {shape : Nat → List (Member σ)}
    (hstore : ∀ nesting, ∀ member ∈ shape nesting, ∀ state text next rest, holds state →
      member.store state text = .ok (next, rest) → holds next)
    {start next : σ} (hstart : holds start) {nesting : Nat}
    (h : record shape start nesting text = .ok (next, rest)) : holds next := by
  unfold record at h
  split at h
  · split at h
    · cases h
    next nesting =>
    obtain ⟨⟨⟨state, seen⟩, _⟩, hmembers, h⟩ := bind_eq_ok_iff.1 h
    have hstate : holds state := by
      refine membersFrom_keeps (fun state => holds state.1) ?_ hstart hmembers
      intro state key read text next rest hstate henter hread
      unfold enterMember at henter
      split at henter
      · cases henter
      next member hfind =>
      split at henter
      · cases henter
      cases henter
      obtain ⟨⟨stored, _⟩, hstored, hnext⟩ := map_eq_ok_iff.1 hread
      cases hnext
      exact hstore nesting member (List.mem_of_find?_eq_some hfind) _ _ _ _ hstate hstored
    dsimp only at h
    split at h
    · cases h
    · cases h
      exact hstate
  · split at h
    · cases h
    next nesting => exact positional_keeps (hstore nesting) hstart h
  · cases h

end Containers

/-! ### Values -/

/-- A value in which no object has a key twice. -/
inductive Distinct : Json → Prop where
  | null : Distinct .null
  | bool (value : Bool) : Distinct (.bool value)
  | number (value : JsonNumber) : Distinct (.number value)
  | string (value : String) : Distinct (.string value)
  | array {items : List Json} (items_distinct : ∀ item ∈ items, Distinct item) :
      Distinct (.array items)
  | object {members : List (String × Json)} (keys_nodup : (members.map Prod.fst).Nodup)
      (members_distinct : ∀ member ∈ members, Distinct member.2) : Distinct (.object members)

/-- Members in the order of their keys, each with a value that has distinct keys. -/
structure InOrder (members : List (String × Json)) : Prop where
  ascending : members.Pairwise fun a b => a.1 < b.1
  distinct : ∀ member ∈ members, Distinct member.2

theorem InOrder.object {members : List (String × Json)} (h : InOrder members) :
    Distinct (.object members) := by
  refine .object ?_ h.distinct
  rw [List.Nodup, List.pairwise_map]
  exact h.ascending.imp fun hlt => ne_of_lt hlt

theorem mem_of_mem_insertMember {key : String} {value : Json} {members : List (String × Json)}
    {member : String × Json} (h : member ∈ insertMember key value members) :
    member = (key, value) ∨ member ∈ members := by
  induction members with
  | nil => exact .inl (List.mem_singleton.1 h)
  | cons head rest ih =>
      unfold insertMember at h
      split at h
      · exact List.mem_cons.1 h
      · split at h
        · exact (List.mem_cons.1 h).imp_right (List.mem_cons_of_mem head)
        · rcases List.mem_cons.1 h with rfl | h
          · exact .inr List.mem_cons_self
          · exact (ih h).imp_right (List.mem_cons_of_mem head)

/-- **Setting a member keeps the members in order.** -/
theorem InOrder.insertMember {members : List (String × Json)} (h : InOrder members) (key : String)
    {value : Json} (hvalue : Distinct value) : InOrder (insertMember key value members) := by
  constructor
  · have hordered := h.ascending
    clear h
    induction members with
    | nil => exact List.pairwise_singleton _ _
    | cons head rest ih =>
        obtain ⟨hhead, hrest⟩ := List.pairwise_cons.1 hordered
        unfold Json.insertMember
        split
        · next hlt =>
            refine List.pairwise_cons.2 ⟨List.forall_mem_cons.2 ⟨hlt, fun member hmember => ?_⟩,
              hordered⟩
            exact lt_trans hlt (hhead member hmember)
        · next hnot =>
            split
            · next heq =>
                refine List.pairwise_cons.2 ⟨fun member hmember => ?_, hrest⟩
                exact heq ▸ hhead member hmember
            · next hne =>
                refine List.pairwise_cons.2 ⟨fun member hmember => ?_, ih hrest⟩
                rcases mem_of_mem_insertMember hmember with rfl | hmember
                · exact lt_of_le_of_ne (not_lt.1 hnot) (Ne.symm hne)
                · exact hhead member hmember
  · intro member hmember
    rcases mem_of_mem_insertMember hmember with rfl | hmember
    · exact hvalue
    · exact h.distinct member hmember

/-- **A value that has been read has distinct keys.** -/
theorem distinct_of_value {nesting : Nat} {text rest : List Char} {json : Json}
    (h : value nesting text = .ok (json, rest)) : json.Distinct := by
  induction nesting using Nat.strongRecOn generalizing text rest json with
  | ind nesting ih =>
      rw [value.eq_def] at h
      split at h
      · cases h
      · obtain ⟨_, -, h⟩ := map_eq_ok_iff.1 h
        cases h
        exact .null
      · obtain ⟨_, -, h⟩ := map_eq_ok_iff.1 h
        cases h
        exact .bool true
      · obtain ⟨_, -, h⟩ := map_eq_ok_iff.1 h
        cases h
        exact .bool false
      · obtain ⟨_, -, h⟩ := map_eq_ok_iff.1 h
        cases h
        exact .string _
      · cases nesting with
        | zero => cases h
        | succ nesting =>
            obtain ⟨_, hitems, h⟩ := map_eq_ok_iff.1 h
            cases h
            exact .array (forall_of_elementsFrom
              (fun _ _ _ hitem => ih nesting (Nat.lt_succ_self nesting) hitem) hitems)
      · cases nesting with
        | zero => cases h
        | succ nesting =>
            obtain ⟨_, hmembers, h⟩ := map_eq_ok_iff.1 h
            cases h
            have hstart : InOrder [] := ⟨.nil, fun _ h => absurd h List.not_mem_nil⟩
            refine InOrder.object (membersFrom_keeps InOrder ?_ hstart hmembers)
            rintro members key read text next rest hordered ⟨⟩ hread
            obtain ⟨_, hvalue, hnext⟩ := map_eq_ok_iff.1 hread
            cases hnext
            exact hordered.insertMember key (ih nesting (Nat.lt_succ_self nesting) hvalue)
      · split at h
        · obtain ⟨_, -, h⟩ := map_eq_ok_iff.1 h
          cases h
          exact .number _
        · cases h

theorem distinct_of_objectMembers {nesting : Nat} {text rest : List Char}
    {members : List (String × Json)} (h : objectMembers nesting text = .ok (members, rest)) :
    Distinct (.object members) := by
  unfold objectMembers at h
  split at h
  · obtain ⟨⟨json, _⟩, hvalue, h⟩ := map_eq_ok_iff.1 h
    have hjson := distinct_of_value hvalue
    cases json with
    | object found =>
        cases h
        exact hjson
    | _ =>
        cases h
        exact .object List.nodup_nil fun _ h => absurd h List.not_mem_nil
  · cases h

end Json

/-! ### Instances -/

namespace InstanceSource

/-- An instance whose fields have distinct names, and values with distinct keys. -/
def Distinct (source : InstanceSource) : Prop := (Json.object source.fields).Distinct

/-- An instance that has been read has distinct keys. -/
theorem distinct_of_read {nesting : Nat} {text rest : List Char} {source : InstanceSource}
    (h : read nesting text = .ok (source, rest)) : source.Distinct := by
  have hstart : Distinct ⟨none, "", []⟩ :=
    .object List.nodup_nil fun _ h => absurd h List.not_mem_nil
  refine Json.record_keeps InstanceSource.Distinct ?_ hstart h
  intro nesting member hmember state text next rest hstate hstore
  simp only [shape, List.mem_cons, List.not_mem_nil, or_false] at hmember
  obtain rfl | rfl | rfl := hmember
  · obtain ⟨_, -, h⟩ := map_eq_ok_iff.1 hstore
    cases h
    exact hstate
  · obtain ⟨_, -, h⟩ := map_eq_ok_iff.1 hstore
    cases h
    exact hstate
  · obtain ⟨_, hmembers, h⟩ := map_eq_ok_iff.1 hstore
    cases h
    exact Json.distinct_of_objectMembers hmembers

/-- **The instances of a text have distinct keys.** -/
theorem distinct_of_readAll {text : String} {sources : List InstanceSource}
    (h : readAll text = .ok sources) : ∀ source ∈ sources, source.Distinct := by
  obtain ⟨⟨found, _⟩, hfound, h⟩ := bind_eq_ok_iff.1 h
  dsimp only at h
  split at h
  · cases h
    have hstart := List.forall_mem_nil InstanceSource.Distinct
    refine Json.record_keeps (fun sources => ∀ source ∈ sources, source.Distinct) ?_ hstart hfound
    intro nesting member hmember state text next rest _ hstore
    obtain rfl := List.mem_singleton.1 hmember
    unfold Json.listOf at hstore
    dsimp only at hstore
    split at hstore
    · split at hstore
      · cases hstore
      · exact Json.forall_of_elementsFrom (fun _ _ _ hread => distinct_of_read hread) hstore
    · cases hstore
  · cases h

end InstanceSource

end ScenePack
