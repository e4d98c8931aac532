/-
**The texts of an image.**

Texts are added to the pool while records are written, and the room for them is counted beforehand
by going through the values of all records.  Both see the same texts in the same order as long as
each record has one value for each field.

Main definitions:

* `TextPool.internAll` — the pool after some texts have been added.

Main results:

* `TextPool.texts_internAll` — **a pool that shares texts holds each of them once**, in the order of
  their first occurrence;
* `pool_of_writeRecords` — **well-formed records add their texts, one after the other**;
* `Scene.texts_of_write` — **the texts that are written are those that were counted**.
-/

import ScenePack.Proofs.Image.Packed

set_option relaxedAutoImplicit false
set_option autoImplicit false

namespace ScenePack

/-! ### The room that texts take -/

theorem textsSize_eq_sum (texts : List String) : textsSize texts = (texts.map textSize).sum := by
  induction texts with
  | nil => rfl
  | cons text rest ih => rw [textsSize, List.map_cons, List.sum_cons, ih]

theorem textsSize_le_of_sublist {texts others : List String} (h : texts.Sublist others) :
    textsSize texts ≤ textsSize others := by
  rw [textsSize_eq_sum, textsSize_eq_sum]
  exact (h.map textSize).sum_le_sum fun _ _ => Nat.zero_le _

/-- Texts that are among others take no more room than these, if they are not repeated. -/
theorem textsSize_le_of_subset {texts others : List String} (hnodup : texts.Nodup)
    (h : texts ⊆ others) : textsSize texts ≤ textsSize others := by
  obtain ⟨front, hperm, hsublist⟩ := hnodup.subperm h
  refine Nat.le_trans (Nat.le_of_eq ?_) (textsSize_le_of_sublist hsublist)
  rw [textsSize_eq_sum, textsSize_eq_sum, (hperm.map textSize).sum_eq]

/-! ### Adding texts -/

namespace TextPool

variable {pool : TextPool}

/-- The pool after some texts have been added. -/
def internAll (pool : TextPool) (texts : List String) : TextPool :=
  texts.foldl (fun pool text => (pool.intern text).2) pool

theorem internAll_cons (pool : TextPool) (text : String) (texts : List String) :
    pool.internAll (text :: texts) = (pool.intern text).2.internAll texts := rfl

theorem internAll_append (pool : TextPool) (texts others : List String) :
    pool.internAll (texts ++ others) = (pool.internAll texts).internAll others :=
  List.foldl_append

theorem shared_intern (pool : TextPool) (text : String) :
    (pool.intern text).2.shared = pool.shared := by
  unfold intern
  split <;> rfl

/-- Without sharing, a text is added at the end. -/
theorem texts_intern_of_separate (hshared : pool.shared = false) (text : String) :
    (pool.intern text).2.texts = pool.texts ++ [text] := by
  simp [intern, hshared]

/-- With sharing, a text is added at the end unless the pool has it. -/
theorem texts_intern_of_shared (hshared : pool.shared = true) (text : String) :
    (pool.intern text).2.texts =
      if text ∈ pool.texts then pool.texts else pool.texts ++ [text] := by
  unfold intern
  rw [hshared, if_pos rfl]
  split
  · next index hfind =>
      obtain ⟨hlt, htext, -⟩ := List.findIdx?_eq_some_iff_getElem.1 hfind
      have hmem : text ∈ pool.texts := of_decide_eq_true htext ▸ List.getElem_mem hlt
      rw [if_pos hmem]
  · next hfind =>
      have hnone := List.findIdx?_eq_none_iff.1 hfind
      rw [if_neg fun hmem => absurd (hnone text hmem) (by simp)]

/-- With sharing, a pool that holds some texts without repetitions does so with one more. -/
theorem texts_intern_eraseDups (hshared : pool.shared = true) {taken : List String}
    (htaken : pool.texts = taken.eraseDups) (text : String) :
    (pool.intern text).2.texts = (taken ++ [text]).eraseDups := by
  rw [texts_intern_of_shared hshared, htaken, eraseDups_concat]
  simp only [List.mem_eraseDups]

/-- **A pool that shares texts holds each of them once**, in the order of their first occurrence.
Any other one holds them all. -/
theorem texts_internAll {taken : List String}
    (htaken : pool.texts = if pool.shared then taken.eraseDups else taken) (texts : List String) :
    (pool.internAll texts).texts =
      if pool.shared then (taken ++ texts).eraseDups else taken ++ texts := by
  induction texts generalizing pool taken with
  | nil =>
      rw [List.append_nil]
      exact htaken
  | cons text rest ih =>
      rw [internAll_cons, List.append_cons, ← shared_intern pool text]
      refine ih ?_
      rw [shared_intern]
      cases hshared : pool.shared with
      | false =>
          rw [hshared] at htaken
          rw [texts_intern_of_separate hshared, htaken]
          rfl
      | true =>
          rw [hshared] at htaken
          exact texts_intern_eraseDups hshared htaken text

end TextPool

/-! ### The texts of records -/

section Writing

variable {registry : Registry} {position? : InstanceKey → Option Nat} {pool next : TextPool}

mutual

theorem pool_of_writeValue {owner field : String} {kind : FieldKind Target} {pool next : TextPool}
    {out : Bytes} (value : Value) (hformed : value.Formed registry kind)
    (h : writeValue registry position? owner field value pool = .ok (out, next)) :
    next = pool.internAll value.texts := by
  cases value with
  | scalar number =>
      cases h
      rfl
  | text content =>
      cases content with
      | none =>
          cases h
          rfl
      | some text =>
          cases h
          rfl
  | component typeId values =>
      rw [Value.Formed] at hformed
      obtain ⟨-, layout, hlayout, hvalues⟩ := hformed
      rw [writeValue, hlayout] at h
      obtain ⟨⟨inner, last⟩, hwrite, hok⟩ := bind_eq_ok_iff.1 h
      cases hok
      rw [Value.texts]
      exact pool_of_writeFields values hvalues hwrite
  | ref key =>
      cases key with
      | none =>
          cases h
          rfl
      | some key =>
          rw [writeValue] at h
          split at h
          · cases h
            rfl
          · cases h

theorem pool_of_writeFields {owner : RecordLayout} {fields : List FieldLayout}
    {pool next : TextPool} {written out : Bytes} (values : List Value)
    (hformed : Value.AllFormed registry fields values)
    (h : writeFields registry position? owner fields values written pool = .ok (out, next)) :
    next = pool.internAll (Value.allTexts values) := by
  cases values with
  | nil =>
      cases fields with
      | nil =>
          cases h
          rfl
      | cons field fields => exact hformed.elim
  | cons value values =>
      cases fields with
      | nil => exact hformed.elim
      | cons field fields =>
          rw [Value.AllFormed] at hformed
          rw [writeFields] at h
          obtain ⟨⟨first, middle⟩, hfirst, hrest⟩ := bind_eq_ok_iff.1 h
          rw [Value.allTexts, TextPool.internAll_append,
            ← pool_of_writeValue value hformed.1 hfirst]
          exact pool_of_writeFields values hformed.2 hrest

end

/-- **Well-formed records add their texts, one after the other.** -/
theorem pool_of_writeRecords {places : List (StoredRecord × Nat)} {written out : Bytes}
    (hformed : ∀ place ∈ places,
      Value.AllFormed registry place.1.layout.fields place.1.record.values)
    (h : writeRecords registry position? places written pool = .ok (out, next)) :
    next = pool.internAll (places.flatMap fun place => Value.allTexts place.1.record.values) := by
  induction places generalizing written pool with
  | nil =>
      cases h
      rfl
  | cons place rest ih =>
      obtain ⟨hplace, hrest⟩ := List.forall_mem_cons.1 hformed
      obtain ⟨⟨bytes, middle⟩, hwrite, hnext⟩ := bind_eq_ok_iff.1 h
      obtain ⟨⟨inner, last⟩, hfields, hok⟩ := bind_eq_ok_iff.1 hwrite
      cases hok
      rw [List.flatMap_cons, TextPool.internAll_append, ← pool_of_writeFields _ hplace hfields]
      exact ih hrest hnext

end Writing

/-! ### The texts of a scene -/

namespace Scene

variable {registry : Registry} {config : PackConfig} {scene : Scene} {out : Bytes} {pool : TextPool}

/-- **The texts that are written are those that were counted**, if the scene is well formed. -/
theorem texts_of_write (hsound : registry.Sound) (hformed : scene.Formed registry)
    (h : scene.write registry config = .ok (out, pool)) :
    pool.texts = scene.storedTexts registry config := by
  have hplaced := scene.placed hsound config
  have hplaces : ∀ place ∈ (scene.arrange registry config).places,
      Value.AllFormed registry place.1.layout.fields place.1.record.values := by
    intro place hplace
    have hstored := Arrangement.mem_stored_of_mem_places hplace
    obtain ⟨hlayout, -, hrecord⟩ := of_mem_stored hsound hstored
    obtain ⟨layout, hother, hvalues⟩ := hformed _ (List.mem_of_getElem? hrecord)
    cases hother.symm.trans hlayout
    exact hvalues
  have hstored : (scene.arrange registry config).places.map Prod.fst = scene.stored registry :=
    List.map_fst_zip (Nat.le_of_eq hplaced.length_positions.symm)
  have htaken : ([] : List String) = if config.shareTexts then [].eraseDups else [] := by simp
  rw [pool_of_writeRecords hplaces h, TextPool.texts_internAll htaken, storedTexts, ← hstored,
    List.flatMap_map]
  rfl

/-- The texts of a well-formed scene take the room that was counted for them. -/
theorem length_bytes_of_write (hsound : registry.Sound) (hformed : scene.Formed registry)
    (h : scene.write registry config = .ok (out, pool)) :
    pool.bytes.length = (scene.arrange registry config).sizes.text := by
  rw [TextPool.length_bytes, texts_of_write hsound hformed h]
  rfl

end Scene

end ScenePack
