/-
**Outcomes of checks in sequence.**

Reading, checking and laying out are sequences of steps of which the first failure decides.  The
lemmas here say when such a sequence succeeds, so that proofs about it need not unfold it.

Main results:

* `bind_eq_ok_iff`, `bind_eq_error_iff` — two steps succeed if the first does, and the second on
  its result;
* `mapM_eq_ok_iff`, `exists_mapM_eq_ok`, `forM_eq_ok_iff`, `forM_eq_error_iff` — a step for each
  item of a list, which fails where it first fails for an item;
* `foldlM_induction`, `foldlM_imp`, `exists_of_foldlM_eq_error` — what every step of a fold keeps
  holds at its end, steps with the same results make folds with the same results, and a fold fails
  at one of its steps;
* `foldlM_eq_mapM_bind` — a fold whose checks do not look at its state;
* `exists_append_of_forall₂`, `exists_mem_of_forall₂`, `forall₂_congr_of_mem`,
  `filterMap_eq_of_forall₂` — lists that are related item by item;
* `lookup_of_nodup`, `exists_lookup_zipIdx`, `lookup_zipIdx_of_nodup` — what is looked up in a list
  of pairs, and the position of an item that is looked up;
* `eraseDups_concat`, `nodup_eraseDups` — lists without repetitions.
-/

import Mathlib.Data.List.Forall2
import Mathlib.Data.List.Induction
import Mathlib.Data.List.Nodup

set_option relaxedAutoImplicit false
set_option autoImplicit false

namespace ScenePack

variable {ε α β : Type}

/-- Two steps succeed if the first does, and the second on its result. -/
theorem bind_eq_ok_iff {first : Except ε α} {next : α → Except ε β} {result : β} :
    first >>= next = .ok result ↔ ∃ value, first = .ok value ∧ next value = .ok result := by
  cases first with
  | error failure =>
      constructor
      · intro h
        cases h
      · rintro ⟨_, h, _⟩
        cases h
  | ok value =>
      constructor
      · intro h
        exact ⟨value, rfl, h⟩
      · rintro ⟨_, h, hnext⟩
        cases h
        exact hnext

/-- A changed outcome is a success if the outcome is one. -/
theorem map_eq_ok_iff {first : Except ε α} {f : α → β} {result : β} :
    first.map f = .ok result ↔ ∃ value, first = .ok value ∧ f value = result := by
  cases first with
  | error failure => simp [Except.map]
  | ok value => simp [Except.map]

/-- Two steps fail if the first does, or the second on its result. -/
theorem bind_eq_error_iff {first : Except ε α} {next : α → Except ε β} {failure : ε} :
    first >>= next = .error failure ↔
      first = .error failure ∨ ∃ value, first = .ok value ∧ next value = .error failure := by
  cases first with
  | error other =>
      constructor
      · intro h
        cases h
        exact Or.inl rfl
      · rintro (h | ⟨_, h, _⟩)
        · cases h
          rfl
        · cases h
  | ok value =>
      constructor
      · intro h
        exact Or.inr ⟨value, rfl, h⟩
      · rintro (h | ⟨_, h, hnext⟩)
        · cases h
        · cases h
          exact hnext

/-- A step for each item of a list succeeds if it does on every item. -/
theorem mapM_eq_ok_iff {step : α → Except ε β} {items : List α} {results : List β} :
    items.mapM step = .ok results ↔
      List.Forall₂ (fun item result => step item = .ok result) items results := by
  induction items generalizing results with
  | nil =>
      rw [List.mapM_nil, List.forall₂_nil_left_iff]
      exact ⟨fun h => (Except.ok.inj h).symm, fun h => h ▸ rfl⟩
  | cons item rest ih =>
      rw [List.mapM_cons, bind_eq_ok_iff, List.forall₂_cons_left_iff]
      constructor
      · rintro ⟨result, hitem, hrest⟩
        obtain ⟨others, hothers, hpure⟩ := bind_eq_ok_iff.1 hrest
        exact ⟨result, others, hitem, ih.1 hothers, (Except.ok.inj hpure).symm⟩
      · rintro ⟨result, others, hitem, hothers, rfl⟩
        exact ⟨result, hitem, bind_eq_ok_iff.2 ⟨others, ih.2 hothers, rfl⟩⟩

theorem exists_mapM_eq_ok {step : α → Except ε β} {items : List α}
    (h : ∀ item ∈ items, ∃ result, step item = .ok result) :
    ∃ results, items.mapM step = .ok results := by
  induction items with
  | nil => exact ⟨[], rfl⟩
  | cons item rest ih =>
      obtain ⟨⟨result, hitem⟩, hrest⟩ := List.forall_mem_cons.1 h
      obtain ⟨results, hresults⟩ := ih hrest
      exact ⟨result :: results,
        mapM_eq_ok_iff.2 (.cons hitem (mapM_eq_ok_iff.1 hresults))⟩

theorem exists_of_mapM_eq_error {step : α → Except ε β} {items : List α} {failure : ε}
    (h : items.mapM step = .error failure) : ∃ item ∈ items, step item = .error failure := by
  induction items with
  | nil => cases h
  | cons item rest ih =>
      rw [List.mapM_cons] at h
      rcases bind_eq_error_iff.1 h with hitem | ⟨_, -, h⟩
      · exact ⟨item, List.mem_cons_self, hitem⟩
      rcases bind_eq_error_iff.1 h with hrest | ⟨_, -, hpure⟩
      · obtain ⟨other, hother, hfails⟩ := ih hrest
        exact ⟨other, List.mem_cons_of_mem _ hother, hfails⟩
      · cases hpure

/-- A check of each item of a list succeeds if every item passes. -/
theorem forM_eq_ok_iff {check : α → Except ε Unit} {items : List α} :
    items.forM check = .ok () ↔ ∀ item ∈ items, check item = .ok () := by
  induction items with
  | nil => exact ⟨fun _ _ h => absurd h List.not_mem_nil, fun _ => rfl⟩
  | cons item rest ih =>
      rw [List.forM_eq_forM, List.forM_cons, bind_eq_ok_iff, List.forall_mem_cons]
      constructor
      · rintro ⟨_, hitem, hrest⟩
        exact ⟨hitem, ih.1 hrest⟩
      · rintro ⟨hitem, hrest⟩
        exact ⟨(), hitem, ih.2 hrest⟩

/-- A check of each item of a list fails on the first item that does not pass, with its failure. -/
theorem forM_eq_error_iff {check : α → Except ε Unit} {items : List α} {failure : ε} :
    items.forM check = .error failure ↔ ∃ front item back, items = front ++ item :: back ∧
      (∀ other ∈ front, check other = .ok ()) ∧ check item = .error failure := by
  constructor
  · intro h
    induction items with
    | nil => cases h
    | cons item rest ih =>
        rw [List.forM_eq_forM, List.forM_cons] at h
        rcases bind_eq_error_iff.1 h with hitem | ⟨_, hitem, hrest⟩
        · exact ⟨[], item, rest, rfl, fun _ h => absurd h List.not_mem_nil, hitem⟩
        · obtain ⟨front, other, back, rfl, hfront, hother⟩ := ih hrest
          exact ⟨item :: front, other, back, rfl, List.forall_mem_cons.2 ⟨hitem, hfront⟩, hother⟩
  · rintro ⟨front, item, back, rfl, hfront, hitem⟩
    have hpassed : front.forM check = .ok () := forM_eq_ok_iff.2 hfront
    rw [List.forM_eq_forM] at hpassed ⊢
    rw [List.forM_append, hpassed, List.forM_cons, hitem]
    rfl

theorem exists_of_forM_eq_error {check : α → Except ε Unit} {items : List α} {failure : ε}
    (h : items.forM check = .error failure) : ∃ item ∈ items, check item = .error failure := by
  obtain ⟨front, item, back, rfl, -, hitem⟩ := forM_eq_error_iff.1 h
  exact ⟨item, by simp, hitem⟩

/-- What holds before a fold, and is kept by each of its steps, holds at its end.  The property
may speak of the items that have been taken. -/
theorem foldlM_induction {step : β → α → Except ε β} {items : List α} {first last : β}
    (holds : List α → β → Prop) (hfirst : holds [] first)
    (hstep : ∀ taken item state next, item ∈ items → holds taken state →
      step state item = .ok next → holds (taken ++ [item]) next)
    (h : items.foldlM step first = .ok last) : holds items last := by
  -- the property is carried along with the items taken so far
  suffices hall : ∀ (rest taken : List α) (state : β), (∀ item ∈ rest, item ∈ items) →
      holds taken state → rest.foldlM step state = .ok last → holds (taken ++ rest) last by
    simpa using hall items [] first (fun _ hitem => hitem) hfirst h
  intro rest
  induction rest with
  | nil =>
      intro taken state _ hstate hrest
      cases hrest
      simpa using hstate
  | cons item rest ih =>
      intro taken state hmem hstate hrest
      rw [List.foldlM_cons] at hrest
      obtain ⟨next, hitem, hrest⟩ := bind_eq_ok_iff.1 hrest
      have hnext := hstep taken item state next (hmem item List.mem_cons_self) hstate hitem
      have := ih (taken ++ [item]) next
        (fun other hother => hmem other (List.mem_cons_of_mem _ hother)) hnext hrest
      simpa using this

theorem exists_of_foldlM_eq_error {step : β → α → Except ε β} {items : List α} {first : β}
    {failure : ε} (h : items.foldlM step first = .error failure) :
    ∃ item ∈ items, ∃ state, step state item = .error failure := by
  induction items generalizing first with
  | nil => cases h
  | cons item rest ih =>
      rw [List.foldlM_cons] at h
      rcases bind_eq_error_iff.1 h with hitem | ⟨next, -, hrest⟩
      · exact ⟨item, List.mem_cons_self, first, hitem⟩
      · obtain ⟨other, hother, state, hstep⟩ := ih hrest
        exact ⟨other, List.mem_cons_of_mem _ hother, state, hstep⟩

/-- A fold whose steps give the results of other steps gives the result of the other fold. -/
theorem foldlM_imp {step other : β → α → Except ε β}
    (h : ∀ {state item next}, step state item = .ok next → other state item = .ok next)
    {items : List α} {first last : β} (hfold : items.foldlM step first = .ok last) :
    items.foldlM other first = .ok last := by
  induction items generalizing first with
  | nil => exact hfold
  | cons item rest ih =>
      rw [List.foldlM_cons] at hfold ⊢
      obtain ⟨next, hitem, hrest⟩ := bind_eq_ok_iff.1 hfold
      exact bind_eq_ok_iff.2 ⟨next, h hitem, ih hrest⟩

/-- A fold whose checks do not look at its state checks all items first. -/
theorem foldlM_eq_mapM_bind {γ : Type} {check : α → Except ε γ} {next : β → γ → β}
    {items : List α} {first : β} :
    (items.foldlM (fun state item => do
      let value ← check item
      .ok (next state value)) first) =
      (do
        let values ← items.mapM check
        .ok (values.foldl next first)) := by
  induction items generalizing first with
  | nil => rfl
  | cons item rest ih =>
      rw [List.foldlM_cons, List.mapM_cons]
      cases check item with
      | error failure => rfl
      | ok value =>
          refine Eq.trans (@ih (next first value)) ?_
          cases rest.mapM check with
          | error failure => rfl
          | ok values => rfl

/-! ### Lists related item by item -/

/-- What is related to two lists in a row is two lists in a row. -/
theorem exists_append_of_forall₂ {related : α → β → Prop} {front back : List α} {all : List β}
    (h : List.Forall₂ related (front ++ back) all) :
    ∃ first second, List.Forall₂ related front first ∧ List.Forall₂ related back second ∧
      all = first ++ second := by
  induction front generalizing all with
  | nil => exact ⟨[], all, .nil, h, rfl⟩
  | cons item front ih =>
      obtain ⟨result, others, hitem, hothers, rfl⟩ := List.forall₂_cons_left_iff.1 h
      obtain ⟨first, second, hfirst, hsecond, rfl⟩ := ih hothers
      exact ⟨result :: first, second, .cons hitem hfirst, hsecond, rfl⟩

/-- A relation that implies another one on the items of a list implies it on the list. -/
theorem forall₂_imp_of_mem {first second : α → β → Prop} {items : List α} {results : List β}
    (h : ∀ item ∈ items, ∀ result, first item result → second item result)
    (hfirst : List.Forall₂ first items results) : List.Forall₂ second items results := by
  induction hfirst with
  | nil => exact .nil
  | cons hitem _ ih =>
      obtain ⟨himp, hrest⟩ := List.forall_mem_cons.1 h
      exact .cons (himp _ hitem) (ih hrest)

theorem forall₂_congr_of_mem {first second : α → β → Prop} {items : List α} {results : List β}
    (h : ∀ item ∈ items, ∀ result, first item result ↔ second item result) :
    List.Forall₂ first items results ↔ List.Forall₂ second items results :=
  ⟨forall₂_imp_of_mem fun item hitem result => (h item hitem result).1,
    forall₂_imp_of_mem fun item hitem result => (h item hitem result).2⟩

theorem exists_mem_of_forall₂ {related : α → β → Prop} {items : List α} {results : List β}
    (h : List.Forall₂ related items results) {result : β} (hresult : result ∈ results) :
    ∃ item ∈ items, related item result := by
  obtain ⟨hlength, hrelated⟩ := List.forall₂_iff_get.1 h
  obtain ⟨index, hindex, rfl⟩ := List.getElem_of_mem hresult
  exact ⟨_, List.getElem_mem (hlength ▸ hindex), hrelated index (hlength ▸ hindex) hindex⟩

theorem exists_getElem?_of_forall₂ {related : α → β → Prop} {items : List α} {results : List β}
    (h : List.Forall₂ related items results) {index : Nat} {item : α}
    (hitem : items[index]? = some item) :
    ∃ result, results[index]? = some result ∧ related item result := by
  obtain ⟨hlength, hrelated⟩ := List.forall₂_iff_get.1 h
  obtain ⟨hlt, rfl⟩ := List.getElem?_eq_some_iff.1 hitem
  exact ⟨_, List.getElem?_eq_getElem (hlength ▸ hlt), hrelated index hlt (hlength ▸ hlt)⟩

/-- An item that is related to two lists of results has one result that it is related to in both
ways, if the lists are the same. -/
theorem exists_of_forall₂_of_mem {first second : α → β → Prop} {items : List α} {results : List β}
    (hfirst : List.Forall₂ first items results) (hsecond : List.Forall₂ second items results)
    {item : α} (h : item ∈ items) : ∃ result, first item result ∧ second item result := by
  induction hfirst with
  | nil => exact absurd h List.not_mem_nil
  | @cons head result _ _ hitem _ ih =>
      obtain ⟨hother, hothers⟩ := List.forall₂_cons.1 hsecond
      rcases List.mem_cons.1 h with rfl | h
      · exact ⟨result, hitem, hother⟩
      · exact ih hothers h

/-- Lists of one length are related if their items are, position by position. -/
theorem forall₂_of_getElem? {related : α → β → Prop} {items : List α} {results : List β}
    (hlength : items.length = results.length)
    (h : ∀ (index : Nat) (item : α) (result : β), items[index]? = some item →
      results[index]? = some result → related item result) :
    List.Forall₂ related items results := by
  refine List.forall₂_iff_get.2 ⟨hlength, ?_⟩
  intro index hitem hresult
  exact h index _ _ (List.getElem?_eq_getElem hitem) (List.getElem?_eq_getElem hresult)

theorem forall₂_set {related : α → β → Prop} {items : List α} {results : List β}
    (h : List.Forall₂ related items results) {index : Nat} {item : α}
    (hitem : items[index]? = some item) {result : β} (hresult : related item result) :
    List.Forall₂ related items (results.set index result) := by
  induction h generalizing index with
  | nil => simp at hitem
  | cons hhead hrest ih =>
      cases index with
      | zero =>
          cases hitem
          exact .cons hresult hrest
      | succ index => exact .cons hhead (ih hitem)

/-- What a function makes of each item is what it makes of the list. -/
theorem forall₂_eq_map_iff {f : α → β} {items : List α} {results : List β} :
    List.Forall₂ (fun item result => result = f item) items results ↔ results = items.map f := by
  induction items generalizing results with
  | nil => simp
  | cons item rest ih =>
      rw [List.forall₂_cons_left_iff, List.map_cons]
      constructor
      · rintro ⟨_, others, rfl, hothers, rfl⟩
        rw [ih.1 hothers]
      · rintro rfl
        exact ⟨_, _, rfl, ih.2 rfl, rfl⟩

/-- A function that gives a result on every item of a list leaves none out. -/
theorem filterMap_eq_of_forall₂ {f : α → Option β} {items : List α} {results : List β}
    (h : List.Forall₂ (fun item result => f item = some result) items results) :
    items.filterMap f = results := by
  induction h with
  | nil => rfl
  | cons hitem _ ih => rw [List.filterMap_cons_some hitem, ih]

theorem mem_of_lookup_eq_some {α : Type} [BEq α] [LawfulBEq α] {items : List (α × β)} {key : α}
    {value : β} (h : items.lookup key = some value) : (key, value) ∈ items := by
  obtain ⟨front, back, rfl, -⟩ := List.lookup_eq_some_iff.1 h
  exact List.mem_append_right _ List.mem_cons_self

theorem exists_lookup_zipIdx {α : Type} [BEq α] [LawfulBEq α] {items : List α} {item : α}
    (h : item ∈ items) : ∃ index, items.zipIdx.lookup item = some index := by
  obtain ⟨index, hindex⟩ := List.mem_iff_getElem?.1 h
  have hpair : (item, index) ∈ items.zipIdx := List.mem_zipIdx_iff_getElem?.2 hindex
  cases hlookup : items.zipIdx.lookup item with
  | some found => exact ⟨found, rfl⟩
  | none => simpa using List.lookup_eq_none_iff.1 hlookup _ hpair

theorem lookup_of_nodup {α : Type} [BEq α] [LawfulBEq α] {items : List (α × β)}
    (hnodup : (items.map Prod.fst).Nodup) {key : α} {value : β} (h : (key, value) ∈ items) :
    items.lookup key = some value := by
  obtain ⟨front, back, rfl⟩ := List.append_of_mem h
  refine List.lookup_eq_some_iff.2 ⟨front, back, rfl, fun pair hpair => ?_⟩
  rw [List.map_append, List.map_cons] at hnodup
  have hapart := (List.nodup_append.1 hnodup).2.2 pair.1 (List.mem_map_of_mem hpair) key
    List.mem_cons_self
  simpa using Ne.symm hapart

/-- In a list without duplicates, an item that is looked up is found at its own position. -/
theorem lookup_zipIdx_of_nodup {α : Type} [BEq α] [LawfulBEq α] {items : List α} {item : α}
    (hnodup : items.Nodup) {index : Nat} (h : items[index]? = some item) :
    items.zipIdx.lookup item = some index :=
  lookup_of_nodup (by rwa [List.zipIdx_map_fst]) (List.mem_zipIdx_iff_getElem?.2 h)

/-! ### Lists without repetitions -/

section Repetitions

variable [BEq α] [LawfulBEq α]

/-- One more item is only kept if it is not there yet. -/
theorem eraseDups_concat (items : List α) (item : α) :
    (items ++ [item]).eraseDups =
      if item ∈ items then items.eraseDups else items.eraseDups ++ [item] := by
  have hone : [item].eraseDups = [item] := by simp [List.eraseDups_cons]
  rw [List.eraseDups_append]
  by_cases hmem : item ∈ items <;> simp [List.removeAll, hmem, hone]

theorem nodup_eraseDups (items : List α) : items.eraseDups.Nodup := by
  induction items using List.reverseRecOn with
  | nil => exact List.nodup_nil
  | append_singleton items item ih =>
      rw [eraseDups_concat]
      split
      · exact ih
      · next hmem =>
          rw [← List.concat_eq_append]
          exact ih.concat fun h => hmem (List.mem_eraseDups.1 h)

end Repetitions

end ScenePack
