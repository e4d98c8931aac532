/-
**The order of a plan.**

A plan lists every defined type once, with the length of its longest embedding path, the deepest
types first and equally deep ones by name.  A type therefore stands after every type that embeds it,
which is what lets records be laid out from the end of the plan.

Main definitions:

* `PlannedType.Precedes` — the strict order of a plan.

Main results:

* `Schema.mem_plan_iff_longest` — the types of a plan;
* `Schema.pairwise_plan` — **a plan is strictly ordered**;
* `Schema.perm_plan_names` — it lists every type once;
* `Schema.position_lt` — **an embedded type stands after its owner**;
* `Schema.exists_plan_iff`, `Schema.genuine_of_plan` — when a schema has a plan, and what it shows
  if it has none.
-/

import ScenePack.Proofs.Schema.Longest

set_option relaxedAutoImplicit false
set_option autoImplicit false

namespace ScenePack

namespace PlannedType

/-- The strict order of a plan: deeper types first, equally deep ones by name. -/
def Precedes (a b : PlannedType) : Prop :=
  b.depth < a.depth ∨ a.depth = b.depth ∧ a.name < b.name

theorem before_iff {a b : PlannedType} :
    before a b = true ↔ b.depth < a.depth ∨ a.depth = b.depth ∧ a.name ≤ b.name := by
  simp [before]

theorem before_trans {a b c : PlannedType} (hab : before a b = true) (hbc : before b c = true) :
    before a c = true := by
  rw [before_iff] at hab hbc ⊢
  rcases hab with hab | ⟨hab, hname⟩
  · exact Or.inl (by omega)
  · rcases hbc with hbc | ⟨hbc, hname'⟩
    · exact Or.inl (by omega)
    · exact Or.inr ⟨by omega, String.le_trans hname hname'⟩

theorem before_total (a b : PlannedType) : (before a b || before b a) = true := by
  rw [Bool.or_eq_true, before_iff, before_iff]
  rcases Nat.lt_trichotomy a.depth b.depth with h | h | h
  · exact Or.inr (Or.inl h)
  · rcases String.le_total a.name b.name with hname | hname
    · exact Or.inl (Or.inr ⟨h, hname⟩)
    · exact Or.inr (Or.inr ⟨h.symm, hname⟩)
  · exact Or.inl (Or.inl h)

/-- Types of different names are strictly ordered. -/
theorem precedes_of_before {a b : PlannedType} (h : before a b = true) (hname : a.name ≠ b.name) :
    a.Precedes b := by
  rcases before_iff.1 h with h | ⟨hdepth, hle⟩
  · exact Or.inl h
  · refine Or.inr ⟨hdepth, String.not_le.1 fun hge => hname ?_⟩
    exact String.le_antisymm hle hge

end PlannedType

namespace Schema

variable {schema : Schema} {plan : Plan}

theorem perm_plan (h : schema.plan = .ok plan) : ∃ depths, schema.depths = .ok depths ∧
    plan.Perm (depths.map fun entry => PlannedType.mk entry.1 entry.2) ∧
    plan.Pairwise fun a b => PlannedType.before a b = true := by
  obtain ⟨depths, hdepths, hplan⟩ := bind_eq_ok_iff.1 h
  cases hplan
  refine ⟨depths, hdepths, List.mergeSort_perm _ _, ?_⟩
  exact @List.pairwise_mergeSort _ PlannedType.before (fun _ _ _ => PlannedType.before_trans)
    PlannedType.before_total _

/-- **The types of a plan** are the defined ones, each with the length of its longest path. -/
theorem mem_plan_iff_longest (h : schema.plan = .ok plan) {entry : PlannedType} :
    entry ∈ plan ↔ entry.name ∈ schema.names ∧ schema.Longest entry.name entry.depth := by
  obtain ⟨depths, hdepths, hmem⟩ := mem_plan_iff h
  rw [hmem, mem_depths_iff hdepths]

theorem perm_plan_sortedNames (h : schema.plan = .ok plan) :
    plan.names.Perm schema.sortedNames := by
  obtain ⟨depths, hdepths, hperm, -⟩ := perm_plan h
  have hnames := hperm.map PlannedType.name
  rwa [List.map_map, show (PlannedType.name ∘ fun entry : String × Nat =>
    PlannedType.mk entry.1 entry.2) = Prod.fst from rfl, map_fst_depths hdepths] at hnames

theorem nodup_plan_names (h : schema.plan = .ok plan) : plan.names.Nodup :=
  (perm_plan_sortedNames h).nodup_iff.2 (nodup_sortedNames schema)

/-- The names of a plan are those of a schema in which no name is repeated. -/
theorem perm_plan_names (h : schema.plan = .ok plan) (hnodup : schema.names.Nodup) :
    plan.names.Perm schema.names := by
  refine (List.perm_ext_iff_of_nodup (nodup_plan_names h) hnodup).2 fun name => ?_
  rw [(perm_plan_sortedNames h).mem_iff, mem_sortedNames]

/-- **A plan is strictly ordered.** -/
theorem pairwise_plan (h : schema.plan = .ok plan) : plan.Pairwise PlannedType.Precedes := by
  obtain ⟨_, _, _, hordered⟩ := perm_plan h
  have hdistinct : plan.Pairwise fun a b => a.name ≠ b.name :=
    List.pairwise_map.1 (nodup_plan_names h)
  exact (hordered.and hdistinct).imp fun hab => PlannedType.precedes_of_before hab.1 hab.2

theorem position?_eq_some_iff (h : schema.plan = .ok plan) {name : String} {position : Nat} :
    plan.position? name = some position ↔
      ∃ entry, plan[position]? = some entry ∧ entry.name = name := by
  rw [Plan.position?]
  constructor
  · intro hposition
    obtain ⟨hlt, hentry, -⟩ := List.findIdx?_eq_some_iff_getElem.1 hposition
    exact ⟨plan[position], List.getElem?_eq_getElem hlt, by simpa using hentry⟩
  · rintro ⟨entry, hentry, rfl⟩
    obtain ⟨hlt, rfl⟩ := List.getElem?_eq_some_iff.1 hentry
    refine List.findIdx?_eq_some_iff_getElem.2 ⟨hlt, by simp, fun other hother => ?_⟩
    -- an earlier entry has another name
    have hpair := List.pairwise_iff_getElem.1 (List.pairwise_map.1 (nodup_plan_names h))
    simpa using hpair other position (by omega) hlt hother

theorem exists_position (h : schema.plan = .ok plan) {name : String} (hname : name ∈ schema.names) :
    ∃ position, plan.position? name = some position := by
  have hmem : name ∈ plan.names :=
    (perm_plan_sortedNames h).mem_iff.2 (mem_sortedNames.2 hname)
  obtain ⟨entry, hentry, rfl⟩ := List.mem_map.1 hmem
  obtain ⟨position, hposition⟩ := List.mem_iff_getElem?.1 hentry
  exact ⟨position, (position?_eq_some_iff h).2 ⟨entry, hposition, rfl⟩⟩

/-- **An embedded type stands after its owner.** -/
theorem position_lt (h : schema.plan = .ok plan) {owner inner : PlannedType} {position later : Nat}
    (howner : plan[position]? = some owner) (hinner : plan[later]? = some inner)
    (hembedded : inner.name ∈ schema.embeddedIn owner.name) : position < later := by
  have hlt := depth_lt_of_plan h (List.mem_of_getElem? howner) (List.mem_of_getElem? hinner)
    hembedded
  obtain ⟨hposition, rfl⟩ := List.getElem?_eq_some_iff.1 howner
  obtain ⟨hlater, rfl⟩ := List.getElem?_eq_some_iff.1 hinner
  by_contra hle
  rcases Nat.lt_or_eq_of_le (Nat.not_lt.1 hle) with hbefore | rfl
  · -- the entries before the owner are at least as deep
    have hprecedes := List.pairwise_iff_getElem.1 (pairwise_plan h) later position hlater hposition
      hbefore
    simp only [PlannedType.Precedes] at hprecedes
    omega
  · exact Nat.lt_irrefl _ hlt

/-- **A schema has a plan exactly if no type embeds itself**, directly or through others. -/
theorem exists_plan_iff : (∃ plan, schema.plan = .ok plan) ↔ schema.Acyclic := by
  rw [← exists_depths_iff]
  constructor
  · rintro ⟨plan, h⟩
    obtain ⟨depths, hdepths, -⟩ := perm_plan h
    exact ⟨depths, hdepths⟩
  · rintro ⟨depths, h⟩
    exact ⟨_, bind_eq_ok_iff.2 ⟨depths, h, rfl⟩⟩

/-- A schema without a plan shows a circle. -/
theorem genuine_of_plan {cycle : EmbeddingCycle} (h : schema.plan = .error cycle) :
    cycle.Genuine schema := by
  rcases bind_eq_error_iff.1 h with hdepths | ⟨_, _, hok⟩
  · exact genuine_of_depths hdepths
  · cases hok

end Schema

end ScenePack
