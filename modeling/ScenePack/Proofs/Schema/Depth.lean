/-
**Embedded types are shallower.**

`Schema.depths` searches along embeddings and gives every type one more than the deepest type that
it embeds.  Whoever follows embeddings therefore stops: the depth of an embedded type is below the
depth of its owner.

Main definitions:

* `Schema.Settled` — known depths in which every embedded type is known and shallower;
* `Depths.Extends` — later depths that agree with earlier ones.

Main results:

* `Schema.visited_of_visit` — **what one search keeps and adds**;
* `Schema.depth_lt_of_mem_embeddedIn` — an embedded type is shallower than its owner;
* `Schema.depth_lt_of_plan` — the same for the entries of a plan.
-/

import Mathlib.Data.List.Nodup
import ScenePack.Proofs.Schema.Names
import ScenePack.Schema.Plan

set_option relaxedAutoImplicit false
set_option autoImplicit false

namespace ScenePack

/-- Later depths that agree with earlier ones. -/
def Depths.Extends (before after : Depths) : Prop :=
  ∀ name depth, before.lookup name = some depth → after.lookup name = some depth

theorem Depths.Extends.refl (known : Depths) : known.Extends known := fun _ _ h => h

theorem Depths.Extends.trans {first second third : Depths} (h : first.Extends second)
    (h' : second.Extends third) : first.Extends third :=
  fun name depth hname => h' name depth (h name depth hname)

/-- A new name extends the depths of a list that does not have it. -/
theorem Depths.extends_cons {known : Depths} {name : String} (depth : Nat)
    (h : known.lookup name = none) : known.Extends ((name, depth) :: known) := by
  intro other found hother
  have hne : other ≠ name := by
    rintro rfl
    rw [h] at hother
    cases hother
  rw [List.lookup_cons, beq_false_of_ne hne]
  exact hother

namespace Schema

/-! ### Depths from depths -/

theorem le_foldl_depth (known : Depths) (embedded : List String) (start : Nat) :
    start ≤ embedded.foldl (fun depth name => max depth ((known.lookup name).getD 0 + 1)) start ∧
      ∀ child ∈ embedded, (known.lookup child).getD 0 <
        embedded.foldl (fun depth name => max depth ((known.lookup name).getD 0 + 1)) start := by
  induction embedded generalizing start with
  | nil => exact ⟨Nat.le_refl _, fun _ h => absurd h List.not_mem_nil⟩
  | cons child rest ih =>
      obtain ⟨hstart, hrest⟩ := ih (max start ((known.lookup child).getD 0 + 1))
      rw [List.foldl_cons]
      refine ⟨by omega, ?_⟩
      intro other hother
      rcases List.mem_cons.1 hother with rfl | hother
      · omega
      · exact hrest other hother

/-- The depth over embedded types is greater than the depth of each of them. -/
theorem lt_depthOver {known : Depths} {embedded : List String} {child : String} {below : Nat}
    (hmem : child ∈ embedded) (hchild : known.lookup child = some below) :
    below < depthOver known embedded := by
  have := (le_foldl_depth known embedded 0).2 child hmem
  rwa [hchild] at this

/-! ### The search -/

/-- Every defined type that a known type embeds is known, and shallower. -/
def Settled (schema : Schema) (known : Depths) : Prop :=
  ∀ name depth, known.lookup name = some depth → ∀ child ∈ schema.embeddedIn name,
    child ∈ schema.names → ∃ below, known.lookup child = some below ∧ below < depth

/-- What a search from `name` makes of the known depths: it keeps them, it settles its own, it
gives no depth to the names on its path, and it finds the depth of a defined name. -/
structure Visited (schema : Schema) (path : List String) (name : String)
    (before after : Depths) : Prop where
  keeps : before.Extends after
  settled : schema.Settled after
  path : ∀ other ∈ path, after.lookup other = none
  finds : name ∈ schema.names → ∃ depth, after.lookup name = some depth

/-- **What one search keeps and adds.**  The names that are defined and not on the path must be in
the room of the search. -/
theorem visited_of_visit {schema : Schema} {room path : List String} {before after : Depths}
    {name : String} (h : schema.visit room path before name = .ok after)
    (hroom : ∀ other ∈ schema.names, other ∉ path → other ∈ room)
    (hsettled : schema.Settled before) (hpath : ∀ other ∈ path, before.lookup other = none) :
    Visited schema path name before after := by
  -- the search takes a name out of the room before it goes on to the embedded types
  induction room, path, before, name using Schema.visit.induct generalizing after with
  | case1 room path before name hknown =>
      rw [visit, if_pos hknown] at h
      cases h
      exact ⟨.refl _, hsettled, hpath, fun _ => Option.isSome_iff_exists.1 hknown⟩
  | case2 room path before name hknown hcircle =>
      rw [visit, if_neg hknown, if_pos hcircle] at h
      cases h
  | case3 room path before name hknown hcircle hin ih =>
      rw [visit, if_neg hknown, if_neg hcircle, dif_pos hin] at h
      obtain ⟨found, hfold, hafter⟩ := bind_eq_ok_iff.1 h
      cases hafter
      have hname : before.lookup name = none := Option.not_isSome_iff_eq_none.1 hknown
      have hroom' : ∀ other ∈ schema.names, other ∉ path ++ [name] → other ∈ room.erase name := by
        intro other hdefined hother
        rw [List.mem_append, List.mem_singleton, not_or] at hother
        exact (List.mem_erase_of_ne hother.2).2 (hroom other hdefined hother.1)
      have hpath' : ∀ other ∈ path ++ [name], before.lookup other = none := by
        intro other hother
        rcases List.mem_append.1 hother with hother | hother
        · exact hpath other hother
        · rw [List.mem_singleton.1 hother, hname]
      -- the embedded types are searched one after the other
      have hall : before.Extends found ∧ schema.Settled found ∧
          (∀ other ∈ path ++ [name], found.lookup other = none) ∧
          ∀ child ∈ schema.embeddedIn name, child ∈ schema.names →
            ∃ depth, found.lookup child = some depth := by
        refine foldlM_induction
          (fun taken known => before.Extends known ∧ schema.Settled known ∧
            (∀ other ∈ path ++ [name], known.lookup other = none) ∧
            ∀ child ∈ taken, child ∈ schema.names → ∃ depth, known.lookup child = some depth)
          ⟨.refl _, hsettled, hpath', fun _ h => absurd h List.not_mem_nil⟩ ?_ hfold
        rintro taken child known next - ⟨hkeeps, hsettles, hfree, hfinds⟩ hstep
        have hvisited := ih known child hstep hroom' hsettles hfree
        refine ⟨hkeeps.trans hvisited.keeps, hvisited.settled, hvisited.path, ?_⟩
        intro other hother hdefined
        rcases List.mem_append.1 hother with hother | hother
        · obtain ⟨depth, hdepth⟩ := hfinds other hother hdefined
          exact ⟨depth, hvisited.keeps other depth hdepth⟩
        · obtain rfl := List.mem_singleton.1 hother
          exact hvisited.finds hdefined
      obtain ⟨hkeeps, hsettles, hfree, hfinds⟩ := hall
      have hnew : found.lookup name = none := hfree name (by simp)
      have hext := Depths.extends_cons (depthOver found (schema.embeddedIn name)) hnew
      refine ⟨hkeeps.trans hext, ?_, ?_, fun _ => ⟨_, List.lookup_cons_self⟩⟩
      · intro other depth hother child hchild hdefined
        by_cases hne : other = name
        · subst hne
          rw [List.lookup_cons_self] at hother
          cases hother
          obtain ⟨below, hbelow⟩ := hfinds child hchild hdefined
          exact ⟨below, hext child below hbelow, lt_depthOver hchild hbelow⟩
        · rw [List.lookup_cons, beq_false_of_ne hne] at hother
          obtain ⟨below, hbelow, hlt⟩ := hsettles other depth hother child hchild hdefined
          exact ⟨below, hext child below hbelow, hlt⟩
      · intro other hother
        have hne : other ≠ name := by
          rintro rfl
          exact hcircle (List.contains_iff_mem.2 hother)
        rw [List.lookup_cons, beq_false_of_ne hne]
        exact hfree other (List.mem_append_left _ hother)
  | case4 room path before name hknown hcircle hout =>
      rw [visit, if_neg hknown, if_neg hcircle, dif_neg hout] at h
      cases h
      refine ⟨.refl _, hsettled, hpath, fun hdefined => absurd (hroom name hdefined ?_) hout⟩
      exact fun hmem => hcircle (List.contains_iff_mem.2 hmem)

/-! ### The depths of a schema -/

@[simp] theorem mem_sortedNames {schema : Schema} {name : String} :
    name ∈ schema.sortedNames ↔ name ∈ schema.names := by
  simp [sortedNames]

theorem exists_settled_of_depths {schema : Schema} {depths : Depths}
    (h : schema.depths = .ok depths) :
    ∃ known, schema.Settled known ∧ ∀ name depth, (name, depth) ∈ depths ↔
      name ∈ schema.names ∧ known.lookup name = some depth := by
  obtain ⟨known, hfold, hdepths⟩ := bind_eq_ok_iff.1 h
  cases hdepths
  refine ⟨known, ?_, ?_⟩
  · refine foldlM_induction (fun _ known => schema.Settled known) ?_ ?_ hfold
    · intro name depth hname
      cases hname
    · intro _ name known next _ hknown hstep
      exact (visited_of_visit hstep (fun other hother _ => mem_sortedNames.2 hother) hknown
        (fun _ h => absurd h List.not_mem_nil)).settled
  · intro name depth
    rw [List.mem_filterMap]
    constructor
    · rintro ⟨other, hother, hmap⟩
      obtain ⟨found, hfound, hpair⟩ := Option.map_eq_some_iff.1 hmap
      cases hpair
      exact ⟨mem_sortedNames.1 hother, hfound⟩
    · rintro ⟨hname, hdepth⟩
      exact ⟨name, mem_sortedNames.2 hname, by rw [hdepth]; rfl⟩

theorem depth_lt_of_mem_embeddedIn {schema : Schema} {depths : Depths}
    (h : schema.depths = .ok depths) {name child : String} {depth below : Nat}
    (hname : (name, depth) ∈ depths) (hchild : (child, below) ∈ depths)
    (hembedded : child ∈ schema.embeddedIn name) : below < depth := by
  obtain ⟨known, hsettled, hmem⟩ := exists_settled_of_depths h
  obtain ⟨hdefined, hbelow⟩ := (hmem child below).1 hchild
  obtain ⟨found, hfound, hlt⟩ :=
    hsettled name depth ((hmem name depth).1 hname).2 child hembedded hdefined
  rw [hbelow] at hfound
  cases hfound
  exact hlt

/-- The entries of a plan are the types with their depths. -/
theorem mem_plan_iff {schema : Schema} {plan : Plan} (h : schema.plan = .ok plan) :
    ∃ depths, schema.depths = .ok depths ∧
      ∀ entry : PlannedType, entry ∈ plan ↔ (entry.name, entry.depth) ∈ depths := by
  obtain ⟨depths, hdepths, hplan⟩ := bind_eq_ok_iff.1 h
  cases hplan
  refine ⟨depths, hdepths, ?_⟩
  intro entry
  rw [List.mem_mergeSort, List.mem_map]
  constructor
  · rintro ⟨pair, hpair, rfl⟩
    exact hpair
  · intro hentry
    exact ⟨_, hentry, rfl⟩

theorem depth_lt_of_plan {schema : Schema} {plan : Plan} (h : schema.plan = .ok plan)
    {owner inner : PlannedType} (howner : owner ∈ plan) (hinner : inner ∈ plan)
    (hembedded : inner.name ∈ schema.embeddedIn owner.name) : inner.depth < owner.depth := by
  obtain ⟨depths, hdepths, hmem⟩ := mem_plan_iff h
  exact depth_lt_of_mem_embeddedIn hdepths ((hmem owner).1 howner) ((hmem inner).1 hinner) hembedded

/-! ### Distinct names -/

/-- With distinct names, the last type of a name is the first. -/
theorem embeddedIn_eq {schema : Schema} (h : schema.names.Nodup) {name : String}
    {type : ComponentType} (htype : schema.type? name = some type) :
    schema.embeddedIn name = type.embedded := by
  have hmem := List.mem_of_find?_eq_some htype
  have hname : type.name = name := by simpa using List.find?_some htype
  cases hlast : schema.reverse.find? (fun other => other.name = name) with
  | none =>
      have := List.find?_eq_none.1 hlast type (List.mem_reverse.2 hmem)
      simp [hname] at this
  | some last =>
      have hlastmem : last ∈ schema := List.mem_reverse.1 (List.mem_of_find?_eq_some hlast)
      have hlastname : last.name = name := by simpa using List.find?_some hlast
      have heq : last = type :=
        List.inj_on_of_nodup_map h hlastmem hmem (hlastname.trans hname.symm)
      rw [embeddedIn, hlast, heq]

end Schema

end ScenePack
