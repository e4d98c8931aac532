/-
**Depths are longest embedding paths.**

A schema is a graph of embeddings: a type leads to the types of its component fields, by the last
definition of its name, and a name without a definition leads nowhere.  `Schema.depths` finds the
length of the longest path from every defined type.  It fails exactly if some type embeds itself
through others, and then it shows a circle of the graph.

Main definitions:

* `Schema.Embeds`, `Schema.IsPath` — the edges and the paths of the graph of embeddings;
* `Schema.Longest` — the length of the longest path from a name;
* `Schema.Acyclic` — no name leads back to itself;
* `EmbeddingCycle.Genuine` — a circle of the graph, written from the name where it is entered;
* `Schema.Ongoing` — what a search has found and has still before it.

Main results:

* `Schema.longest_depthOver` — one more than the longest path from any embedded type;
* `Schema.Ongoing.visit` — **what one search adds are longest paths**;
* `Schema.genuine_of_visit` — **a search that fails has met a circle**;
* `Schema.mem_depths_iff`, `Schema.exists_depths_iff` — the depths of a schema, and when it has
  them;
* `Schema.depths_withoutRefs` — references have no influence on depths.
-/

import Mathlib.Data.List.Chain
import Mathlib.Data.List.Nodup
import Mathlib.Logic.Relation
import ScenePack.Proofs.Schema.Depth

set_option relaxedAutoImplicit false
set_option autoImplicit false

namespace ScenePack

/-- The type without its references. -/
def ComponentType.withoutRefs (type : ComponentType) : ComponentType :=
  { type with
    fields := type.fields.filter fun field =>
      match field.kind with
      | .ref _ => false
      | _ => true }

namespace Schema

/-! ### The graph of embeddings -/

/-- The last definition of `owner` has a component field of type `inner`. -/
def Embeds (schema : Schema) (owner inner : String) : Prop :=
  ∃ front type back, schema = front ++ type :: back ∧ type.name = owner ∧
    (∀ later ∈ back, later.name ≠ owner) ∧ ∃ field ∈ type.fields, field.kind = .component inner

theorem mem_embedded_iff {type : ComponentType} {inner : String} :
    inner ∈ type.embedded ↔ ∃ field ∈ type.fields, field.kind = .component inner := by
  rw [ComponentType.embedded, List.mem_filterMap]
  refine exists_congr fun field => and_congr_right fun _ => ?_
  cases field.kind <;> simp

theorem mem_embeddedIn_iff {schema : Schema} {owner inner : String} :
    inner ∈ schema.embeddedIn owner ↔ schema.Embeds owner inner := by
  rw [embeddedIn]
  constructor
  · intro h
    split at h
    · next type hfind =>
        obtain ⟨hname, back, front, hschema, hback⟩ := List.find?_eq_some_iff_append.1 hfind
        refine ⟨front.reverse, type, back.reverse, ?_, by simpa using hname, ?_,
          mem_embedded_iff.1 h⟩
        · rw [← List.reverse_reverse schema, hschema]
          simp
        · intro later hlater
          simpa using hback later (List.mem_reverse.1 hlater)
    · cases h
  · rintro ⟨front, type, back, rfl, hname, hback, hfield⟩
    have hfind : (front ++ type :: back).reverse.find? (fun type => type.name = owner) =
        some type := by
      refine List.find?_eq_some_iff_append.2 ⟨by simpa using hname, back.reverse, front.reverse,
        by simp, ?_⟩
      intro later hlater
      simpa using hback later (List.mem_reverse.1 hlater)
    rw [hfind]
    exact mem_embedded_iff.2 hfield

theorem embeddedIn_of_notMem {schema : Schema} {name : String} (h : name ∉ schema.names) :
    schema.embeddedIn name = [] := by
  refine List.eq_nil_iff_forall_not_mem.2 fun inner hinner => h ?_
  obtain ⟨front, type, back, rfl, rfl, -⟩ := mem_embeddedIn_iff.1 hinner
  simp [names]

/-- Names of which each embeds the next. -/
def IsPath (schema : Schema) (path : List String) : Prop := path.IsChain schema.Embeds

/-- The longest path from `name` goes along `depth` embeddings. -/
def Longest (schema : Schema) (name : String) (depth : Nat) : Prop :=
  (∃ path, schema.IsPath (name :: path) ∧ path.length = depth) ∧
    ∀ path, schema.IsPath (name :: path) → path.length ≤ depth

/-- No name leads back to itself. -/
def Acyclic (schema : Schema) : Prop := ∀ name, ¬Relation.TransGen schema.Embeds name name

theorem Longest.eq {schema : Schema} {name : String} {depth other : Nat}
    (h : schema.Longest name depth) (h' : schema.Longest name other) : depth = other := by
  obtain ⟨⟨path, hpath, rfl⟩, hmost⟩ := h
  obtain ⟨⟨path', hpath', rfl⟩, hmost'⟩ := h'
  exact Nat.le_antisymm (hmost' path hpath) (hmost path' hpath')

theorem Longest.lt {schema : Schema} {owner inner : String} {depth below : Nat}
    (h : schema.Longest owner depth) (h' : schema.Longest inner below)
    (hembeds : schema.Embeds owner inner) : below < depth := by
  obtain ⟨⟨path, hpath, rfl⟩, -⟩ := h'
  exact h.2 (inner :: path) (List.IsChain.cons_cons hembeds hpath)

/-! ### Depths from depths -/

/-- The fold behind `depthOver` stays at its start, or one of the embedded types decides. -/
theorem foldl_depth_cases (known : Depths) (embedded : List String) (start : Nat) :
    embedded.foldl (fun depth name => max depth ((known.lookup name).getD 0 + 1)) start = start ∨
      ∃ child ∈ embedded,
        embedded.foldl (fun depth name => max depth ((known.lookup name).getD 0 + 1)) start =
          (known.lookup child).getD 0 + 1 := by
  induction embedded generalizing start with
  | nil => exact Or.inl rfl
  | cons child rest ih =>
      rw [List.foldl_cons]
      rcases ih (max start ((known.lookup child).getD 0 + 1)) with h | ⟨other, hother, h⟩
      · rcases Nat.le_total start ((known.lookup child).getD 0 + 1) with hle | hle
        · exact Or.inr ⟨child, List.mem_cons_self, by rw [h, Nat.max_eq_right hle]⟩
        · exact Or.inl (by rw [h, Nat.max_eq_left hle])
      · exact Or.inr ⟨other, List.mem_cons_of_mem _ hother, h⟩

/-- **One more than the longest path from any embedded type** is the longest path from the owner,
and zero if nothing is embedded. -/
theorem longest_depthOver {schema : Schema} {known : Depths} {name : String}
    (h : ∀ child ∈ schema.embeddedIn name,
      schema.Longest child ((known.lookup child).getD 0)) :
    schema.Longest name (depthOver known (schema.embeddedIn name)) := by
  constructor
  · rcases foldl_depth_cases known (schema.embeddedIn name) 0 with hzero | ⟨child, hchild, hdepth⟩
    · exact ⟨[], List.isChain_singleton name, hzero.symm⟩
    · obtain ⟨⟨path, hpath, hlength⟩, -⟩ := h child hchild
      refine ⟨child :: path, List.IsChain.cons_cons (mem_embeddedIn_iff.1 hchild) hpath, ?_⟩
      rw [List.length_cons, hlength]
      exact hdepth.symm
  · intro path hpath
    cases path with
    | nil => exact Nat.zero_le _
    | cons child rest =>
        obtain ⟨hembeds, hrest⟩ := List.isChain_cons_cons.1 hpath
        have hchild := mem_embeddedIn_iff.2 hembeds
        have hmost := (h child hchild).2 rest hrest
        have hlt := (le_foldl_depth known (schema.embeddedIn name) 0).2 child hchild
        rw [List.length_cons]
        exact Nat.lt_of_le_of_lt hmost hlt

/-! ### What a search adds -/

/-- Known depths are longest paths of defined names. -/
def Measured (schema : Schema) (known : Depths) : Prop :=
  ∀ name depth, known.lookup name = some depth →
    name ∈ schema.names ∧ schema.Longest name depth

/-- A name whose depth is known if it is defined has the depth that the search takes for it. -/
theorem Measured.longest {schema : Schema} {known : Depths} (h : schema.Measured known)
    {name : String} (hname : name ∈ schema.names → ∃ depth, known.lookup name = some depth) :
    schema.Longest name ((known.lookup name).getD 0) := by
  by_cases hdefined : name ∈ schema.names
  · obtain ⟨depth, hdepth⟩ := hname hdefined
    rw [hdepth]
    exact (h name depth hdepth).2
  · have hnone : known.lookup name = none :=
      Option.eq_none_iff_forall_ne_some.2 fun depth hdepth => hdefined (h name depth hdepth).1
    rw [hnone]
    have hleaf := @longest_depthOver schema known name
    rw [embeddedIn_of_notMem hdefined] at hleaf
    exact hleaf fun _ h => absurd h List.not_mem_nil

/-- A search on its way: the room holds the defined names off the path, no name on the path has a
depth, and the depths that are known are settled longest paths. -/
structure Ongoing (schema : Schema) (room path : List String) (known : Depths) : Prop where
  defined : ∀ name ∈ room, name ∈ schema.names
  room : ∀ name ∈ schema.names, name ∉ path → name ∈ room
  path : ∀ name ∈ path, known.lookup name = none
  settled : schema.Settled known
  measured : schema.Measured known

namespace Ongoing

variable {schema : Schema} {room path : List String} {known after : Depths} {name : String}

/-- A search that goes on from a new name has it on its path. -/
theorem descend (h : schema.Ongoing room path known) (hname : known.lookup name = none) :
    schema.Ongoing (room.erase name) (path ++ [name]) known := by
  refine ⟨fun other hother => h.defined other (List.mem_of_mem_erase hother), ?_, ?_, h.settled,
    h.measured⟩
  · intro other hdefined hother
    rw [List.mem_append, List.mem_singleton, not_or] at hother
    exact (List.mem_erase_of_ne hother.2).2 (h.room other hdefined hother.1)
  · intro other hother
    rcases List.mem_append.1 hother with hother | hother
    · exact h.path other hother
    · rw [List.mem_singleton.1 hother, hname]

theorem visited (h : schema.Ongoing room path known)
    (hvisit : schema.visit room path known name = .ok after) :
    Visited schema path name known after :=
  visited_of_visit hvisit h.room h.settled h.path

/-- **What one search adds are longest paths.** -/
theorem visit (h : schema.Ongoing room path known)
    (hvisit : schema.visit room path known name = .ok after) :
    schema.Ongoing room path after := by
  have hvisited := h.visited hvisit
  refine ⟨h.defined, h.room, hvisited.path, hvisited.settled, ?_⟩
  -- the search takes a name out of the room before it goes on to the embedded types
  induction room, path, known, name using Schema.visit.induct generalizing after with
  | case1 room path known name hknown =>
      rw [Schema.visit, if_pos hknown] at hvisit
      cases hvisit
      exact h.measured
  | case2 room path known name hknown hcircle =>
      rw [Schema.visit, if_neg hknown, if_pos hcircle] at hvisit
      cases hvisit
  | case3 room path known name hknown hcircle hin ih =>
      rw [Schema.visit, if_neg hknown, if_neg hcircle, dif_pos hin] at hvisit
      obtain ⟨found, hfold, hafter⟩ := bind_eq_ok_iff.1 hvisit
      cases hafter
      have hfound : schema.Ongoing (room.erase name) (path ++ [name]) found := by
        refine foldlM_induction
          (fun _ known => schema.Ongoing (room.erase name) (path ++ [name]) known)
          (h.descend (Option.not_isSome_iff_eq_none.1 hknown)) ?_ hfold
        rintro _ child state next - hstate hstep
        have hnext := hstate.visited hstep
        exact ⟨hstate.defined, hstate.room, hnext.path, hnext.settled,
          ih state child hstate hstep hnext⟩
      intro other depth hother
      by_cases hne : other = name
      · subst hne
        rw [List.lookup_cons_self] at hother
        cases hother
        refine ⟨h.defined other hin, longest_depthOver fun child hchild => ?_⟩
        refine hfound.measured.longest fun hdefined => ?_
        -- the embedded types are settled, and none of them is the owner
        obtain ⟨below, hbelow, hlt⟩ :=
          hvisited.settled other _ List.lookup_cons_self child hchild hdefined
        have hchildne : child ≠ other := by
          rintro rfl
          rw [List.lookup_cons_self] at hbelow
          cases hbelow
          exact Nat.lt_irrefl _ hlt
        rw [List.lookup_cons, beq_false_of_ne hchildne] at hbelow
        exact ⟨below, hbelow⟩
      · rw [List.lookup_cons, beq_false_of_ne hne] at hother
        exact hfound.measured other depth hother
  | case4 room path known name hknown hcircle hout =>
      rw [Schema.visit, if_neg hknown, if_neg hcircle, dif_neg hout] at hvisit
      cases hvisit
      exact h.measured

end Ongoing

end Schema

/-! ### Circles -/

/-- Distinct names of which each embeds the next and the last one the first, which is the entry. -/
structure EmbeddingCycle.Genuine (schema : Schema) (cycle : EmbeddingCycle) : Prop where
  distinct : cycle.members.Nodup
  first : cycle.members.head? = some cycle.entry
  closed : schema.IsPath (cycle.members ++ [cycle.entry])

namespace Schema

variable {schema : Schema}

/-- **A search that fails has met a circle.** -/
theorem genuine_of_visit {room path : List String} {known : Depths} {name : String}
    {cycle : EmbeddingCycle} (h : schema.visit room path known name = .error cycle)
    (hdistinct : path.Nodup) (hpath : schema.IsPath (path ++ [name])) :
    cycle.Genuine schema := by
  induction room, path, known, name using Schema.visit.induct with
  | case1 room path known name hknown =>
      rw [visit, if_pos hknown] at h
      cases h
  | case2 room path known name hknown hcircle =>
      rw [visit, if_neg hknown, if_pos hcircle] at h
      cases h
      obtain ⟨front, back, rfl, hfront⟩ :=
        List.eq_append_cons_of_mem (List.contains_iff_mem.1 hcircle)
      have hdrop : (front ++ name :: back).dropWhile (· ≠ name) = name :: back := by
        rw [List.dropWhile_append_of_pos]
        · simp
        · intro other hother
          simpa using fun heq : other = name => hfront (heq ▸ hother)
      rw [hdrop]
      refine ⟨(List.nodup_append.1 hdistinct).2.1, rfl, hpath.suffix ⟨front, ?_⟩⟩
      simp
  | case3 room path known name hknown hcircle hin ih =>
      rw [visit, if_neg hknown, if_neg hcircle, dif_pos hin] at h
      rcases bind_eq_error_iff.1 h with hfold | ⟨_, _, hok⟩
      · obtain ⟨child, hchild, state, hstep⟩ := exists_of_foldlM_eq_error hfold
        refine ih state child hstep ?_ ?_
        · rw [List.nodup_append]
          refine ⟨hdistinct, List.nodup_singleton _, ?_⟩
          rintro other hother _ hsame rfl
          obtain rfl := List.mem_singleton.1 hsame
          exact hcircle (List.contains_iff_mem.2 hother)
        · rw [List.append_assoc]
          exact List.isChain_split.2 ⟨hpath,
            List.isChain_pair.2 (mem_embeddedIn_iff.1 hchild)⟩
      · cases hok
  | case4 room path known name hknown hcircle hout =>
      rw [visit, if_neg hknown, if_neg hcircle, dif_neg hout] at h
      cases h

/-- A circle leads from its entry back to it. -/
theorem transGen_of_genuine {cycle : EmbeddingCycle} (h : cycle.Genuine schema) :
    Relation.TransGen schema.Embeds cycle.entry cycle.entry := by
  obtain ⟨rest, hmembers⟩ : ∃ rest, cycle.members = cycle.entry :: rest :=
    ⟨_, (List.cons_head?_tail h.first).symm⟩
  have hclosed := h.closed
  rw [hmembers, IsPath, List.cons_append] at hclosed
  obtain ⟨first, tail, htail⟩ : ∃ first tail, rest ++ [cycle.entry] = first :: tail :=
    List.exists_cons_of_ne_nil (by simp)
  rw [htail] at hclosed
  obtain ⟨hfirst, hpath⟩ := List.isChain_cons_cons.1 hclosed
  refine Relation.TransGen.head' hfirst
    (List.relationReflTransGen_of_exists_isChain_cons tail hpath ?_)
  simp [← htail]

/-! ### The depths of a schema -/

theorem nodup_sortedNames (schema : Schema) : schema.sortedNames.Nodup :=
  (List.mergeSort_perm _ _).nodup_iff.2 (nodup_eraseDups _)

/-- The search has all defined names before it at first. -/
theorem ongoing_start (schema : Schema) : schema.Ongoing schema.sortedNames [] [] where
  defined := fun _ h => mem_sortedNames.1 h
  room := fun _ h _ => mem_sortedNames.2 h
  path := fun _ h => absurd h List.not_mem_nil
  settled := fun _ _ h => nomatch h
  measured := fun _ _ h => nomatch h

/-- The searches from all names find the longest path of each. -/
theorem ongoing_of_foldlM {known : Depths} (h : schema.sortedNames.foldlM
      (fun known name => schema.visit schema.sortedNames [] known name) [] = .ok known) :
    schema.Ongoing schema.sortedNames [] known ∧
      ∀ name ∈ schema.names, ∃ depth, known.lookup name = some depth := by
  have hall : schema.Ongoing schema.sortedNames [] known ∧
      ∀ name ∈ schema.sortedNames, ∃ depth, known.lookup name = some depth := by
    refine foldlM_induction (fun taken known => schema.Ongoing schema.sortedNames [] known ∧
      ∀ name ∈ taken, ∃ depth, known.lookup name = some depth)
      ⟨ongoing_start schema, fun _ h => absurd h List.not_mem_nil⟩ ?_ h
    rintro taken name known next hname ⟨hongoing, hfinds⟩ hstep
    have hvisited := hongoing.visited hstep
    refine ⟨hongoing.visit hstep, fun other hother => ?_⟩
    rcases List.mem_append.1 hother with hother | hother
    · obtain ⟨depth, hdepth⟩ := hfinds other hother
      exact ⟨depth, hvisited.keeps other depth hdepth⟩
    · obtain rfl := List.mem_singleton.1 hother
      exact hvisited.finds (mem_sortedNames.1 hname)
  exact ⟨hall.1, fun name hname => hall.2 name (mem_sortedNames.2 hname)⟩

/-- **The depths of a schema** are the lengths of the longest paths from its names. -/
theorem mem_depths_iff {depths : Depths} (h : schema.depths = .ok depths) {name : String}
    {depth : Nat} :
    (name, depth) ∈ depths ↔ name ∈ schema.names ∧ schema.Longest name depth := by
  obtain ⟨known, hfold, hdepths⟩ := bind_eq_ok_iff.1 h
  cases hdepths
  obtain ⟨hongoing, hfinds⟩ := ongoing_of_foldlM hfold
  rw [List.mem_filterMap]
  constructor
  · rintro ⟨other, -, hmap⟩
    obtain ⟨found, hfound, hpair⟩ := Option.map_eq_some_iff.1 hmap
    cases hpair
    exact hongoing.measured name depth hfound
  · rintro ⟨hname, hlongest⟩
    obtain ⟨found, hfound⟩ := hfinds name hname
    have heq := (hongoing.measured name found hfound).2.eq hlongest
    exact ⟨name, mem_sortedNames.2 hname, by rw [hfound, heq]; rfl⟩

theorem map_fst_depths {depths : Depths} (h : schema.depths = .ok depths) :
    depths.map Prod.fst = schema.sortedNames := by
  obtain ⟨known, hfold, hdepths⟩ := bind_eq_ok_iff.1 h
  cases hdepths
  obtain ⟨-, hfinds⟩ := ongoing_of_foldlM hfold
  rw [List.map_filterMap]
  refine filterMap_eq_of_forall₂ ?_
  refine List.forall₂_same.2 fun name hname => ?_
  obtain ⟨depth, hdepth⟩ := hfinds name (mem_sortedNames.1 hname)
  rw [hdepth]
  rfl

/-- In a schema that has depths, every name has a longest path. -/
theorem exists_longest {depths : Depths} (h : schema.depths = .ok depths) (name : String) :
    ∃ depth, schema.Longest name depth := by
  obtain ⟨known, hfold, -⟩ := bind_eq_ok_iff.1 h
  obtain ⟨hongoing, hfinds⟩ := ongoing_of_foldlM hfold
  exact ⟨_, hongoing.measured.longest (hfinds name)⟩

/-- A failed search shows a circle. -/
theorem genuine_of_depths {cycle : EmbeddingCycle} (h : schema.depths = .error cycle) :
    cycle.Genuine schema := by
  rcases bind_eq_error_iff.1 h with hfold | ⟨_, _, hok⟩
  · obtain ⟨name, -, state, hstep⟩ := exists_of_foldlM_eq_error hfold
    exact genuine_of_visit hstep List.nodup_nil (List.isChain_singleton name)
  · cases hok

/-- The search depends on what is embedded alone. -/
theorem visit_congr {other : Schema} (h : ∀ name, other.embeddedIn name = schema.embeddedIn name)
    (room path : List String) (known : Depths) (name : String) :
    other.visit room path known name = schema.visit room path known name := by
  induction room, path, known, name using Schema.visit.induct with
  | case1 room path known name hknown => rw [visit, visit, if_pos hknown, if_pos hknown]
  | case2 room path known name hknown hcircle =>
      rw [visit, visit, if_neg hknown, if_neg hknown, if_pos hcircle, if_pos hcircle]
  | case3 room path known name hknown hcircle hin ih =>
      have hstep : (fun known child =>
            other.visit (room.erase name) (path ++ [name]) known child) =
          fun known child => schema.visit (room.erase name) (path ++ [name]) known child :=
        funext fun known => funext fun child => ih known child
      rw [visit, visit, if_neg hknown, if_neg hknown, if_neg hcircle, if_neg hcircle, dif_pos hin,
        dif_pos hin, h name, hstep]
  | case4 room path known name hknown hcircle hout =>
      rw [visit, visit, if_neg hknown, if_neg hknown, if_neg hcircle, if_neg hcircle,
        dif_neg hout, dif_neg hout]

theorem depths_congr {other : Schema} (hnames : other.sortedNames = schema.sortedNames)
    (h : ∀ name, other.embeddedIn name = schema.embeddedIn name) :
    other.depths = schema.depths := by
  have hvisit : other.visit = schema.visit :=
    funext fun room => funext fun path => funext fun known => funext fun name =>
      visit_congr h room path known name
  rw [depths, depths, hnames, hvisit]

/-- A reference embeds nothing. -/
theorem embeddedIn_withoutRefs (schema : Schema) (name : String) :
    embeddedIn (schema.map ComponentType.withoutRefs) name = schema.embeddedIn name := by
  have hembedded : ∀ type : ComponentType, type.withoutRefs.embedded = type.embedded := by
    intro type
    rw [ComponentType.embedded, ComponentType.withoutRefs, List.filterMap_filter]
    refine List.filterMap_congr fun field _ => ?_
    cases field.kind <;> rfl
  have hname : ((fun type : ComponentType => decide (type.name = name)) ∘
      ComponentType.withoutRefs) = fun type => decide (type.name = name) := rfl
  rw [embeddedIn, embeddedIn, ← List.map_reverse, List.find?_map, hname]
  cases schema.reverse.find? fun type => type.name = name with
  | none => rfl
  | some type => exact hembedded type

/-- **References have no influence on depths.** -/
theorem depths_withoutRefs (schema : Schema) :
    depths (schema.map ComponentType.withoutRefs) = schema.depths := by
  have hnames : sortedNames (schema.map ComponentType.withoutRefs) = schema.sortedNames := by
    rw [sortedNames, sortedNames, names, names, List.map_map]
    rfl
  exact depths_congr hnames (embeddedIn_withoutRefs schema)

/-- **A schema has depths exactly if no type embeds itself**, directly or through others. -/
theorem exists_depths_iff : (∃ depths, schema.depths = .ok depths) ↔ schema.Acyclic := by
  constructor
  · rintro ⟨depths, h⟩
    -- paths get shorter along embeddings
    have hshorter : ∀ {owner inner}, Relation.TransGen schema.Embeds owner inner →
        ∀ depth below, schema.Longest owner depth → schema.Longest inner below →
          below < depth := by
      intro owner inner hleads
      induction hleads with
      | single hembeds => exact fun depth below howner hinner => howner.lt hinner hembeds
      | @tail middle inner _ hembeds ih =>
          intro depth below howner hinner
          obtain ⟨between, hmiddle⟩ := exists_longest h middle
          exact Nat.lt_trans (hmiddle.lt hinner hembeds) (ih depth between howner hmiddle)
    intro name hcircle
    obtain ⟨depth, hdepth⟩ := exists_longest h name
    exact Nat.lt_irrefl depth (hshorter hcircle depth depth hdepth hdepth)
  · intro hacyclic
    cases h : schema.depths with
    | ok depths => exact ⟨depths, rfl⟩
    | error cycle => exact absurd (transGen_of_genuine (genuine_of_depths h)) (hacyclic _)

end Schema

end ScenePack
