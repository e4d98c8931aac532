/-
**The search for depths as a loop.**

The depths of a schema can be found without recursion.  A stack holds the types on the path, each
with a cursor into the types that it embeds and the deepest of those that are done; every name that
has been met is marked, as visiting while it is on the stack and then as done with its depth.  Each
step looks at the innermost type alone.  This module writes the loop down step by step and shows
that it ends, with the outcome of `Schema.depths`.

Main definitions:

* `Mark`, `Frame`, `Traversal` — the marks, the stack and the names to start from;
* `Traversal.step` — one step of the loop;
* `Traversal.Ends` — the loop ends with an outcome;
* `Traversal.Tracks` — marks that stand for a path and known depths.

Main results:

* `Traversal.Ends.unique` — a loop has one outcome;
* `Traversal.run_child` — **a child of the innermost type** is done when the loop is back at that
  type, with the depth that the search finds;
* `Traversal.run_visit` — the loop does what the search does, from entering a type to leaving it;
* `Traversal.ends_start` — **the loop ends with the depths of the schema**, or with the circle.
-/

import Mathlib
import ScenePack.Proofs.Schema.Longest

set_option relaxedAutoImplicit false
set_option autoImplicit false

namespace ScenePack

/-! ### The loop -/

/-- What is known of a name: it is on the stack, or its depth has been found. -/
inductive Mark where
  | visiting
  | done (depth : Nat)
  deriving DecidableEq

/-- A type on the stack: the position of the next embedded type, and the greatest depth of those
that are done. -/
structure Frame where
  name : String
  next : Nat
  deepest : Option Nat
  deriving DecidableEq

namespace Frame

/-- A type none of whose embedded types has been looked at. -/
def enter (name : String) : Frame := ⟨name, 0, none⟩

/-- The next embedded type is taken up. -/
def advance (frame : Frame) : Frame := { frame with next := frame.next + 1 }

/-- An embedded type is done. -/
def absorb (frame : Frame) (depth : Nat) : Frame :=
  { frame with
    deepest := some (match frame.deepest with
      | none => depth
      | some deepest => max deepest depth) }

/-- The depth of a type whose embedded types are all done. -/
def depth (frame : Frame) : Nat :=
  match frame.deepest with
  | none => 0
  | some deepest => deepest + 1

@[simp] theorem name_enter (name : String) : (enter name).name = name := rfl

@[simp] theorem next_enter (name : String) : (enter name).next = 0 := rfl

@[simp] theorem depth_enter (name : String) : (enter name).depth = 0 := rfl

@[simp] theorem name_advance (frame : Frame) : frame.advance.name = frame.name := rfl

@[simp] theorem next_advance (frame : Frame) : frame.advance.next = frame.next + 1 := rfl

@[simp] theorem depth_advance (frame : Frame) : frame.advance.depth = frame.depth := rfl

@[simp] theorem name_absorb (frame : Frame) (depth : Nat) :
    (frame.absorb depth).name = frame.name := rfl

@[simp] theorem next_absorb (frame : Frame) (depth : Nat) :
    (frame.absorb depth).next = frame.next := rfl

@[simp] theorem depth_absorb (frame : Frame) (depth : Nat) :
    (frame.absorb depth).depth = max frame.depth (depth + 1) := by
  obtain ⟨name, next, deepest⟩ := frame
  cases deepest with
  | none => simp [absorb, Frame.depth]
  | some deepest => simp [absorb, Frame.depth]

end Frame

/-- The state of the loop: the names that it has still to start from, the stack with the innermost
type first, and the marks with the newest first. -/
structure Traversal where
  roots : List String
  stack : List Frame
  marks : List (String × Mark)

namespace Traversal

/-- The stack below a type that is done with a depth. -/
def resume (depth : Nat) : List Frame → List Frame
  | [] => []
  | parent :: below => parent.absorb depth :: below

/-- The names on a stack, from the outermost to the innermost. -/
def path (stack : List Frame) : List String := (stack.map Frame.name).reverse

/-- The circle that closes when `name` is met on the stack: the path from there on. -/
def circle (stack : List Frame) (name : String) : EmbeddingCycle :=
  ⟨name, (path stack).drop (((path stack).findIdx? (· = name)).getD 0)⟩

/-- One step of the loop.  There is none after the last name. -/
def step (schema : Schema) (state : Traversal) : Except EmbeddingCycle (Option Traversal) :=
  match state.stack with
  | frame :: below =>
      match (schema.embeddedIn frame.name)[frame.next]? with
      | some child =>
          match state.marks.lookup child with
          | some (.done depth) =>
              .ok (some { state with stack := frame.advance.absorb depth :: below })
          | some .visiting => .error (circle (frame.advance :: below) child)
          | none =>
              .ok (some { state with
                stack := Frame.enter child :: frame.advance :: below
                marks := (child, .visiting) :: state.marks })
      | none =>
          .ok (some { state with
            stack := resume frame.depth below
            marks := (frame.name, .done frame.depth) :: state.marks })
  | [] =>
      match state.roots with
      | root :: roots =>
          match state.marks.lookup root with
          | some _ => .ok (some { state with roots })
          | none => .ok (some ⟨roots, [Frame.enter root], (root, .visiting) :: state.marks⟩)
      | [] => .ok none

/-- The loop at its start. -/
def start (schema : Schema) : Traversal := ⟨schema.sortedNames, [], []⟩

/-- The depths of the defined names that are done. -/
def depths (schema : Schema) (state : Traversal) : Depths :=
  schema.sortedNames.filterMap fun name =>
    match state.marks.lookup name with
    | some (.done depth) => some (name, depth)
    | _ => none

/-- The loop ends with an outcome: with the depths once there is no step left, or with a circle. -/
inductive Ends (schema : Schema) : Traversal → Except EmbeddingCycle Depths → Prop
  | done {state : Traversal} : state.step schema = .ok none →
      Ends schema state (.ok (state.depths schema))
  | circle {state : Traversal} {cycle : EmbeddingCycle} : state.step schema = .error cycle →
      Ends schema state (.error cycle)
  | next {state after : Traversal} {outcome : Except EmbeddingCycle Depths} :
      state.step schema = .ok (some after) → Ends schema after outcome → Ends schema state outcome

/-- **A loop has one outcome.** -/
theorem Ends.unique {schema : Schema} {state : Traversal}
    {first second : Except EmbeddingCycle Depths} (h : Ends schema state first)
    (h' : Ends schema state second) : first = second := by
  induction h with
  | done hstep =>
      cases h' with
      | done _ => rfl
      | circle hstep' => simp [hstep] at hstep'
      | next hstep' _ => simp [hstep] at hstep'
  | circle hstep =>
      cases h' with
      | done hstep' => simp [hstep] at hstep'
      | circle hstep' => simpa [hstep] using hstep'
      | next hstep' _ => simp [hstep] at hstep'
  | next hstep _ ih =>
      cases h' with
      | done hstep' => simp [hstep] at hstep'
      | circle hstep' => simp [hstep] at hstep'
      | next hstep' hrest =>
          obtain rfl : _ = _ := by simpa [hstep] using hstep'
          exact ih hrest

/-- The loop gets from one state to another. -/
def Reaches (schema : Schema) : Traversal → Traversal → Prop :=
  Relation.ReflTransGen fun before after => before.step schema = .ok (some after)

/-- From a state the loop follows a search: it gets to where it should be `back` once the search has
found its depths, or to the circle that the search meets. -/
def Follows (schema : Schema) (state : Traversal) (back : Depths → Traversal → Prop) :
    Except EmbeddingCycle Depths → Prop
  | .ok found => ∃ last, Reaches schema state last ∧ back found last
  | .error cycle => ∃ last, Reaches schema state last ∧ last.step schema = .error cycle

variable {schema : Schema}

theorem Ends.of_reaches {state after : Traversal} {outcome : Except EmbeddingCycle Depths}
    (hreaches : Reaches schema state after) (h : Ends schema after outcome) :
    Ends schema state outcome := by
  induction hreaches using Relation.ReflTransGen.head_induction_on with
  | refl => exact h
  | head hstep _ ih => exact .next hstep ih

namespace Follows

variable {state after : Traversal} {back back' : Depths → Traversal → Prop}
  {search : Except EmbeddingCycle Depths}

theorem of_reaches (hreaches : Reaches schema state after) (h : Follows schema after back search) :
    Follows schema state back search := by
  cases search with
  | ok found =>
      obtain ⟨last, hlast, hback⟩ := h
      exact ⟨last, hreaches.trans hlast, hback⟩
  | error cycle =>
      obtain ⟨last, hlast, hstep⟩ := h
      exact ⟨last, hreaches.trans hlast, hstep⟩

theorem of_step (hstep : state.step schema = .ok (some after))
    (h : Follows schema after back search) : Follows schema state back search :=
  h.of_reaches (.single hstep)

/-- Two searches in a row are followed one after the other. -/
theorem bind {next : Depths → Except EmbeddingCycle Depths} (h : Follows schema state back search)
    (hnext : ∀ found last, search = .ok found → back found last →
      Follows schema last back' (next found)) :
    Follows schema state back' (search >>= next) := by
  cases search with
  | ok found =>
      obtain ⟨last, hlast, hback⟩ := h
      exact (hnext found last rfl hback).of_reaches hlast
  | error cycle => exact h

end Follows

/-! ### The steps of the innermost type -/

variable {roots : List String} {frame : Frame} {below : List Frame} {marks : List (String × Mark)}
  {child : String}

/-- A child that is done only adds its depth. -/
theorem step_done (hchild : (schema.embeddedIn frame.name)[frame.next]? = some child) {depth : Nat}
    (hmark : marks.lookup child = some (.done depth)) :
    step schema ⟨roots, frame :: below, marks⟩ =
      .ok (some ⟨roots, frame.advance.absorb depth :: below, marks⟩) := by
  simp [step, hchild, hmark]

/-- A child on the stack closes a circle. -/
theorem step_visiting (hchild : (schema.embeddedIn frame.name)[frame.next]? = some child)
    (hmark : marks.lookup child = some .visiting) :
    step schema ⟨roots, frame :: below, marks⟩ =
      .error (circle (frame.advance :: below) child) := by
  simp [step, hchild, hmark]

theorem step_enter (hchild : (schema.embeddedIn frame.name)[frame.next]? = some child)
    (hmark : marks.lookup child = none) :
    step schema ⟨roots, frame :: below, marks⟩ =
      .ok (some ⟨roots, Frame.enter child :: frame.advance :: below,
        (child, .visiting) :: marks⟩) := by
  simp [step, hchild, hmark]

theorem step_leave (hchild : (schema.embeddedIn frame.name)[frame.next]? = none) :
    step schema ⟨roots, frame :: below, marks⟩ =
      .ok (some ⟨roots, resume frame.depth below, (frame.name, .done frame.depth) :: marks⟩) := by
  simp [step, hchild]

/-- A path is cut at the first place of a name on it. -/
theorem circle_eq {stack : List Frame} {name : String} (h : name ∈ path stack) :
    circle stack name = ⟨name, (path stack).dropWhile (· ≠ name)⟩ := by
  obtain ⟨front, back, heq, hfront⟩ := List.eq_append_cons_of_mem h
  have hne : ∀ other ∈ front, other ≠ name := fun other hother hname => hfront (hname ▸ hother)
  have hfind : (front ++ name :: back).findIdx? (· = name) = some front.length := by
    have hnone : front.findIdx? (· = name) = none := by simpa using hne
    rw [List.findIdx?_append, hnone]
    simp [List.findIdx?_cons]
  have hdrop : (front ++ name :: back).dropWhile (· ≠ name) = name :: back := by
    rw [List.dropWhile_append_of_pos]
    · simp
    · simpa using hne
  rw [circle, heq, hfind, hdrop]
  simp

/-! ### Marks for what a search knows -/

/-- Marks that stand for a path and known depths: the names on the path are visiting, and a name is
done with its known depth, or with depth zero if it is not defined. -/
structure Tracks (schema : Schema) (path : List String) (known : Depths)
    (marks : List (String × Mark)) : Prop where
  visiting : ∀ name, marks.lookup name = some .visiting ↔ name ∈ path
  done : ∀ name depth, marks.lookup name = some (.done depth) →
    known.lookup name = some depth ∨ name ∉ schema.names ∧ depth = 0
  known : ∀ name depth, known.lookup name = some depth → marks.lookup name = some (.done depth)

namespace Tracks

variable {room path : List String} {known : Depths} {name : String}

theorem unmarked (h : Tracks schema path known marks) (hname : marks.lookup name = none) :
    known.lookup name = none ∧ name ∉ path := by
  constructor
  · refine Option.eq_none_iff_forall_ne_some.2 fun depth hdepth => ?_
    rw [h.known name depth hdepth] at hname
    cases hname
  · intro hpath
    rw [(h.visiting name).2 hpath] at hname
    cases hname

theorem enter (h : Tracks schema path known marks) (hname : marks.lookup name = none) :
    Tracks schema (path ++ [name]) known ((name, .visiting) :: marks) := by
  obtain ⟨hknown, -⟩ := h.unmarked hname
  constructor
  · intro other
    by_cases hne : other = name
    · simp [hne]
    · rw [List.lookup_cons, beq_false_of_ne hne]
      simp [h.visiting other, hne]
  · intro other depth hother
    by_cases hne : other = name
    · simp [hne] at hother
    · rw [List.lookup_cons, beq_false_of_ne hne] at hother
      exact h.done other depth hother
  · intro other depth hother
    have hne : other ≠ name := by
      rintro rfl
      rw [hknown] at hother
      cases hother
    rw [List.lookup_cons, beq_false_of_ne hne]
    exact h.known other depth hother

theorem leave (h : Tracks schema (path ++ [name]) known marks) (hpath : name ∉ path) (depth : Nat) :
    Tracks schema path ((name, depth) :: known) ((name, .done depth) :: marks) := by
  constructor
  · intro other
    by_cases hne : other = name
    · simp [hne, hpath]
    · rw [List.lookup_cons, beq_false_of_ne hne]
      simp [h.visiting other, hne]
  · intro other found hother
    by_cases hne : other = name
    · subst hne
      rw [List.lookup_cons_self] at hother
      cases hother
      exact Or.inl List.lookup_cons_self
    · rw [List.lookup_cons, beq_false_of_ne hne] at hother ⊢
      exact h.done other found hother
  · intro other found hother
    by_cases hne : other = name
    · subst hne
      rw [List.lookup_cons_self] at hother
      cases hother
      exact List.lookup_cons_self
    · rw [List.lookup_cons, beq_false_of_ne hne] at hother ⊢
      exact h.known other found hother

/-- An undefined type that is left is done with depth zero, which need not be known. -/
theorem leave_undefined (h : Tracks schema path known marks) (hname : marks.lookup name = none)
    (hdefined : name ∉ schema.names) :
    Tracks schema path known ((name, .done 0) :: (name, .visiting) :: marks) := by
  obtain ⟨hknown, hpath⟩ := h.unmarked hname
  have hlookup : ∀ other ≠ name,
      ((name, Mark.done 0) :: (name, .visiting) :: marks).lookup other = marks.lookup other := by
    intro other hne
    simp only [List.lookup_cons, beq_false_of_ne hne]
  constructor
  · intro other
    by_cases hne : other = name
    · simp [hne, hpath]
    · rw [hlookup other hne, h.visiting other]
  · intro other depth hother
    by_cases hne : other = name
    · subst hne
      rw [List.lookup_cons_self] at hother
      cases hother
      exact Or.inr ⟨hdefined, rfl⟩
    · rw [hlookup other hne] at hother
      exact h.done other depth hother
  · intro other depth hother
    have hne : other ≠ name := by
      rintro rfl
      rw [hknown] at hother
      cases hother
    rw [hlookup other hne]
    exact h.known other depth hother

/-- A search finds nothing new at a name that is done, and takes its depth. -/
theorem visit_done (h : Tracks schema path known marks) (hongoing : schema.Ongoing room path known)
    {depth : Nat} (hmark : marks.lookup name = some (.done depth)) :
    schema.visit room path known name = .ok known ∧ (known.lookup name).getD 0 = depth := by
  rcases h.done name depth hmark with hdepth | ⟨hundefined, rfl⟩
  · rw [Schema.visit, if_pos (by simp [hdepth]), hdepth]
    exact ⟨rfl, rfl⟩
  · have hnone : known.lookup name = none := Option.eq_none_iff_forall_ne_some.2
      fun depth hdepth => hundefined (hongoing.measured name depth hdepth).1
    have hpath : name ∉ path := fun hmem => by
      rw [(h.visiting name).2 hmem] at hmark
      cases hmark
    rw [Schema.visit, if_neg (by simp [hnone]), if_neg (by simpa using hpath),
      dif_neg fun hroom => hundefined (hongoing.defined name hroom), hnone]
    exact ⟨rfl, rfl⟩

/-- A search fails at a name that is visiting. -/
theorem visit_visiting (h : Tracks schema path known marks)
    (hongoing : schema.Ongoing room path known) (hmark : marks.lookup name = some .visiting) :
    schema.visit room path known name = .error ⟨name, path.dropWhile (· ≠ name)⟩ := by
  have hpath := (h.visiting name).1 hmark
  rw [Schema.visit, if_neg (by simp [hongoing.path name hpath]),
    if_pos (List.contains_iff_mem.2 hpath)]

end Tracks

/-! ### The loop does what the search does -/

/-- From entering `name` on top of the stack `below`, the loop follows the search from `name` back
to the stack below. -/
def Runs (schema : Schema) (room path : List String) (known : Depths) (name : String) : Prop :=
  ∀ roots below marks, Traversal.path below = path → schema.Ongoing room path known →
    Tracks schema path known marks → marks.lookup name = none →
    Follows schema ⟨roots, Frame.enter name :: below, (name, .visiting) :: marks⟩
      (fun after last => ∃ marks', Tracks schema path after marks' ∧
        last = ⟨roots, resume ((after.lookup name).getD 0) below, marks'⟩)
      (schema.visit room path known name)

variable {room path : List String} {known : Depths}

/-- **A child of the innermost type** is done when the loop is back at that type. -/
theorem run_child (hruns : Runs schema room path known child)
    (hchild : (schema.embeddedIn frame.name)[frame.next]? = some child)
    (hpath : Traversal.path (frame :: below) = path) (hongoing : schema.Ongoing room path known)
    (htracks : Tracks schema path known marks) :
    Follows schema ⟨roots, frame :: below, marks⟩
      (fun after last => ∃ marks', Tracks schema path after marks' ∧
        last = ⟨roots, frame.advance.absorb ((after.lookup child).getD 0) :: below, marks'⟩)
      (schema.visit room path known child) := by
  have hadvanced : Traversal.path (frame.advance :: below) = path := hpath
  cases hmark : marks.lookup child with
  | none =>
      exact .of_step (step_enter hchild hmark)
        (hruns roots (frame.advance :: below) marks hadvanced hongoing htracks hmark)
  | some mark =>
      cases mark with
      | done depth =>
          obtain ⟨hvisit, hdepth⟩ := htracks.visit_done hongoing hmark
          rw [hvisit]
          refine ⟨_, .single (step_done hchild hmark), marks, htracks, ?_⟩
          rw [hdepth]
      | visiting =>
          rw [htracks.visit_visiting hongoing hmark]
          refine ⟨_, .refl, ?_⟩
          rw [step_visiting hchild hmark, circle_eq, hadvanced]
          rw [hadvanced]
          exact (htracks.visiting child).1 hmark

/-- The depth over types whose depths are known, if they are defined, is the same later on. -/
theorem depthOver_eq_of_extends {after : Depths} {taken : List String}
    (hknown : schema.Measured known) (hafter : schema.Measured after)
    (hextends : known.Extends after)
    (htaken : ∀ child ∈ taken, child ∈ schema.names → ∃ depth, known.lookup child = some depth) :
    Schema.depthOver after taken = Schema.depthOver known taken := by
  refine List.foldl_ext _ _ 0 fun depth child hchild => ?_
  -- both are the length of the longest path
  have hbefore := hknown.longest (htaken child hchild)
  have hlater := hafter.longest fun hdefined => by
    obtain ⟨depth, hdepth⟩ := htaken child hchild hdefined
    exact ⟨depth, hextends child depth hdepth⟩
  rw [hbefore.eq hlater]

/-- **The children of the innermost type** are done one after the other.  Those before the cursor
are `taken`, and their greatest depth is with the type. -/
theorem run_children (hruns : ∀ child known, Runs schema room path known child)
    {taken rest : List String} (hchildren : schema.embeddedIn frame.name = taken ++ rest)
    (hnext : frame.next = taken.length) (hdepth : frame.depth = Schema.depthOver known taken)
    (hpath : Traversal.path (frame :: below) = path) (hongoing : schema.Ongoing room path known)
    (htracks : Tracks schema path known marks)
    (htaken : ∀ child ∈ taken, child ∈ schema.names → ∃ depth, known.lookup child = some depth) :
    Follows schema ⟨roots, frame :: below, marks⟩
      (fun found last => ∃ marks' frame', Tracks schema path found marks' ∧
        last = ⟨roots, frame' :: below, marks'⟩ ∧ frame'.name = frame.name ∧
        frame'.next = (schema.embeddedIn frame.name).length ∧
        frame'.depth = Schema.depthOver found (schema.embeddedIn frame.name))
      (rest.foldlM (fun known child => schema.visit room path known child) known) := by
  induction rest generalizing taken frame known marks with
  | nil =>
      rw [List.append_nil] at hchildren
      exact ⟨_, .refl, marks, frame, htracks, rfl, rfl, by rw [hchildren, hnext],
        by rw [hchildren, hdepth]⟩
  | cons child rest ih =>
      have hchild : (schema.embeddedIn frame.name)[frame.next]? = some child := by
        simp [hchildren, hnext]
      rw [List.foldlM_cons]
      refine (run_child (hruns child known) hchild hpath hongoing htracks).bind ?_
      rintro after _ hvisit ⟨marks', htracks', rfl⟩
      have hvisited := hongoing.visited hvisit
      have hafter := hongoing.visit hvisit
      have hchildren' : schema.embeddedIn
          (frame.advance.absorb ((after.lookup child).getD 0)).name =
            (taken ++ [child]) ++ rest := by
        simp [hchildren]
      have hnext' : (frame.advance.absorb ((after.lookup child).getD 0)).next =
          (taken ++ [child]).length := by
        simp [hnext]
      refine ih hchildren' hnext' ?_ hpath hafter htracks' ?_
      · have hsame := depthOver_eq_of_extends hongoing.measured hafter.measured hvisited.keeps
          htaken
        rw [Schema.depthOver, List.foldl_append, ← Schema.depthOver, hsame, ← hdepth]
        simp
      · intro other hother hdefined
        rcases List.mem_append.1 hother with hother | hother
        · obtain ⟨depth, hdepth⟩ := htaken other hother hdefined
          exact ⟨depth, hvisited.keeps other depth hdepth⟩
        · obtain rfl := List.mem_singleton.1 hother
          exact hvisited.finds hdefined

/-- **The loop does what the search does**, from entering a type to leaving it. -/
theorem run_visit (schema : Schema) (room path : List String) (known : Depths) (name : String) :
    Runs schema room path known name := by
  induction room, path, known, name using Schema.visit.induct with
  | case1 room path known name hknown =>
      intro roots below marks _ _ htracks hmark
      rw [(htracks.unmarked hmark).1] at hknown
      cases hknown
  | case2 room path known name hknown hcircle =>
      intro roots below marks _ _ htracks hmark
      exact absurd (List.contains_iff_mem.1 hcircle) (htracks.unmarked hmark).2
  | case3 room path known name hknown hcircle hin ih =>
      intro roots below marks hpath hongoing htracks hmark
      obtain ⟨hnone, hoff⟩ := htracks.unmarked hmark
      have hentered : Traversal.path (Frame.enter name :: below) = path ++ [name] := by
        simp [Traversal.path, ← hpath]
      have hchildren : schema.embeddedIn (Frame.enter name).name =
          [] ++ schema.embeddedIn name := rfl
      rw [Schema.visit, if_neg hknown, if_neg hcircle, dif_pos hin]
      refine (run_children (fun child known => ih known child) hchildren rfl rfl hentered
        (hongoing.descend hnone) (htracks.enter hmark)
        (fun _ h => absurd h List.not_mem_nil)).bind ?_
      rintro found _ - ⟨marks', frame', htracks', rfl, hname, hnext, hdepth⟩
      rw [Frame.name_enter] at hname hnext hdepth
      have hleave : step schema ⟨roots, frame' :: below, marks'⟩ =
          .ok (some ⟨roots, resume frame'.depth below,
            (frame'.name, .done frame'.depth) :: marks'⟩) :=
        step_leave (by simp [hname, hnext])
      rw [hname, hdepth] at hleave
      refine ⟨_, .single hleave, _, htracks'.leave hoff _, ?_⟩
      rw [List.lookup_cons_self, Option.getD_some]
  | case4 room path known name hknown hcircle hout =>
      intro roots below marks hpath hongoing htracks hmark
      obtain ⟨hnone, hoff⟩ := htracks.unmarked hmark
      have hundefined : name ∉ schema.names := fun hname => hout (hongoing.room name hname hoff)
      have hleave : step schema ⟨roots, Frame.enter name :: below, (name, .visiting) :: marks⟩ =
          .ok (some ⟨roots, resume 0 below, (name, .done 0) :: (name, .visiting) :: marks⟩) :=
        step_leave (by simp [Schema.embeddedIn_of_notMem hundefined])
      rw [Schema.visit, if_neg hknown, if_neg hcircle, dif_neg hout]
      refine ⟨_, .single hleave, _, htracks.leave_undefined hmark hundefined, ?_⟩
      rw [hnone]
      rfl

/-- **The names are started from one after the other.** -/
theorem run_roots (roots : List String) (hongoing : schema.Ongoing room [] known)
    (htracks : Tracks schema [] known marks) :
    Follows schema ⟨roots, [], marks⟩
      (fun found last => ∃ marks', Tracks schema [] found marks' ∧ last = ⟨[], [], marks'⟩)
      (roots.foldlM (fun known name => schema.visit room [] known name) known) := by
  induction roots generalizing known marks with
  | nil => exact ⟨_, .refl, marks, htracks, rfl⟩
  | cons root roots ih =>
      rw [List.foldlM_cons]
      cases hmark : marks.lookup root with
      | none =>
          have henter : step schema ⟨root :: roots, [], marks⟩ =
              .ok (some ⟨roots, [Frame.enter root], (root, .visiting) :: marks⟩) := by
            simp [step, hmark]
          refine .of_step henter ((run_visit schema room [] known root roots [] marks rfl hongoing
            htracks hmark).bind ?_)
          rintro after _ hvisit ⟨marks', htracks', rfl⟩
          exact ih (hongoing.visit hvisit) htracks'
      | some mark =>
          have hskip : step schema ⟨root :: roots, [], marks⟩ = .ok (some ⟨roots, [], marks⟩) := by
            simp [step, hmark]
          cases mark with
          | visiting => exact absurd ((htracks.visiting root).1 hmark) List.not_mem_nil
          | done depth =>
              rw [(htracks.visit_done hongoing hmark).1]
              exact .of_step hskip (ih hongoing htracks)

/-- Depths that the marks stand for are read off the marks. -/
theorem depths_eq (htracks : Tracks schema [] known marks)
    (hfinds : ∀ name ∈ schema.names, ∃ depth, known.lookup name = some depth) :
    Traversal.depths schema ⟨[], [], marks⟩ =
      schema.sortedNames.filterMap fun name =>
        (known.lookup name).map fun depth => (name, depth) := by
  refine List.filterMap_congr fun name hname => ?_
  obtain ⟨depth, hdepth⟩ := hfinds name (Schema.mem_sortedNames.1 hname)
  simp [hdepth, htracks.known name depth hdepth]

/-- **The loop ends with the depths of the schema**, or with the circle that the search meets. -/
theorem ends_start (schema : Schema) : Ends schema (start schema) schema.depths := by
  have hempty : Tracks schema [] [] [] :=
    ⟨fun _ => by simp, fun _ _ h => by simp at h, fun _ _ h => by simp at h⟩
  have hfollows := run_roots schema.sortedNames schema.ongoing_start hempty
  rw [Schema.depths]
  cases hfold : schema.sortedNames.foldlM
      (fun known name => schema.visit schema.sortedNames [] known name) [] with
  | error cycle =>
      rw [hfold] at hfollows
      obtain ⟨last, hreaches, hstep⟩ := hfollows
      exact .of_reaches hreaches (.circle hstep)
  | ok known =>
      rw [hfold] at hfollows
      obtain ⟨_, hreaches, marks, htracks, rfl⟩ := hfollows
      have hdone : Ends schema ⟨[], [], marks⟩ (.ok (Traversal.depths schema ⟨[], [], marks⟩)) :=
        .done rfl
      rw [depths_eq htracks (Schema.ongoing_of_foldlM hfold).2] at hdone
      exact .of_reaches hreaches hdone

end Traversal

/-! ### The depths of a schema -/

/-- **The depths of a schema are exact.**  The loop ends, and only with the depths of the schema or
with its circle.  There are depths exactly if no type leads back to itself; then each defined name
has one, the length of its longest path, on which references have no influence.  Otherwise the
circle is one of the graph of embeddings. -/
theorem Schema.depths_exact (schema : Schema) :
    Traversal.Ends schema (Traversal.start schema) schema.depths ∧
      (∀ outcome, Traversal.Ends schema (Traversal.start schema) outcome →
        outcome = schema.depths) ∧
      ((∃ depths, schema.depths = .ok depths) ↔ schema.Acyclic) ∧
      (∀ depths, schema.depths = .ok depths → (depths.map Prod.fst).Nodup ∧
        ∀ name depth, (name, depth) ∈ depths ↔
          name ∈ schema.names ∧ schema.Longest name depth) ∧
      (∀ cycle, schema.depths = .error cycle → cycle.Genuine schema) ∧
      Schema.depths (schema.map ComponentType.withoutRefs) = schema.depths := by
  refine ⟨Traversal.ends_start schema,
    fun outcome houtcome => houtcome.unique (Traversal.ends_start schema), exists_depths_iff,
    fun depths hdepths => ⟨?_, fun name depth => mem_depths_iff hdepths⟩,
    fun cycle hcycle => genuine_of_depths hcycle, depths_withoutRefs schema⟩
  rw [map_fst_depths hdepths]
  exact nodup_sortedNames schema

namespace Sample

/-- A type that embeds an undefined one and one that is defined twice, at last without embedding
anything. -/
def redefined : Schema :=
  [⟨"A", [⟨"b", .component "B"⟩, ⟨"x", .component "X"⟩]⟩, ⟨"B", [⟨"a", .component "A"⟩]⟩,
    ⟨"B", [⟨"a", .ref "A"⟩]⟩]

/-- A circle behind a type that leads to it. -/
def looped : Schema :=
  [⟨"A", [⟨"b", .component "B"⟩]⟩, ⟨"B", [⟨"c", .component "C"⟩]⟩,
    ⟨"C", [⟨"d", .component "D"⟩]⟩, ⟨"D", [⟨"b", .component "B"⟩, ⟨"a", .ref "A"⟩]⟩]

end Sample

/-- The depths of one sample, and the circle of the other. -/
theorem Schema.depths_exact_sample :
    Sample.redefined.depths = .ok [("A", 1), ("B", 0)] ∧ Sample.redefined.Longest "A" 1 ∧
      Sample.looped.depths = .error ⟨"B", ["B", "C", "D"]⟩ ∧
      EmbeddingCycle.Genuine Sample.looped ⟨"B", ["B", "C", "D"]⟩ := by
  have hredefined : Sample.redefined.depths = .ok [("A", 1), ("B", 0)] := by cbv
  have hlooped : Sample.looped.depths = .error ⟨"B", ["B", "C", "D"]⟩ := by cbv
  obtain ⟨-, -, -, hdepths, -, -⟩ := depths_exact Sample.redefined
  obtain ⟨-, -, -, -, hcircle, -⟩ := depths_exact Sample.looped
  exact ⟨hredefined, (((hdepths _ hredefined).2 "A" 1).1 (by simp)).2, hlooped,
    hcircle _ hlooped⟩

end ScenePack
