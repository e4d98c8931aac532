/-
**Embedding depths.**

A type that embeds no record has depth zero, any other type is one deeper than the deepest type it
embeds.  References do not count, so types may refer to one another freely; a type that embeds
itself, directly or through others, has no depth.

The depths are found by a search that goes along embeddings.  It keeps the path from where it
started, to notice a circle, and the names that are not on the path yet, which run out.

Main definitions:

* `Schema.embeddedIn` — the types embedded in a named type;
* `Schema.visit` — the search from one name;
* `Schema.depths` — the depth of every type, or a circle.
-/

import ScenePack.Schema.Basic

set_option relaxedAutoImplicit false
set_option autoImplicit false

namespace ScenePack

/-- The depths of the types found so far. -/
abbrev Depths := List (String × Nat)

namespace Schema

/-- The types embedded in the type of the given name, by its last definition; none if it is not
defined. -/
def embeddedIn (schema : Schema) (name : String) : List String :=
  match schema.reverse.find? (fun type => type.name = name) with
  | some type => type.embedded
  | none => []

/-- The depth of a type that embeds the given ones, where a type without a known depth counts as
embedding nothing. -/
def depthOver (known : Depths) (embedded : List String) : Nat :=
  embedded.foldl (fun depth name => max depth ((known.lookup name).getD 0 + 1)) 0

/-- The depths of `name` and of all that it embeds, added to the known ones.  `path` leads to
`name`, and `room` holds the defined names off the path. -/
def visit (schema : Schema) (room path : List String) (known : Depths) (name : String) :
    Except EmbeddingCycle Depths :=
  if (known.lookup name).isSome then .ok known
  else if path.contains name then .error ⟨name, path.dropWhile (· ≠ name)⟩
  else if _inRoom : name ∈ room then do
    let known ← (schema.embeddedIn name).foldlM
      (fun known child => visit schema (room.erase name) (path ++ [name]) known child) known
    .ok ((name, depthOver known (schema.embeddedIn name)) :: known)
  else .ok known
termination_by room.length
decreasing_by
  rw [List.length_erase_of_mem _inRoom]
  exact Nat.sub_one_lt (Nat.ne_of_gt (List.length_pos_of_mem _inRoom))

/-- The defined names, once each, in ascending order. -/
def sortedNames (schema : Schema) : List String :=
  schema.names.eraseDups.mergeSort fun a b => decide (a ≤ b)

/-- The depth of every defined type, in ascending order of names.  The search starts from the names
in that order. -/
def depths (schema : Schema) : Except EmbeddingCycle Depths := do
  let names := schema.sortedNames
  let known ← names.foldlM (fun known name => visit schema names [] known name) []
  .ok (names.filterMap fun name => (known.lookup name).map fun depth => (name, depth))

end Schema

end ScenePack
