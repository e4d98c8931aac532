/-
**The order of types.**

Types are ordered by depth, the deepest first, and by name within a depth.  A type comes after
every type that embeds it, and the position of a type in this order identifies it in an image.

Main definitions:

* `PlannedType`, `Plan` — types with their depths, in order;
* `Schema.plan` — the plan of a schema.
-/

import ScenePack.Schema.Embedding

set_option relaxedAutoImplicit false
set_option autoImplicit false

namespace ScenePack

/-- A type name with its depth. -/
structure PlannedType where
  name : String
  depth : Nat
  deriving DecidableEq

namespace PlannedType

/-- The order of a plan: deeper types first, equally deep ones by name. -/
def before (a b : PlannedType) : Bool :=
  decide (b.depth < a.depth) || (a.depth == b.depth && decide (a.name ≤ b.name))

end PlannedType

/-- The types of a schema in order. -/
abbrev Plan := List PlannedType

namespace Plan

/-- The names of the types, in order. -/
def names (plan : Plan) : List String := plan.map PlannedType.name

/-- The position of a type. -/
def position? (plan : Plan) (name : String) : Option Nat :=
  plan.findIdx? fun entry => entry.name = name

end Plan

/-- The plan of a schema whose embeddings form no circle. -/
def Schema.plan (schema : Schema) : Except EmbeddingCycle Plan := do
  let depths ← schema.depths
  .ok ((depths.map fun entry => PlannedType.mk entry.1 entry.2).mergeSort PlannedType.before)

end ScenePack
