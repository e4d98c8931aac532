/-
**Registries.**

A registry holds the layouts of all types of a schema in the order of its plan.  It is laid out
from the end of the plan, so that the layout of every embedded type is known before it is needed.

Main definitions:

* `Registry` — the layouts of a schema;
* `Registry.layout?`, `Registry.lookup?` — a layout by position, and a position by name;
* `Registry.buildWith`, `Registry.build` — the registry of a schema, with given sums and in the
  address space.
-/

import ScenePack.Layout.Place
import ScenePack.Schema.Plan

set_option relaxedAutoImplicit false
set_option autoImplicit false

namespace ScenePack

/-- The layouts of the types of a schema, by position. -/
structure Registry where
  config : LayoutConfig
  types : List RecordLayout
  deriving DecidableEq

namespace Registry

/-- The layout of the type at a position. -/
def layout? (registry : Registry) (id : TypeId) : Option RecordLayout := registry.types[id]?

/-- The position of the type of a name. -/
def lookup? (registry : Registry) (name : String) : Option TypeId :=
  registry.types.findIdx? fun layout => layout.name = name

/-- The layout of the type of a name. -/
def named? (registry : Registry) (name : String) : Option RecordLayout :=
  (registry.lookup? name).bind registry.layout?

/-- A type as messages show it: its name, or its position if the registry has no such type. -/
def describe (registry : Registry) (id : TypeId) : String :=
  match registry.layout? id with
  | some layout => layout.name
  | none => "TypeId(" ++ toString id ++ ")"

/-! ### Building -/

/-- The layouts of the planned types from position `id` on, the last ones first. -/
def layAll (sum : Nat → Except (Failure SchemaError) Nat) (config : LayoutConfig) (schema : Schema)
    (id? : String → Option TypeId) :
    (id : TypeId) → Plan → Except (Failure SchemaError) (List RecordLayout)
  | _, [] => .ok []
  | id, entry :: rest => do
      let later ← layAll sum config schema id? (id + 1) rest
      match schema.type? entry.name with
      | none => .error (.reported (.undefinedType entry.name "" entry.name))
      | some type => do
          let layout ← RecordLayout.ofType sum config ⟨id?, later⟩ id entry.depth type
          .ok (layout :: later)

/-- The registry of a schema, with sums of positions going through `sum`.  The configuration is
checked first, then the names of the schema, then its embeddings. -/
def buildWith (sum : Nat → Except (Failure SchemaError) Nat) (schema : Schema)
    (config : LayoutConfig) : Except (Failure SchemaError) Registry := do
  Failure.lift config.validate
  Failure.lift schema.validate
  match schema.plan with
  | .error cycle => .error (.reported (.cyclic cycle))
  | .ok plan => do
      let types ← layAll sum config schema plan.position? 0 plan
      .ok ⟨config, types⟩

/-- The registry of a schema in the address space.  The program stops at a sum that is not an
address. -/
def build (schema : Schema) (config : LayoutConfig) : Except (Failure SchemaError) Registry :=
  buildWith Address.sum schema config

end Registry

end ScenePack
