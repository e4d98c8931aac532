/-
**Showing images to a developer.**

Main definitions:

* `View.inspect`, `RecordView.inspect`, `Buffer.inspect` — one line about a view, a record and a
  buffer.
-/

import ScenePack.Image.Buffer
import ScenePack.Text.Quoted

set_option relaxedAutoImplicit false
set_option autoImplicit false

namespace ScenePack

/-- A name with its fields in braces. -/
def inspectFields (name : String) (fields : List (String × String)) : String :=
  name ++ " \x7b " ++
    String.intercalate ", " (fields.map fun field => field.1 ++ ": " ++ field.2) ++ " \x7d"

/-- A range in one line. -/
def Range.inspect (range : Range) : String :=
  inspectFields "ComponentRange"
    [("type_id", toString range.typeId), ("count", toString range.count)]

/-- A view in one line: its base, the count of its instances and its ranges. -/
def View.inspect (view : View) : String :=
  inspectFields "ResolvedScene"
    [("base", toString view.base), ("len", toString view.header.count),
     ("ranges", "[" ++ String.intercalate ", " (view.ranges.map Range.inspect) ++ "]")]

/-- A record in one line: its type and its position. -/
def RecordView.inspect (record : RecordView) : String :=
  inspectFields "RecordView"
    [("type", Quoted.encode record.layout.name), ("offset", toString record.offset)]

/-- A state in one line. -/
def BufferState.inspect : BufferState → String
  | raw => "Raw"
  | resolved base => inspectFields "Resolved" [("base", toString base)]

/-- A buffer in one line: its size and its state. -/
def Buffer.inspect (buffer : Buffer) : String :=
  inspectFields "SceneBuffer"
    [("len", toString buffer.bytes.length), ("state", buffer.state.inspect)]

end ScenePack
