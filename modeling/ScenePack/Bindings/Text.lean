/-
**The text of bindings.**

The text is a list of lines: the fingerprint, the enumeration of the types, a list of them for
other code to go through, the structures, the root of an image, and the fixup.

Main definitions:

* `Bindings.lines`, `Bindings.render` — the lines and the text of bindings;
* `Registry.bindings`, `Schema.bindings` — the text for a registry and for a schema.
-/

import ScenePack.Bindings.Basic

set_option relaxedAutoImplicit false
set_option autoImplicit false

namespace ScenePack

namespace Bindings

/-! ### The parts -/

/-- The head of the file, with the fingerprint. -/
def headLines (bindings : Bindings) : List String :=
  ["// Generated by sg-codegen from a component schema. Do not edit.",
   "// Include with `include!` inside a module of its own.",
   "",
   "/// Digest of the layout these bindings were generated from.",
   "pub const SCHEMA_FINGERPRINT: &str = \"" ++ bindings.fingerprint ++ "\";"]

/-- The enumeration of the types. -/
def enumerationLines (bindings : Bindings) : List String :=
  ["",
   "/// Component type ordinals, in layout order.",
   "#[repr(u32)]",
   "#[derive(Debug, Clone, Copy, PartialEq, Eq, Hash)]",
   "pub enum TypeId \x7b"] ++
  bindings.declarations.map (fun d => "    " ++ d.name ++ " = " ++ toString d.id ++ ",") ++
  ["\x7d",
   "",
   "impl TypeId \x7b",
   "    pub const fn from_u32(value: u32) -> Option<Self> \x7b",
   "        match value \x7b"] ++
  bindings.declarations.map (fun d =>
    "            " ++ toString d.id ++ " => Some(TypeId::" ++ d.name ++ "),") ++
  ["            _ => None,",
   "        \x7d",
   "    \x7d",
   "\x7d"]

/-- The list of the types for other code to go through. -/
def dispatchLines (bindings : Bindings) : List String :=
  ["",
   "/// Invokes `$m!(Name)` once per component type, in layout order. `Name` is",
   "/// both the `TypeId` variant and the record type.",
   "macro_rules! sg_components \x7b",
   "    ($m:ident) => \x7b"] ++
  bindings.declarations.map (fun d => "        $m!(" ++ d.name ++ ");") ++
  ["    \x7d;",
   "\x7d"]

/-- The structure of a type and the assertions about it. -/
def declarationLines (d : Declaration) : List String :=
  ["",
   "#[repr(C, align(" ++ toString d.align ++ "))]",
   "#[derive(Debug, Clone, Copy)]",
   "pub struct " ++ d.name ++ " \x7b"] ++
  d.members.map (fun member => "    pub " ++ member.1 ++ ": " ++ member.2 ++ ",") ++
  ["\x7d",
   "",
   "impl " ++ d.name ++ " \x7b",
   "    pub const STATIC_TYPE_ID: TypeId = TypeId::" ++ d.name ++ ";",
   "\x7d",
   "",
   "const _: () = assert!(::core::mem::size_of::<" ++ d.name ++ ">() == " ++ toString d.size ++ ");",
   "const _: () = assert!(::core::mem::align_of::<" ++ d.name ++ ">() == " ++ toString d.align ++
     ");"] ++
  d.offsets.map (fun entry =>
    "const _: () = assert!(::core::mem::offset_of!(" ++ d.name ++ ", " ++ entry.1 ++ ") == " ++
      toString entry.2 ++ ");")

/-- The root of an image. -/
def rootLines : List String :=
  ["",
   "/// A run of `count` consecutive instances of one type.",
   "#[repr(C)]",
   "#[derive(Debug, Clone, Copy)]",
   "pub struct ComponentRange \x7b",
   "    pub type_id: u32,",
   "    pub count: u32,",
   "\x7d",
   "",
   "/// Root of a scene buffer.",
   "#[repr(C)]",
   "#[derive(Debug)]",
   "pub struct Scene \x7b",
   "    pub components: *const *const ::core::ffi::c_void,",
   "    pub component_count: usize,",
   "    pub component_ranges: *const ComponentRange,",
   "    pub component_range_count: usize,",
   "\x7d"]

/-- The arm of the fixup for a type. -/
def armLines (arm : FixupArm) : List String :=
  ["                " ++ toString arm.typeId ++ " => \x7b",
   "                    let record = *entry;"] ++
  arm.slots.map (fun slot =>
    if slot = 0 then "                    rebase(record, base);"
    else "                    rebase(record + " ++ toString slot ++ ", base);") ++
  ["                \x7d"]

/-- The choice between the arms of the fixup, nothing if there are none. -/
def armsLines (fixup : Fixup) : List String :=
  if fixup.isEmpty then []
  else
    ["            match range.type_id \x7b"] ++ fixup.flatMap armLines ++
    ["                _ => \x7b\x7d",
     "            \x7d"]

/-- The part of the fixup that shifts one pointer, if there are any. -/
def rebaseLines (fixup : Fixup) : List String :=
  if fixup.isEmpty then []
  else
    ["",
     "/// Adds `base` to a non-null pointer slot.",
     "unsafe fn rebase(slot: usize, base: usize) \x7b",
     "    let slot = slot as *mut usize;",
     "    if *slot != 0 \x7b",
     "        *slot += base;",
     "    \x7d",
     "\x7d"]

/-- The fixup. -/
def fixupLines (fixup : Fixup) : List String :=
  ["",
   "/// Rebase every pointer of an encoded scene buffer in place.",
   "///",
   "/// # Safety",
   "///",
   "/// `data` must point to a writable, unresolved scene buffer encoded for",
   "/// `SCHEMA_FINGERPRINT` and aligned to 64 bytes. A buffer must not be",
   "/// passed to this function twice.",
   "pub unsafe fn to_scene(data: *mut u8) -> *const Scene \x7b",
   "    let base = data as usize;",
   "    let scene = data as *mut Scene;",
   "    (*scene).components = (base + (*scene).components as usize) as *const *const ::core::ffi::c_void;",
   "    (*scene).component_ranges = (base + (*scene).component_ranges as usize) as *const ComponentRange;",
   "",
   "    let directory = (*scene).components as *mut usize;",
   "    let mut index = 0;",
   "    for r in 0..(*scene).component_range_count \x7b",
   "        let range = *(*scene).component_ranges.add(r);",
   "        for _ in 0..range.count \x7b",
   "            let entry = directory.add(index);",
   "            *entry += base;"] ++
  armsLines fixup ++
  ["            index += 1;",
   "        \x7d",
   "    \x7d",
   "    scene",
   "\x7d"] ++
  rebaseLines fixup

/-! ### The whole -/

/-- The lines of the text. -/
def lines (bindings : Bindings) : List String :=
  bindings.headLines ++ bindings.enumerationLines ++ bindings.dispatchLines ++
    bindings.declarations.flatMap declarationLines ++ rootLines ++ fixupLines bindings.fixup

/-- The text: every line with its end. -/
def render (bindings : Bindings) : String :=
  String.join (bindings.lines.map fun line => line ++ "\n")

end Bindings

/-- The text of the bindings of a registry. -/
def Registry.bindings (registry : Registry) : Except BindingsError String :=
  (Bindings.ofRegistry registry).map Bindings.render

/-- The text of the bindings of a schema.  There is none for a schema without a registry. -/
def Schema.bindings (schema : Schema) (config : LayoutConfig) :
    Except (Failure BindingsError) String :=
  match Registry.build schema config with
  | .error (.reported error) => .error (.reported (.schema error))
  | .error .stopped => .error .stopped
  | .ok registry => Failure.lift registry.bindings

end ScenePack
