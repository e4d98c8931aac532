/-
**The fixup as its text spells it.**

Whoever compiles generated bindings has their text only.  Here the text is read as a program: its
lines from the head of the fixup on have to be those that go through the entries of an image, and
among them stand the arms, whose lines give a type and the pointers of its records.  What is read
from the bindings of a registry is the fixup of the registry, so the program that the text spells
does what a relocation does.

Main definitions:

* `Fixup.slot?`, `Fixup.arm?` — the pointer and the arm that lines spell;
* `Fixup.ofLines?`, `Fixup.ofText?` — the fixup that lines and a text spell.

Main results:

* `Fixup.ofText?_bindings` — **bindings spell the fixup of their registry**;
* `Registry.bindings_relocate` — **the fixup that bindings spell does what a relocation does**.
-/

import ScenePack.Proofs.Bindings.Lines
import ScenePack.Proofs.Bindings.Run

set_option relaxedAutoImplicit false
set_option autoImplicit false

namespace ScenePack

namespace Fixup

/-! ### Reading lines -/

/-- The number between a front and a back in a line. -/
def number? (front back line : String) : Option Nat :=
  (between? front.toList back.toList line.toList).bind fun digits =>
    (String.ofList digits).toNat?

/-- The offset of the pointer that a line of an arm shifts. -/
def slot? (line : String) : Option Nat :=
  if line = "                    rebase(record, base);" then some 0
  else number? "                    rebase(record + " ", base);" line

/-- The arm that lines spell: its type, the record of the entry, and the pointers. -/
def arm? : List String → Option FixupArm
  | [] => none
  | [_] => none
  | head :: record :: slots => do
      let typeId ← number? "                " " => \x7b" head
      guard (record = "                    let record = *entry;")
      let slots ← slots.mapM slot?
      some ⟨typeId, slots⟩

/-- The end of an arm. -/
def armEnd : String := "                \x7d"

/-- The lines that shift the pointers of the header and go through the entries of the directory, up
to the step for an entry. -/
def opening : List String :=
  [head,
   "    let base = data as usize;",
   "    let scene = data as *mut Scene;",
   "    (*scene).components = (base + (*scene).components as usize) as *const *const ::core::ffi::c_void;",
   "    (*scene).component_ranges = (base + (*scene).component_ranges as usize) as *const ComponentRange;",
   "",
   "    let directory = (*scene).components as *mut usize;",
   "    let mut index = 0;",
   "    for r in 0..(*scene).component_range_count \x7b",
   "        let range = *(*scene).component_ranges.add(r);",
   "        for _ in 0..range.count \x7b",
   "            let entry = directory.add(index);",
   "            *entry += base;"]

/-- The line in front of the arms. -/
def choice : String := "            match range.type_id \x7b"

/-- The lines behind the arms: nothing is done for the other types. -/
def others : List String :=
  ["                _ => \x7b\x7d",
   "            \x7d"]

/-- The lines behind the step for an entry. -/
def closing : List String :=
  ["            index += 1;",
   "        \x7d",
   "    \x7d",
   "    scene",
   "\x7d"]

/-- The lines that say how a pointer is shifted. -/
def shifting : List String :=
  ["",
   "/// Adds `base` to a non-null pointer slot.",
   "unsafe fn rebase(slot: usize, base: usize) \x7b",
   "    let slot = slot as *mut usize;",
   "    if *slot != 0 \x7b",
   "        *slot += base;",
   "    \x7d",
   "\x7d"]

/-- The fixup that lines spell from its head on, `none` if they spell something else. -/
def ofLines? (lines : List String) : Option Fixup :=
  let function := lines.dropWhile (· ≠ head)
  if function = opening ++ closing then some []
  else do
    let arms ← between? (opening ++ [choice]) (others ++ closing ++ shifting) function
    (← pieces? armEnd arms).mapM arm?

/-- The fixup that a text spells. -/
def ofText? (text : String) : Option Fixup := (linesOf? text).bind ofLines?

/-! ### Reading what is written -/

theorem number?_append (front back : String) (number : Nat) :
    number? front back (front ++ toString number ++ back) = some number := by
  rw [number?, String.toList_append, String.toList_append, between?_append, Option.bind_some,
    String.ofList_toList]
  exact Nat.toNat?_repr number

/-- The line that shifts a pointer. -/
def slotLine (slot : Nat) : String :=
  if slot = 0 then "                    rebase(record, base);"
  else "                    rebase(record + " ++ toString slot ++ ", base);"

theorem slot?_slotLine (slot : Nat) : slot? (slotLine slot) = some slot := by
  rw [slotLine]
  split
  · next hzero =>
      rw [slot?, if_pos rfl, hzero]
  · rw [slot?, if_neg ?_]
    · exact number?_append _ _ slot
    · rw [String.append_assoc]
      exact append_ne (by decide) _

/-- The lines of an arm up to its end. -/
def armBody (arm : FixupArm) : List String :=
  ["                " ++ toString arm.typeId ++ " => \x7b",
   "                    let record = *entry;"] ++ arm.slots.map slotLine

/-- **An arm can be read back.** -/
theorem arm?_armBody (arm : FixupArm) : arm? (armBody arm) = some arm := by
  change (number? _ _ _).bind _ = _
  rw [number?_append]
  change ((arm.slots.map slotLine).mapM slot?).bind _ = _
  rw [mapM_map_eq_some fun slot _ => slot?_slotLine slot]
  rfl

example :
    arm? ["                7 => \x7b",
      "                    let record = *entry;",
      "                    rebase(record, base);",
      "                    rebase(record + 16, base);"] = some ⟨7, [0, 16]⟩ := by cbv

/-- Only the last line of an arm is its end. -/
theorem armEnd_notMem_armBody (arm : FixupArm) : armEnd ∉ armBody arm := by
  have hslot : ∀ slot, slotLine slot ≠ armEnd := by
    intro slot
    rw [slotLine]
    split
    · decide
    · rw [String.append_assoc]
      exact append_ne (by decide) _
  have hhead : "                " ++ toString arm.typeId ++ " => \x7b" ≠ armEnd := by
    intro h
    -- the head of an arm is longer
    have hlength := congrArg String.length h
    rw [String.length_append, String.length_append] at hlength
    have hfront : "                ".length = 16 := by decide
    have hback : " => \x7b".length = 5 := by decide
    have hend : armEnd.length = 17 := by decide
    omega
  simp only [armBody, List.mem_append, List.mem_cons, List.mem_map, List.not_mem_nil, or_false]
  rintro ((h | h) | ⟨slot, -, h⟩)
  · exact hhead h.symm
  · exact absurd h (by decide)
  · exact hslot slot h

/-- **The arms of a fixup can be read back.** -/
theorem mapM_arm?_pieces (fixup : Fixup) :
    (pieces? armEnd (fixup.flatMap Bindings.armLines)).bind (List.mapM arm?) = some fixup := by
  have hpieces : fixup.flatMap Bindings.armLines =
      (fixup.map armBody).flatMap fun piece => piece ++ [armEnd] := by
    rw [List.flatMap_map]
    rfl
  rw [hpieces, pieces?_flatMap (List.forall_mem_map.2 fun arm _ => armEnd_notMem_armBody arm)]
  exact mapM_map_eq_some fun arm _ => arm?_armBody arm

/-- The lines of a fixup from its head on. -/
def functionLines (fixup : Fixup) : List String :=
  if fixup.isEmpty then opening ++ closing
  else (opening ++ [choice]) ++ fixup.flatMap Bindings.armLines ++ (others ++ closing ++ shifting)

/-- The lines of a fixup in front of its head. -/
def docLines : List String :=
  ["",
   "/// Rebase every pointer of an encoded scene buffer in place.",
   "///",
   "/// # Safety",
   "///",
   "/// `data` must point to a writable, unresolved scene buffer encoded for",
   "/// `SCHEMA_FINGERPRINT` and aligned to 64 bytes. A buffer must not be",
   "/// passed to this function twice."]

theorem fixupLines_eq (fixup : Fixup) :
    Bindings.fixupLines fixup = docLines ++ functionLines fixup := by
  cases fixup with
  | nil => rfl
  | cons arm rest =>
      rw [Bindings.fixupLines, Bindings.armsLines, Bindings.rebaseLines, functionLines]
      simp only [List.isEmpty_cons, Bool.false_eq_true, if_false]
      simp only [List.append_assoc]
      rfl

/-- **The lines of a fixup can be read back**, behind lines that are not its head. -/
theorem ofLines?_fixupLines {front : List String} (h : ∀ line ∈ front, line ≠ head)
    (fixup : Fixup) : ofLines? (front ++ Bindings.fixupLines fixup) = some fixup := by
  have hfront : ∀ line ∈ front ++ docLines, line ≠ head :=
    List.forall_mem_append.2 ⟨h, by decide⟩
  have hfunction : (front ++ Bindings.fixupLines fixup).dropWhile (· ≠ head) =
      functionLines fixup := by
    rw [fixupLines_eq, ← List.append_assoc,
      List.dropWhile_append_of_pos fun line hline => decide_eq_true (hfront line hline)]
    rw [functionLines]
    split
    · rfl
    · rfl
  rw [ofLines?, hfunction, functionLines]
  split
  · next hempty =>
      rw [if_pos rfl, List.isEmpty_iff.1 hempty]
  · -- the first line behind the opening tells that there are arms
    rw [if_neg ?_, between?_append]
    · exact mapM_arm?_pieces fixup
    · intro hsame
      simp only [List.append_assoc] at hsame
      have hline := List.head_eq_of_cons_eq (List.append_cancel_left hsame)
      exact absurd hline (by decide)

/-- **Bindings spell the fixup of their registry.** -/
theorem ofText?_bindings {registry : Registry} {schema : Schema} (hlists : registry.Lists schema)
    {text : String} (h : registry.bindings = .ok text) :
    ofText? text = some (ofRegistry registry) := by
  obtain ⟨bindings, hdescribes, rfl⟩ := Bindings.exists_describes hlists h
  rw [ofText?, hdescribes.linesOf?_render, Option.bind_some, ← hdescribes.fixup]
  exact ofLines?_fixupLines (fun line hline => (hdescribes.beforeFixup line hline).2) bindings.fixup

end Fixup

/-- **The fixup that bindings spell does what a relocation does.**  If a relocation of an image
succeeds, the program that the text of the bindings spells ends with the same bytes. -/
theorem Registry.bindings_relocate {registry : Registry} (hexact : registry.Exact) {text : String}
    (htext : registry.bindings = .ok text) {base count : Nat} {bytes after : Bytes}
    (h : relocate registry base bytes = (.ok count, after)) :
    ∃ fixup, Fixup.ofText? text = some fixup ∧ fixup.run base bytes = some after := by
  obtain ⟨schema, config, hbuild⟩ := id hexact
  exact ⟨Fixup.ofRegistry registry, Fixup.ofText?_bindings (lists_of_build hbuild) htext,
    Fixup.run_ofRegistry hexact h⟩

/-- The sample has bindings, and the fixup that they spell relocates its image by 4096. -/
theorem Registry.bindings_relocate_sample : ∃ text, Sample.registry.Exact ∧
    Sample.registry.bindings = .ok text ∧
    relocate Sample.registry 4096 Sample.image = (.ok 5, Sample.relocated) ∧
    ∃ fixup, Fixup.ofText? text = some fixup ∧
      fixup.run 4096 Sample.image = some Sample.relocated := by
  obtain ⟨text, htext⟩ := Sample.exists_bindings
  exact ⟨text, Sample.exact, htext, Sample.relocate_image,
    bindings_relocate Sample.exact htext Sample.relocate_image⟩

end ScenePack
