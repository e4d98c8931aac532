/-
**Scanning an image.**

Before an image is read or changed, all of it is checked: its tables lie inside and are aligned,
its ranges name types and cover the directory, its records lie inside and are aligned, nothing
overlaps, and every pointer leads to a text or to a record of the right type.  Pointers hold a
position plus a base address.

Main definitions:

* `offsetOf`, `region` — the position that a pointer leads to, and that of a table or a record;
* `Bytes.readRange`, `Bytes.readSlot`, `Bytes.readText` — what is read at a position;
* `Entry`, `readEntries` — the records of the directory;
* `structureSpans` — the spans of the fixed parts;
* `Scan`, `scan` — the check of an image, and what it found.
-/

import ScenePack.Image.Error
import ScenePack.Image.Format
import ScenePack.Image.Span
import ScenePack.Layout.Registry
import ScenePack.Text.Utf8

set_option relaxedAutoImplicit false
set_option autoImplicit false

namespace ScenePack

/-! ### Pointers -/

/-- The position that a pointer leads to, if it is inside. -/
def offsetOf (value base length : Nat) : Except ImageError Nat :=
  if base ≤ value ∧ value - base < length then .ok (value - base)
  else .error (.outOfBounds value base length)

/-- The position of `count` items of `size` bytes that a pointer leads to, if they are inside and
aligned. -/
def region (value base length count size align : Nat) : Except ImageError Nat :=
  if base ≤ value ∧ value - base + count * size ≤ length then
    if (value - base) % align = 0 then .ok (value - base)
    else .error (.misaligned (value - base) align)
  else .error (.outOfBounds value base length)

namespace Bytes

/-- The word at a position. -/
def readSlot (bytes : Bytes) (position : Nat) : Except ImageError Nat :=
  match bytes.word? Address.width position with
  | some value => .ok value
  | none => .error (.truncated (position + Address.width) bytes.length)

theorem le_of_readSlot {bytes : Bytes} {position value : Nat}
    (h : bytes.readSlot position = .ok value) : position + Address.width ≤ bytes.length := by
  unfold readSlot at h
  split at h
  · next hword =>
      obtain ⟨span, hspan, _⟩ := Option.map_eq_some_iff.1 hword
      exact Nat.not_lt.1 fun hlt => by simp [slice?_eq_none_iff.2 hlt] at hspan
  · cases h

/-- The range at a position. -/
def readRange (bytes : Bytes) (position : Nat) : Except ImageError Range :=
  match Range.decode? bytes position with
  | some range => .ok range
  | none => .error (.truncated (position + Range.size) bytes.length)

/-- The text at a position, up to the first zero byte. -/
def readText (bytes : Bytes) (position : Nat) : Except ImageError String :=
  let tail := bytes.drop position
  if tail.contains 0 then
    match Utf8.decode? (tail.takeWhile (· ≠ 0)) with
    | some text => .ok text
    | none => .error (.invalidText position)
  else .error (.unterminatedText position)

/-- The header of an image. -/
def readHeader (bytes : Bytes) : Except ImageError Header :=
  match Header.decode? bytes with
  | some header => .ok header
  | none => .error (.truncated Header.size bytes.length)

end Bytes

/-! ### The directory -/

/-- A record that the directory lists. -/
structure Entry where
  offset : Nat
  layout : RecordLayout
  deriving DecidableEq

/-- The record of the directory at an index, of the given type. -/
def readEntry (bytes : Bytes) (base directoryAt : Nat) (layout : RecordLayout) (index : Nat) :
    Except ImageError Entry := do
  let value ← bytes.readSlot (directoryAt + index * Address.width)
  let offset ← region value base bytes.length 1 layout.size layout.align
  .ok ⟨offset, layout⟩

/-- The records of the directory that the ranges cover, and the count of instances that the ranges
declare.  The reading stops once that count is past the limit. -/
def readEntries (registry : Registry) (bytes : Bytes) (base rangesAt directoryAt limit : Nat) :
    (remaining range total : Nat) → List Entry → Except ImageError (Nat × List Entry)
  | 0, _, total, entries => .ok (total, entries)
  | remaining + 1, index, total, entries => do
      let range ← bytes.readRange (rangesAt + index * Range.size)
      match registry.layout? range.typeId with
      | none => .error (.unknownTypeId range.typeId index)
      | some layout =>
          if limit < total + range.count then .ok (total + range.count, entries)
          else do
            let run ← (List.range range.count).mapM fun i =>
              readEntry bytes base directoryAt layout (total + i)
            readEntries registry bytes base rangesAt directoryAt limit remaining (index + 1)
              (total + range.count) (entries ++ run)

/-! ### The structure -/

/-- The spans of the header, the tables and the records, in order.  They must be disjoint. -/
def structureSpans (header : Header) (rangesAt directoryAt : Nat) (entries : List Entry) :
    Except ImageError (List Span) :=
  let spans := Span.sorted
    (⟨0, Header.size⟩ ::
      ⟨rangesAt, rangesAt + header.rangeCount * Range.size⟩ ::
      ⟨directoryAt, directoryAt + header.count * Address.width⟩ ::
      entries.map fun entry => ⟨entry.offset, entry.offset + entry.layout.size⟩)
  match Span.firstOverlap? spans with
  | some offset => .error (.overlapping offset)
  | none => .ok spans

/-- A pointer of a record leads nowhere, to a text outside the structure, or to a record of the
directory of the right type.  Returns its position unless it leads nowhere. -/
def checkSlot (registry : Registry) (bytes : Bytes) (base : Nat) (spans : List Span)
    (entries : List Entry) (entry : Entry) (slot : PointerSlot) :
    Except ImageError (Option Nat) := do
  let position := entry.offset + slot.offset
  let value ← bytes.readSlot position
  if value = 0 then .ok none
  else do
    let target ← offsetOf value base bytes.length
    match slot.kind with
    | .text =>
        if Span.covers spans target then .error (.overlapping target)
        else do
          let _ ← bytes.readText target
          .ok (some position)
    | .ref expected =>
        match entries.find? fun other => other.offset = target with
        | none => .error (.invalidReference entry.layout.name target)
        | some found =>
            if found.layout.id = expected then .ok (some position)
            else .error (.referenceMismatch (registry.describe expected)
              (registry.describe found.layout.id) target)

/-! ### The scan -/

/-- What a scan found: the positions of the tables, the records, and the positions of all pointers
that lead somewhere. -/
structure Scan where
  header : Header
  rangesAt : Nat
  directoryAt : Nat
  entries : List Entry
  slots : List Nat
  deriving DecidableEq

/-- The positions of the two pointers of the header and of those of the directory. -/
def tableSlots (directoryAt count : Nat) : List Nat :=
  Header.directorySlot :: Header.rangesSlot ::
    (List.range count).map fun index => directoryAt + index * Address.width

/-- The check of an image whose pointers hold positions plus `base`. -/
def scan (registry : Registry) (base : Nat) (bytes : Bytes) : Except ImageError Scan := do
  let length := bytes.length
  let header ← bytes.readHeader
  let rangesAt ← region header.ranges base length header.rangeCount Range.size Range.align
  let directoryAt ← region header.directory base length header.count Address.width Address.width
  let (total, entries) ← readEntries registry bytes base rangesAt directoryAt header.count
    header.rangeCount 0 0 []
  if total ≠ header.count then .error (.countMismatch total header.count)
  else do
    let spans ← structureSpans header rangesAt directoryAt entries
    let slots ← (entries.flatMap fun entry => entry.layout.slots.map (entry, ·)).mapM
      fun place => checkSlot registry bytes base spans entries place.1 place.2
    .ok
      { header
        rangesAt
        directoryAt
        entries
        slots := tableSlots directoryAt header.count ++ slots.filterMap id }

end ScenePack
