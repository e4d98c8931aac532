/-
**Decoding with guards.**

A decoder for a machine computes positions in words, and reaches for the items of tables and for
parts of byte strings.  Few of these operations are checked where they stand: a sum fits its word
and a part lies inside because of a check that was made long before, elsewhere.  The decoder is
spelled out here once more with a guard at each operation, which stops it if the operation would
leave its range.  In an address space that holds the bytes no guard ever stops it.

Main definitions:

* `DecodeFault` — what can stop a decoder with guards;
* `Guarded.word`, `Guarded.remainder`, `Guarded.part`, `Guarded.reserve` — operations with guards;
* `Guarded.scan`, `Guarded.relocate` — the check of an image and its relocation, with guards;
* `Guarded.lift` — the outcome of a step of the decoder, as one of the decoder with guards.

Main results:

* `Guarded.lift_ne_outside` — an outcome of the decoder is never the doing of a guard;
* `Guarded.bind_eq_lift`, `Guarded.mapM_eq_lift` — steps that no guard stops, in sequence;
* `Guarded.readEntries_eq` — **the loop over the ranges stays inside** both tables;
* `Guarded.scan_eq` — **no guard stops a scan**;
* `Guarded.relocate_eq` — **no guard stops a relocation**.
-/

import ScenePack.Proofs.Image.Relocation

set_option relaxedAutoImplicit false
set_option autoImplicit false

namespace ScenePack

/-- What can stop a decoder with guards: an operation that would leave its range, or an error of the
image. -/
inductive DecodeFault where
  | outside
  | image (error : ImageError)
  deriving DecidableEq

namespace Guarded

/-! ### Operations with guards -/

/-- A sum or a product, which must be an address. -/
def word (value : Nat) : Except DecodeFault Nat :=
  if value < Address.space then .ok value else .error .outside

/-- A sum or a product that is checked where it stands. -/
def checked? (value : Nat) : Option Nat := if value < Address.space then some value else none

/-- A remainder, whose divisor must not be zero. -/
def remainder (value divisor : Nat) : Except DecodeFault Nat :=
  if divisor = 0 then .error .outside else .ok (value % divisor)

/-- The number before another, which must not be zero. -/
def previous (value : Nat) : Except DecodeFault Nat :=
  if value = 0 then .error .outside else .ok (value - 1)

/-- The item of a list at an index, which must lie inside. -/
def item {α : Type} (items : List α) (index : Nat) : Except DecodeFault α :=
  match items[index]? with
  | some found => .ok found
  | none => .error .outside

/-- The bytes from a start up to a stop, which must lie inside in this order. -/
def part (bytes : Bytes) (start stop : Nat) : Except DecodeFault Bytes :=
  if start ≤ stop ∧ stop ≤ bytes.length then .ok ((bytes.drop start).take (stop - start))
  else .error .outside

/-- The bytes with a span replaced, which must lie inside. -/
def replace (bytes : Bytes) (start : Nat) (span : Bytes) : Except DecodeFault Bytes := do
  let stop ← word (start + span.length)
  if stop ≤ bytes.length then .ok (bytes.overwrite start span) else .error .outside

/-- Room for some records, which must not be more than there are words in the image. -/
def reserve (length count : Nat) : Except DecodeFault Unit :=
  if count ≤ length / Address.width then .ok () else .error .outside

/-- The position of an item of a table. -/
def tablePosition (start index size : Nat) : Except DecodeFault Nat := do
  let skipped ← word (index * size)
  word (start + skipped)

/-! ### The scan -/

/-- The position of items that a pointer leads to.  All of its sums are checked where they
stand. -/
def region (value base length count size align : Nat) : Except DecodeFault Nat :=
  if value < base then .error (.image (.outOfBounds value base length))
  else
    let position := value - base
    match (checked? (count * size)).bind fun room => checked? (position + room) with
    | none => .error (.image (.outOfBounds value base length))
    | some stop =>
        if length < stop then .error (.image (.outOfBounds value base length))
        else do
          let rest ← remainder position align
          if rest = 0 then .ok position else .error (.image (.misaligned position align))

/-- The outcome of a step of the decoder, as one of the decoder with guards that no guard has
stopped. -/
def lift {α : Type} (outcome : Except ImageError α) : Except DecodeFault α :=
  outcome.mapError .image

/-- The word at a position. -/
def readSlot (bytes : Bytes) (position : Nat) : Except DecodeFault Nat := do
  let _ ← word (position + Address.width)
  lift (bytes.readSlot position)

/-- The range at a position. -/
def readRange (bytes : Bytes) (position : Nat) : Except DecodeFault Range := do
  let _ ← word (position + Range.size)
  lift (bytes.readRange position)

/-- The text at a position, up to the first zero byte. -/
def readText (bytes : Bytes) (position : Nat) : Except DecodeFault String :=
  if bytes.length < position then .error (.image (.unterminatedText position))
  else
    let tail := bytes.drop position
    match tail.findIdx? (· = 0) with
    | none => .error (.image (.unterminatedText position))
    | some stop => do
        let content ← part tail 0 stop
        match Utf8.decode? content with
        | some text => .ok text
        | none => .error (.image (.invalidText position))

/-- The record of the directory at an index, of the given type. -/
def readEntry (bytes : Bytes) (base directoryAt : Nat) (layout : RecordLayout) (index : Nat) :
    Except DecodeFault Entry := do
  let slot ← tablePosition directoryAt index Address.width
  let value ← readSlot bytes slot
  let offset ← region value base bytes.length 1 layout.size layout.align
  .ok ⟨offset, layout⟩

/-- The records of the directory that the ranges cover, and the count of instances that the ranges
declare.  The place of a record in the directory is the count of the records before it. -/
def readEntries (registry : Registry) (bytes : Bytes) (base rangesAt directoryAt limit : Nat) :
    (remaining range total : Nat) → List Entry → Except DecodeFault (Nat × List Entry)
  | 0, _, total, entries => .ok (total, entries)
  | remaining + 1, index, total, entries => do
      let position ← tablePosition rangesAt index Range.size
      let range ← readRange bytes position
      match registry.layout? range.typeId with
      | none => .error (.image (.unknownTypeId range.typeId index))
      | some layout => do
          let next ← word (total + range.count)
          if limit < next then .ok (next, entries)
          else do
            let run ← (List.range range.count).mapM fun i =>
              readEntry bytes base directoryAt layout (entries.length + i)
            readEntries registry bytes base rangesAt directoryAt limit remaining (index + 1) next
              (entries ++ run)

/-- The spans of the header, the tables and the records, in order.  They must be disjoint. -/
def structureSpans (header : Header) (rangesAt directoryAt : Nat) (entries : List Entry) :
    Except DecodeFault (List Span) := do
  let _ ← word (entries.length + 3)
  let rangesEnd ← tablePosition rangesAt header.rangeCount Range.size
  let directoryEnd ← tablePosition directoryAt header.count Address.width
  let records ← entries.mapM fun entry => do
    let stop ← word (entry.offset + entry.layout.size)
    .ok (⟨entry.offset, stop⟩ : Span)
  let spans := Span.sorted
    (⟨0, Header.size⟩ :: ⟨rangesAt, rangesEnd⟩ :: ⟨directoryAt, directoryEnd⟩ :: records)
  match Span.firstOverlap? spans with
  | some offset => .error (.image (.overlapping offset))
  | none => .ok spans

/-- Whether a position lies in one of sorted disjoint spans. -/
def covers (spans : List Span) (position : Nat) : Except DecodeFault Bool :=
  let next := (spans.takeWhile fun span => span.start ≤ position).length
  if next = 0 then .ok false
  else do
    let last ← previous next
    let span ← item spans last
    .ok (position < span.stop)

/-- The check of a pointer of a record.  Returns its position unless it leads nowhere. -/
def checkSlot (registry : Registry) (bytes : Bytes) (base : Nat) (spans : List Span)
    (entries : List Entry) (entry : Entry) (slot : PointerSlot) :
    Except DecodeFault (Option Nat) := do
  let position ← word (entry.offset + slot.offset)
  let value ← readSlot bytes position
  if value = 0 then .ok none
  else do
    let target ← lift (offsetOf value base bytes.length)
    match slot.kind with
    | .text => do
        let covered ← covers spans target
        if covered then .error (.image (.overlapping target))
        else do
          let _ ← readText bytes target
          .ok (some position)
    | .ref expected =>
        match entries.find? fun other => other.offset = target with
        | none => .error (.image (.invalidReference entry.layout.name target))
        | some found =>
            if found.layout.id = expected then .ok (some position)
            else .error (.image (.referenceMismatch (registry.describe expected)
              (registry.describe found.layout.id) target))

/-- The check of an image whose pointers hold positions plus `base`. -/
def scan (registry : Registry) (base : Nat) (bytes : Bytes) : Except DecodeFault Scan := do
  let length := bytes.length
  let header ← lift bytes.readHeader
  let rangesAt ← region header.ranges base length header.rangeCount Range.size Range.align
  let directoryAt ← region header.directory base length header.count Address.width Address.width
  reserve length header.count
  let (total, entries) ← readEntries registry bytes base rangesAt directoryAt header.count
    header.rangeCount 0 0 []
  if total ≠ header.count then .error (.image (.countMismatch total header.count))
  else do
    let spans ← structureSpans header rangesAt directoryAt entries
    let slots ← (entries.flatMap fun entry => entry.layout.slots.map (entry, ·)).mapM
      fun place => checkSlot registry bytes base spans entries place.1 place.2
    .ok
      { header
        rangesAt
        directoryAt
        entries
        slots := tableSlots directoryAt header.count ++ slots.filterMap id }

/-! ### The relocation -/

/-- The bytes with a base added to the word at a position. -/
def patchSlot (base slot : Nat) (bytes : Bytes) : Except DecodeFault Bytes := do
  let offset ← readSlot bytes slot
  let value ← word (base + offset)
  replace bytes slot (Word.encode Address.width value)

/-- The bytes with a base added to the words at the given positions, one after the other. -/
def patch (base : Nat) : List Nat → Bytes → Except DecodeFault Unit × Bytes
  | [], bytes => (.ok (), bytes)
  | slot :: rest, bytes =>
      match patchSlot base slot bytes with
      | .error fault => (.error fault, bytes)
      | .ok after => patch base rest after

/-- The relocation of an image with plain positions: the count of pointers that were changed, and
the bytes after it. -/
def relocate (registry : Registry) (base : Nat) (bytes : Bytes) :
    Except DecodeFault Nat × Bytes :=
  match scan registry 0 bytes with
  | .error fault => (.error fault, bytes)
  | .ok found =>
      match checked? (base + bytes.length) with
      | none => (.error (.image (.addressOverflow base)), bytes)
      | some _ =>
          let (outcome, after) := patch base found.slots bytes
          (outcome.map fun _ => found.slots.length, after)

/-! ### Steps that no guard stops -/

section Steps

variable {α β : Type}

@[simp] theorem lift_ok (value : α) : lift (.ok value) = .ok value := rfl

@[simp] theorem lift_error (error : ImageError) :
    lift (.error error : Except ImageError α) = .error (.image error) := rfl

/-- What a step of the decoder comes to is never the doing of a guard, so that a step with guards
that comes to the same was not stopped. -/
theorem lift_ne_outside (outcome : Except ImageError α) : lift outcome ≠ .error .outside := by
  cases outcome <;> simp

/-- **Two steps that no guard stops**, the second after every result of the first, are not stopped
in sequence. -/
theorem bind_eq_lift {first : Except ImageError α} {next : α → Except ImageError β}
    {guarded : Except DecodeFault α} {guardedNext : α → Except DecodeFault β}
    (hfirst : guarded = lift first)
    (hnext : ∀ value, first = .ok value → guardedNext value = lift (next value)) :
    guarded >>= guardedNext = lift (first >>= next) := by
  subst hfirst
  cases first with
  | error error => rfl
  | ok value => exact hnext value rfl

/-- A guard that lets a result pass can be left out. -/
theorem bind_eq_lift_of_ok {guarded : Except DecodeFault α} {value : α}
    {guardedNext : α → Except DecodeFault β} {outcome : Except ImageError β}
    (hguard : guarded = .ok value) (hnext : guardedNext value = lift outcome) :
    guarded >>= guardedNext = lift outcome := by
  subst hguard
  exact hnext

/-- A step for each item of a list, which no guard stops. -/
theorem mapM_eq_lift {step : α → Except ImageError β} {guarded : α → Except DecodeFault β}
    {items : List α} (h : ∀ item ∈ items, guarded item = lift (step item)) :
    items.mapM guarded = lift (items.mapM step) := by
  induction items with
  | nil => rfl
  | cons head rest ih =>
      obtain ⟨hhead, hrest⟩ := List.forall_mem_cons.1 h
      rw [List.mapM_cons, List.mapM_cons]
      exact bind_eq_lift hhead fun _ _ => bind_eq_lift (ih hrest) fun _ _ => rfl

theorem word_eq {value : Nat} (h : value < Address.space) : word value = .ok value := if_pos h

theorem remainder_eq {divisor : Nat} (h : 0 < divisor) (value : Nat) :
    remainder value divisor = .ok (value % divisor) :=
  if_neg (Nat.ne_of_gt h)

theorem tablePosition_eq {start index size : Nat} (h : start + index * size < Address.space) :
    tablePosition start index size = .ok (start + index * size) := by
  rw [tablePosition, word_eq (Nat.lt_of_le_of_lt (Nat.le_add_left _ _) h)]
  exact word_eq h

theorem part_eq {bytes : Bytes} {start size : Nat} (h : start + size ≤ bytes.length) :
    part bytes start (start + size) = .ok ((bytes.drop start).take size) := by
  rw [part, if_pos ⟨Nat.le_add_right _ _, h⟩, Nat.add_sub_cancel_left]

theorem replace_eq {bytes span : Bytes} {start : Nat} (hlength : bytes.length < Address.space)
    (h : start + span.length ≤ bytes.length) :
    replace bytes start span = .ok (bytes.overwrite start span) := by
  rw [replace, word_eq (Nat.lt_of_le_of_lt h hlength)]
  exact if_pos h

end Steps

/-! ### What is read at a position -/

section Reading

variable {bytes : Bytes} {position : Nat}

/-- The position of items is found without a guard, if their alignment is a divisor. -/
theorem region_eq {value base length count size align : Nat} (halign : 0 < align)
    (hlength : length < Address.space) :
    region value base length count size align =
      lift (ScenePack.region value base length count size align) := by
  unfold region ScenePack.region
  by_cases hbase : base ≤ value
  swap
  · rw [if_pos (Nat.not_le.1 hbase), if_neg fun h => hbase h.1]
    rfl
  rw [if_neg (Nat.not_lt.2 hbase)]
  by_cases hinside : value - base + count * size ≤ length
  · have hroom : checked? (count * size) = some (count * size) := if_pos (by omega)
    have hstop : checked? (value - base + count * size) = some (value - base + count * size) :=
      if_pos (by omega)
    dsimp only
    rw [if_pos ⟨hbase, hinside⟩, hroom, Option.bind_some, hstop]
    dsimp only
    rw [if_neg (Nat.not_lt.2 hinside), remainder_eq halign]
    by_cases hrest : (value - base) % align = 0
    · rw [if_pos hrest]
      exact if_pos hrest
    · rw [if_neg hrest]
      exact if_neg hrest
  · -- what does not fit a word does not lie inside
    rw [if_neg fun h => hinside h.2]
    dsimp only
    split
    · rfl
    next stop hstop =>
    obtain ⟨room, hroom, hstop⟩ := Option.bind_eq_some_iff.1 hstop
    obtain ⟨-, rfl⟩ : count * size < Address.space ∧ count * size = room := by
      simpa [checked?] using hroom
    obtain ⟨-, rfl⟩ : value - base + count * size < Address.space ∧
        value - base + count * size = stop := by
      simpa [checked?] using hstop
    rw [if_pos (Nat.not_le.1 hinside)]
    rfl

theorem readSlot_eq (h : position + Address.width < Address.space) :
    readSlot bytes position = lift (bytes.readSlot position) := by
  rw [readSlot, word_eq h]
  rfl

theorem readRange_eq (h : position + Range.size < Address.space) :
    readRange bytes position = lift (bytes.readRange position) := by
  rw [readRange, word_eq h]
  rfl

/-- A text is read wherever it stands: the first zero byte is inside of what follows. -/
theorem readText_eq (bytes : Bytes) (position : Nat) :
    readText bytes position = lift (bytes.readText position) := by
  unfold readText Bytes.readText
  by_cases houtside : bytes.length < position
  · rw [if_pos houtside, List.drop_eq_nil_of_le (Nat.le_of_lt houtside)]
    rfl
  rw [if_neg houtside]
  dsimp only
  by_cases hzero : (0 : UInt8) ∈ bytes.drop position
  · obtain ⟨front, rest, htail, hfree⟩ := List.eq_append_cons_of_mem hzero
    have hfirst : (front ++ 0 :: rest).findIdx? (· = 0) = some front.length := by
      have hnone : front.findIdx? (· = 0) = none := by
        refine List.findIdx?_eq_none_iff.2 fun byte hbyte => ?_
        simpa using fun h : byte = 0 => hfree (h ▸ hbyte)
      simp [List.findIdx?_append, hnone, List.findIdx?_cons]
    have hpart : part (front ++ 0 :: rest) 0 front.length = .ok front := by
      simp [part]
    rw [if_pos (List.contains_iff_mem.2 hzero), htail, hfirst, Bytes.takeWhile_append_zero hfree]
    dsimp only
    rw [hpart]
    cases hdecode : Utf8.decode? front with
    | none =>
        dsimp only [lift, Except.mapError]
        simp only [bind, Except.bind, hdecode]
    | some text =>
        dsimp only [lift, Except.mapError]
        simp only [bind, Except.bind, hdecode]
  · have hnone : (bytes.drop position).findIdx? (· = 0) = none := by
      refine List.findIdx?_eq_none_iff.2 fun byte hbyte => ?_
      simpa using fun h : byte = 0 => hzero (h ▸ hbyte)
    rw [if_neg (fun h => hzero (List.contains_iff_mem.1 h)), hnone]
    rfl

end Reading

/-! ### The directory -/

theorem item_inside {start index count size length : Nat} (hindex : index < count)
    (h : start + count * size ≤ length) : start + index * size + size ≤ length := by
  have hitem : (index + 1) * size ≤ count * size := Nat.mul_le_mul_right size hindex
  rw [Nat.succ_mul] at hitem
  omega

theorem count_lt_of_readRange {bytes : Bytes} {position : Nat} {range : Range}
    (h : bytes.readRange position = .ok range) : range.count < Range.countLimit := by
  obtain ⟨typeId, -, hrange⟩ := Option.bind_eq_some_iff.1 (Bytes.readRange_eq_ok_iff.1 h)
  obtain ⟨count, hcount, hrange⟩ := Option.bind_eq_some_iff.1 hrange
  cases hrange
  exact Bytes.word?_lt hcount

section Directory

variable {registry : Registry} {bytes : Bytes} {base rangesAt directoryAt limit : Nat}

/-- An entry of the directory is read without a guard, if its word lies inside. -/
theorem readEntry_eq {layout : RecordLayout} {index : Nat} (hlength : bytes.length < Address.space)
    (halign : 0 < layout.align)
    (hinside : directoryAt + index * Address.width + Address.width ≤ bytes.length) :
    readEntry bytes base directoryAt layout index =
      lift (ScenePack.readEntry bytes base directoryAt layout index) := by
  have hslot : directoryAt + index * Address.width + Address.width < Address.space :=
    Nat.lt_of_le_of_lt hinside hlength
  refine bind_eq_lift_of_ok (tablePosition_eq (by omega)) ?_
  refine bind_eq_lift (readSlot_eq hslot) fun value _ => ?_
  exact bind_eq_lift (region_eq halign hlength) fun offset _ => rfl

/-- **The loop over the ranges stays inside both tables.**  The count of the instances so far is
the count of the entries, and no more than there are words in the directory. -/
theorem readEntries_eq (hsound : registry.Sound) (hlength : bytes.length < Address.space)
    (hdirectory : directoryAt + limit * Address.width ≤ bytes.length)
    (remaining : Nat) {index rangeCount total : Nat} {entries : List Entry}
    (hranges : rangesAt + rangeCount * Range.size ≤ bytes.length)
    (hindex : index + remaining = rangeCount) (htotal : entries.length = total)
    (hlimit : total ≤ limit) :
    readEntries registry bytes base rangesAt directoryAt limit remaining index total entries =
      lift (ScenePack.readEntries registry bytes base rangesAt directoryAt limit remaining index
        total entries) := by
  induction remaining generalizing index total entries with
  | zero => rfl
  | succ remaining ih =>
      have hrangeInside := item_inside (show index < rangeCount by omega) hranges
      refine bind_eq_lift_of_ok (tablePosition_eq (by omega)) ?_
      refine bind_eq_lift (readRange_eq (by omega)) fun range hrange => ?_
      cases hlayout : registry.layout? range.typeId with
      | none => rfl
      | some layout =>
          have hcount := count_lt_of_readRange hrange
          have hroom : limit * 8 < 2 ^ 64 := by
            have : directoryAt + limit * 8 ≤ bytes.length := hdirectory
            have : bytes.length < 2 ^ 64 := hlength
            omega
          have hnext : total + range.count < Address.space := by
            have : range.count < 2 ^ 32 := hcount
            have : Address.space = 2 ^ 64 := by decide
            omega
          refine bind_eq_lift_of_ok (word_eq hnext) ?_
          dsimp only
          by_cases hpast : limit < total + range.count
          · rw [if_pos hpast, if_pos hpast]
            rfl
          rw [if_neg hpast, if_neg hpast, htotal]
          refine bind_eq_lift (mapM_eq_lift fun i hi => ?_) fun run hrun => ?_
          · have hplace : total + i < limit := by
              have := List.mem_range.1 hi
              omega
            exact readEntry_eq hlength (hsound _ layout hlayout).2.align_pos
              (item_inside hplace hdirectory)
          · have hrunLength := (mapM_eq_ok_iff.1 hrun).length_eq
            rw [List.length_range] at hrunLength
            refine ih (by omega) ?_ (by omega)
            rw [List.length_append]
            omega

end Directory

/-! ### The scan -/

section Scan

variable {registry : Registry} {bytes : Bytes} {base : Nat}

theorem structureSpans_eq {header : Header} {rangesAt directoryAt : Nat} {entries : List Entry}
    (hlength : bytes.length < Address.space)
    (hranges : rangesAt + header.rangeCount * Range.size ≤ bytes.length)
    (hdirectory : directoryAt + header.count * Address.width ≤ bytes.length)
    (hcount : entries.length = header.count)
    (hfits : ∀ entry ∈ entries, entry.offset + entry.layout.size ≤ bytes.length) :
    structureSpans header rangesAt directoryAt entries =
      lift (ScenePack.structureSpans header rangesAt directoryAt entries) := by
  have hroom : entries.length + 3 < Address.space := by
    have : directoryAt + header.count * 8 ≤ bytes.length := hdirectory
    have : bytes.length < 2 ^ 64 := hlength
    have : Address.space = 2 ^ 64 := by decide
    omega
  have hrecords : (entries.mapM fun entry => do
      let stop ← word (entry.offset + entry.layout.size)
      .ok (⟨entry.offset, stop⟩ : Span)) =
        Except.ok (entries.map fun entry => ⟨entry.offset, entry.offset + entry.layout.size⟩) := by
    refine mapM_eq_ok_iff.2 (List.forall₂_map_right_iff.2 (List.forall₂_same.2 ?_))
    intro entry hentry
    rw [word_eq (Nat.lt_of_le_of_lt (hfits entry hentry) hlength)]
    rfl
  refine bind_eq_lift_of_ok (word_eq hroom) ?_
  refine bind_eq_lift_of_ok (tablePosition_eq (Nat.lt_of_le_of_lt hranges hlength)) ?_
  refine bind_eq_lift_of_ok (tablePosition_eq (Nat.lt_of_le_of_lt hdirectory hlength)) ?_
  refine bind_eq_lift_of_ok hrecords ?_
  have hoverlap : ∀ spans : List Span,
      (match Span.firstOverlap? spans with
        | some offset => .error (.image (.overlapping offset))
        | none => .ok spans : Except DecodeFault (List Span)) =
      lift (match Span.firstOverlap? spans with
        | some offset => .error (.overlapping offset)
        | none => .ok spans) := fun spans => by
    cases Span.firstOverlap? spans <;> rfl
  exact hoverlap _

theorem covers_eq (spans : List Span) (position : Nat) :
    covers spans position = .ok (Span.covers spans position) := by
  obtain ⟨rest, hrest⟩ :=
    List.takeWhile_prefix (fun span : Span => decide (span.start ≤ position)) (l := spans)
  unfold covers Span.covers
  dsimp only
  rcases List.eq_nil_or_concat (spans.takeWhile fun span => span.start ≤ position) with
    hnone | ⟨front, last, hlast⟩
  · rw [hnone]
    rfl
  · rw [List.concat_eq_append] at hlast
    have hprevious : previous (front ++ [last]).length = .ok front.length := by
      simp [previous]
    have hitem : item spans front.length = .ok last := by
      rw [item, ← hrest, hlast]
      simp
    rw [hlast, if_neg (by simp), List.getLast?_concat, hprevious]
    refine bind_eq_ok_iff.2 ⟨_, rfl, ?_⟩
    rw [hitem]
    rfl

/-- The check of a pointer is made without a guard, if the pointer lies inside. -/
theorem checkSlot_eq {spans : List Span} {entries : List Entry} {entry : Entry}
    {slot : PointerSlot} (hlength : bytes.length < Address.space)
    (hinside : entry.offset + slot.offset + Address.width ≤ bytes.length) :
    checkSlot registry bytes base spans entries entry slot =
      lift (ScenePack.checkSlot registry bytes base spans entries entry slot) := by
  have hslot : entry.offset + slot.offset + Address.width < Address.space :=
    Nat.lt_of_le_of_lt hinside hlength
  refine bind_eq_lift_of_ok (word_eq (by omega)) ?_
  refine bind_eq_lift (readSlot_eq hslot) fun value _ => ?_
  by_cases hzero : value = 0
  · rw [if_pos hzero, if_pos hzero]
    rfl
  rw [if_neg hzero, if_neg hzero]
  refine bind_eq_lift rfl fun target _ => ?_
  cases slot.kind with
  | text =>
      refine bind_eq_lift_of_ok (covers_eq spans target) ?_
      by_cases hcovers : Span.covers spans target = true
      · rw [if_pos hcovers]
        dsimp only
        rw [if_pos hcovers]
        rfl
      · rw [if_neg hcovers]
        dsimp only
        rw [if_neg hcovers]
        exact bind_eq_lift (readText_eq bytes target) fun _ _ => rfl
  | ref expected =>
      dsimp only
      cases entries.find? fun other => other.offset = target with
      | none => rfl
      | some found =>
          dsimp only
          split <;> rfl

/-- **No guard stops a scan.** -/
theorem scan_eq (hsound : registry.Sound) (hlength : bytes.length < Address.space) :
    scan registry base bytes = lift (ScenePack.scan registry base bytes) := by
  refine bind_eq_lift rfl fun header _ => ?_
  refine bind_eq_lift (region_eq (by decide) hlength) fun rangesAt hrangesAt => ?_
  refine bind_eq_lift (region_eq (by decide) hlength) fun directoryAt hdirectoryAt => ?_
  obtain ⟨-, hranges, -⟩ := region_eq_ok_iff.1 hrangesAt
  obtain ⟨-, hdirectory, -⟩ := region_eq_ok_iff.1 hdirectoryAt
  have hroom : header.count ≤ bytes.length / Address.width :=
    (Nat.le_div_iff_mul_le (by decide)).2 (Nat.le_trans (Nat.le_add_left _ _) hdirectory)
  refine bind_eq_lift_of_ok (if_pos hroom) ?_
  refine bind_eq_lift (readEntries_eq hsound hlength hdirectory header.rangeCount hranges
    (Nat.zero_add _) rfl (Nat.zero_le _)) fun result hentries => ?_
  obtain ⟨total, entries⟩ := result
  dsimp only
  by_cases htotal : total = header.count
  swap
  · rw [if_pos htotal, if_pos htotal]
    rfl
  subst htotal
  rw [if_neg (Decidable.not_not.2 rfl), if_neg (Decidable.not_not.2 rfl)]
  obtain ⟨ranges, -, -, hspread, hlists⟩ := readEntries_all_eq_ok_iff.1 hentries
  have hfits := fits_of_forall₂_lists hlists
  have hcount : entries.length = header.count := by
    rw [← hlists.length_eq, List.length_zipIdx, hspread]
  refine bind_eq_lift (structureSpans_eq hlength hranges hdirectory hcount
    fun entry hentry => (hfits entry hentry).inside) fun spans _ => ?_
  refine bind_eq_lift (mapM_eq_lift fun place hplace => ?_) fun slots _ => rfl
  -- the pointers of a record lie inside the record
  obtain ⟨entry, hentry, hmem⟩ := List.mem_flatMap.1 hplace
  obtain ⟨slot, hslot, rfl⟩ := List.mem_map.1 hmem
  obtain ⟨position, hlayout⟩ := (hfits entry hentry).known
  have hrecord := (hfits entry hentry).inside
  have hpointer := (hsound.inOrder hlayout).2 slot hslot
  refine checkSlot_eq hlength ?_
  dsimp only
  omega

end Scan

/-! ### The relocation -/

/-- **No guard stops the patching of words that lie apart**, if the sums fit words. -/
theorem patch_eq {base : Nat} {slots : List Nat} {bytes : Bytes}
    (hlength : bytes.length < Address.space) (hapart : slots.Pairwise WordsApart)
    (hfits : ∀ slot ∈ slots, ∃ value, bytes.word? Address.width slot = some value ∧
      base + value < Address.space) :
    patch base slots bytes =
      (lift (ScenePack.patch base slots bytes).1, (ScenePack.patch base slots bytes).2) := by
  -- a word that is still to come holds what it held at first
  suffices hall : ∀ (rest done : List Nat) (current : Bytes),
      Bytes.Patched base done bytes current → done ++ rest = slots →
      patch base rest current =
        (lift (ScenePack.patch base rest current).1, (ScenePack.patch base rest current).2) from
    hall slots [] bytes ⟨rfl, fun _ h => absurd h List.not_mem_nil, fun _ _ => rfl⟩ rfl
  intro rest
  induction rest with
  | nil =>
      intro _ _ _ _
      rfl
  | cons slot rest ih =>
      rintro done current hpatched rfl
      have hdone : ∀ other ∈ done, WordsApart other slot := fun other hother =>
        (List.pairwise_append.1 hapart).2.2 other hother slot List.mem_cons_self
      obtain ⟨value, hvalue, hsum⟩ := hfits slot (by simp)
      have hread := Bytes.readSlot_eq_ok_iff.2 ((hpatched.word_eq hdone).trans hvalue)
      have hinside := Bytes.le_of_readSlot hread
      have hcurrent : current.length < Address.space := hpatched.length_eq ▸ hlength
      have hstep : patchSlot base slot current =
          .ok (current.overwrite slot (Word.encode Address.width (base + value))) := by
        rw [patchSlot, readSlot_eq (Nat.lt_of_le_of_lt hinside hcurrent), hread]
        refine bind_eq_ok_iff.2 ⟨_, rfl, ?_⟩
        rw [word_eq hsum]
        exact replace_eq hcurrent (by rwa [Word.length_encode])
      rw [patch, ScenePack.patch, hstep, hread]
      exact ih (done ++ [slot]) _ (hpatched.overwrite hvalue hdone) (List.append_cons ..).symm

/-- **No guard stops a relocation**, whatever the base is. -/
theorem relocate_eq {registry : Registry} (hsound : registry.Sound) (base : Nat) {bytes : Bytes}
    (hlength : bytes.length < Address.space) :
    relocate registry base bytes =
      (lift (ScenePack.relocate registry base bytes).1,
        (ScenePack.relocate registry base bytes).2) := by
  rw [relocate, ScenePack.relocate, relocateScan, scan_eq hsound hlength]
  cases hscan : ScenePack.scan registry 0 bytes with
  | error error => rfl
  | ok found =>
      have haccepted := (scan_eq_ok_iff hsound).1 hscan
      rw [lift_ok]
      dsimp only
      by_cases hspace : base + bytes.length < Address.space
      swap
      · rw [show checked? (base + bytes.length) = none from if_neg hspace,
          if_pos (Nat.not_lt.1 hspace)]
        rfl
      have hfits : ∀ slot ∈ found.slots, ∃ value, bytes.word? Address.width slot = some value ∧
          base + value < Address.space := by
        intro slot hslot
        obtain ⟨offset, hoffset, hword⟩ := haccepted.slot_value hslot
        exact ⟨0 + offset, hword, by omega⟩
      rw [show checked? (base + bytes.length) = some (base + bytes.length) from if_pos hspace,
        if_neg (Nat.not_le.2 hspace), patch_eq hlength (haccepted.pairwise_slots hsound) hfits]
      dsimp only
      cases (ScenePack.patch base found.slots bytes).1 with
      | error error => rfl
      | ok _ => rfl

end Guarded

end ScenePack
