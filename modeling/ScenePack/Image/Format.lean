/-
**The format of images.**

An image starts with a header of four words: the position of the instance directory and the count
of instances, and the position of the range table and the count of ranges.  A range is a run of
instances of one type.  The directory holds one word for each instance, the position of its record.
Records hold numbers in place, embedded records in place, and positions of texts and of other
records, zero standing for none.  Texts end with a zero byte.

Main definitions:

* `Header`, `Header.encode`, `Header.decode?` — headers and their bytes;
* `Range`, `Range.encode`, `Range.decode?` — ranges and their bytes;
* `ImageSizes` — the sizes of the parts of an image.

Main results:

* `Header.decode?_encode`, `Range.decode?_encode` — headers and ranges read back.
-/

import ScenePack.Bytes

set_option relaxedAutoImplicit false
set_option autoImplicit false

namespace ScenePack

/-! ### Headers -/

/-- The header of an image. -/
structure Header where
  directory : Nat
  count : Nat
  ranges : Nat
  rangeCount : Nat
  deriving DecidableEq

namespace Header

/-- The bytes of a header. -/
def size : Nat := 4 * Address.width

/-- The positions of the two words that are positions themselves. -/
def directorySlot : Nat := 0

@[inherit_doc directorySlot] def rangesSlot : Nat := 2 * Address.width

/-- The bytes of a header, word by word. -/
def encode (header : Header) : Bytes :=
  [header.directory, header.count, header.ranges, header.rangeCount].flatMap
    (Word.encode Address.width)

/-- The header at the front of a byte string, if it is long enough. -/
def decode? (bytes : Bytes) : Option Header := do
  let directory ← bytes.word? Address.width 0
  let count ← bytes.word? Address.width 8
  let ranges ← bytes.word? Address.width 16
  let rangeCount ← bytes.word? Address.width 24
  some ⟨directory, count, ranges, rangeCount⟩

@[simp] theorem length_encode (header : Header) : header.encode.length = size := by
  simp [encode, size, Address.width]

/-- The numbers of a header that can be stored are addresses. -/
def Fits (header : Header) : Prop :=
  header.directory < Address.space ∧ header.count < Address.space ∧
    header.ranges < Address.space ∧ header.rangeCount < Address.space

/-- **A header reads back** from the front of a byte string. -/
theorem decode?_encode {header : Header} (h : header.Fits) (rest : Bytes) :
    decode? (header.encode ++ rest) = some header := by
  obtain ⟨hdirectory, hcount, hranges, hrangeCount⟩ := h
  let word := Word.encode Address.width
  have hlength : ∀ value, (word value).length = 8 := Word.length_encode Address.width
  have h0 := Bytes.word?_encode [] (word header.count ++ word header.ranges ++
    word header.rangeCount ++ rest) hdirectory
  have h1 := Bytes.word?_encode (word header.directory) (word header.ranges ++
    word header.rangeCount ++ rest) hcount
  have h2 := Bytes.word?_encode (word header.directory ++ word header.count)
    (word header.rangeCount ++ rest) hranges
  have h3 := Bytes.word?_encode (word header.directory ++ word header.count ++ word header.ranges)
    rest hrangeCount
  have hencode : header.encode = word header.directory ++ (word header.count ++
      (word header.ranges ++ word header.rangeCount)) := by
    simp [encode, word]
  simp only [List.length_append, List.append_assoc, hlength, List.nil_append,
    List.length_nil] at h0 h1 h2 h3
  simp only [decode?, hencode, List.append_assoc]
  simp only [word] at h0 h1 h2 h3 ⊢
  simp [h0, h1, h2, h3]

end Header

/-! ### Ranges -/

/-- A run of instances of one type. -/
structure Range where
  typeId : Nat
  count : Nat
  deriving DecidableEq

namespace Range

/-- The bytes of one of the two numbers of a range, and of a range. -/
def numberWidth : Nat := 4

@[inherit_doc numberWidth] def size : Nat := 2 * numberWidth

/-- The alignment of the range table. -/
def align : Nat := numberWidth

/-- The count of instances that a range can hold is below this. -/
def countLimit : Nat := Word.limit numberWidth

/-- The bytes of a range. -/
def encode (range : Range) : Bytes :=
  Word.encode numberWidth range.typeId ++ Word.encode numberWidth range.count

/-- The range at a position, if it lies inside. -/
def decode? (bytes : Bytes) (start : Nat) : Option Range := do
  let typeId ← bytes.word? numberWidth start
  let count ← bytes.word? numberWidth (start + numberWidth)
  some ⟨typeId, count⟩

@[simp] theorem length_encode (range : Range) : range.encode.length = size := by
  simp [encode, size, numberWidth]

/-- **A range reads back** wherever it stands, if its numbers can be stored. -/
theorem decode?_encode {range : Range} (htype : range.typeId < countLimit)
    (hcount : range.count < countLimit) (front rest : Bytes) :
    decode? (front ++ range.encode ++ rest) front.length = some range := by
  have h0 := Bytes.word?_encode front (Word.encode numberWidth range.count ++ rest) htype
  have h1 := Bytes.word?_encode (front ++ Word.encode numberWidth range.typeId) rest hcount
  simp only [List.length_append, Word.length_encode, List.append_assoc] at h0 h1
  simp [decode?, encode, h0, h1]

end Range

/-! ### Sizes -/

/-- The sizes of the parts of an image.  Padding in front of the directory and of records counts
to them. -/
structure ImageSizes where
  header : Nat
  ranges : Nat
  directory : Nat
  records : Nat
  text : Nat
  deriving DecidableEq

/-- The size of the whole image. -/
def ImageSizes.total (sizes : ImageSizes) : Nat :=
  sizes.header + sizes.ranges + sizes.directory + sizes.records + sizes.text

end ScenePack
