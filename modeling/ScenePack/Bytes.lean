/-
**Byte strings by position.**

Reading a span or a word at a position fails if the span does not lie inside the string; writing
replaces the bytes of a span and leaves the others alone.

Main definitions:

* `Bytes.slice?`, `Bytes.word?` — the bytes of a span, and the number they stand for;
* `Bytes.overwrite` — the string with one span replaced;
* `Bytes.padTo` — zero bytes up to a position.

Main results:

* `Bytes.slice?_eq_none_iff` — a span is read exactly when it lies inside the string;
* `Bytes.getElem?_overwrite_of_lt`, `Bytes.getElem?_overwrite_of_ge` — outside the span nothing
  changes;
* `Bytes.slice?_overwrite_self` — the span reads back what was written to it;
* `Bytes.word?_encode` — an encoded word is read back wherever it stands.
-/

import ScenePack.Word

set_option relaxedAutoImplicit false
set_option autoImplicit false

namespace ScenePack.Bytes

/-! ### Reading -/

/-- The `count` bytes from `start` on, if they lie inside. -/
def slice? (bytes : Bytes) (start count : Nat) : Option Bytes :=
  if start + count ≤ bytes.length then some ((bytes.drop start).take count) else none

/-- The number of `width` bytes at `start`, if it lies inside. -/
def word? (width : Nat) (bytes : Bytes) (start : Nat) : Option Nat :=
  (bytes.slice? start width).map Word.decode

theorem slice?_eq_none_iff {bytes : Bytes} {start count : Nat} :
    bytes.slice? start count = none ↔ bytes.length < start + count := by
  simp [slice?]

theorem length_of_slice? {bytes span : Bytes} {start count : Nat}
    (h : bytes.slice? start count = some span) : span.length = count := by
  unfold slice? at h
  split at h
  · cases h
    simp only [List.length_take, List.length_drop]
    omega
  · cases h

theorem word?_lt {width start value : Nat} {bytes : Bytes}
    (h : bytes.word? width start = some value) : value < Word.limit width := by
  obtain ⟨span, hspan, rfl⟩ := Option.map_eq_some_iff.1 h
  rw [← length_of_slice? hspan]
  exact Word.decode_lt span

theorem slice?_append (front span rest : Bytes) :
    (front ++ span ++ rest).slice? front.length span.length = some span := by
  simp [slice?]

/-- **A word is read back wherever it stands**, if it fits its width. -/
theorem word?_encode {width value : Nat} (front rest : Bytes) (h : value < Word.limit width) :
    (front ++ Word.encode width value ++ rest).word? width front.length = some value := by
  have hspan := slice?_append front (Word.encode width value) rest
  rw [Word.length_encode] at hspan
  rw [word?, hspan, Option.map_some, Word.decode_encode h]

/-! ### Writing -/

/-- The string with the bytes from `start` on replaced by `span`. -/
def overwrite (bytes : Bytes) (start : Nat) (span : Bytes) : Bytes :=
  bytes.take start ++ span ++ bytes.drop (start + span.length)

/-- Zero bytes are appended until the string is `size` long; a longer string is kept. -/
def padTo (size : Nat) (bytes : Bytes) : Bytes :=
  bytes ++ List.replicate (size - bytes.length) 0

theorem length_padTo (size : Nat) (bytes : Bytes) :
    (bytes.padTo size).length = max size bytes.length := by
  simp only [padTo, List.length_append, List.length_replicate]
  omega

theorem length_overwrite {bytes span : Bytes} {start : Nat}
    (h : start + span.length ≤ bytes.length) :
    (bytes.overwrite start span).length = bytes.length := by
  simp only [overwrite, List.length_append, List.length_take, List.length_drop]
  omega

theorem getElem?_overwrite_of_lt {bytes span : Bytes} {start i : Nat}
    (h : start + span.length ≤ bytes.length) (hi : i < start) :
    (bytes.overwrite start span)[i]? = bytes[i]? := by
  have htake : (bytes.take start).length = start := by
    rw [List.length_take]
    omega
  rw [overwrite, List.append_assoc, List.getElem?_append_left (by omega), List.getElem?_take,
    if_pos hi]

theorem getElem?_overwrite_of_ge {bytes span : Bytes} {start i : Nat}
    (h : start + span.length ≤ bytes.length) (hi : start + span.length ≤ i) :
    (bytes.overwrite start span)[i]? = bytes[i]? := by
  have hlen : (bytes.take start ++ span).length = start + span.length := by
    rw [List.length_append, List.length_take]
    omega
  rw [overwrite, List.getElem?_append_right (by omega), hlen, List.getElem?_drop]
  congr 1
  omega

/-- The span reads back what was written to it. -/
theorem slice?_overwrite_self {bytes span : Bytes} {start : Nat}
    (h : start + span.length ≤ bytes.length) :
    (bytes.overwrite start span).slice? start span.length = some span := by
  have htake : (bytes.take start).length = start := by
    rw [List.length_take]
    omega
  rw [slice?, if_pos (by rw [length_overwrite h]; exact h), overwrite, List.append_assoc,
    List.drop_append_of_le_length (by omega), List.drop_eq_nil_of_le (by omega)]
  simp

end ScenePack.Bytes
