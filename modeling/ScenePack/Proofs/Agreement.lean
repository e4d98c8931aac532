/-
**Byte strings that agree on a span.**

What is read at a position depends only on the bytes there.  So two byte strings of one length read
alike wherever they agree, and writing a word changes nothing outside its eight bytes.

Main definitions:

* `Bytes.AgreeOn` — two byte strings have the same bytes from a start up to a stop.

Main results:

* `Bytes.AgreeOn.slice?_eq`, `Bytes.AgreeOn.word?_eq`, `Bytes.AgreeOn.readSlot_eq` — **reading
  depends only on the bytes that are read**;
* `Bytes.readHeader_eq_ok_iff` — the header, word by word;
* `Bytes.readText_eq_ok_iff` — the text at a position, by the bytes that follow it;
* `Bytes.AgreeOn.readText`, `Bytes.agreeOn_of_readText` — **a text is read alike exactly if its
  bytes and its final zero are alike**;
* `Bytes.agreeOn_overwrite`, `Bytes.word?_overwrite_self` — a word that is written is read back,
  and all else is kept.
-/

import Mathlib.Data.List.Basic
import ScenePack.Image.Arrangement
import ScenePack.Image.Scan
import ScenePack.Proofs.Text

set_option relaxedAutoImplicit false
set_option autoImplicit false

namespace ScenePack

namespace Bytes

variable {a b bytes span : Bytes} {start stop position : Nat}

/-- Two byte strings have the same bytes from `start` up to `stop`. -/
def AgreeOn (a b : Bytes) (start stop : Nat) : Prop :=
  ∀ i, start ≤ i → i < stop → a[i]? = b[i]?

theorem AgreeOn.symm (h : AgreeOn a b start stop) : AgreeOn b a start stop :=
  fun i hstart hstop => (h i hstart hstop).symm

theorem AgreeOn.trans {c : Bytes} (h : AgreeOn a b start stop) (h' : AgreeOn b c start stop) :
    AgreeOn a c start stop :=
  fun i hstart hstop => (h i hstart hstop).trans (h' i hstart hstop)

theorem AgreeOn.mono {start' stop' : Nat} (h : AgreeOn a b start stop) (hstart : start ≤ start')
    (hstop : stop' ≤ stop) : AgreeOn a b start' stop' :=
  fun i hi hi' => h i (by omega) (by omega)

/-! ### Spans and words -/

/-- A span that lies inside, byte by byte. -/
theorem slice?_eq_some_iff :
    bytes.slice? start span.length = some span ↔
      start + span.length ≤ bytes.length ∧ ∀ i < span.length, bytes[start + i]? = span[i]? := by
  unfold slice?
  split
  · next hinside =>
      rw [Option.some_inj, and_iff_right hinside]
      constructor
      · intro h i hi
        rw [← h, List.getElem?_take, if_pos hi, List.getElem?_drop]
      · intro h
        refine List.ext_getElem? ?_
        intro i
        by_cases hi : i < span.length
        · rw [List.getElem?_take, if_pos hi, List.getElem?_drop, h i hi]
        · rw [List.getElem?_take, if_neg hi, List.getElem?_eq_none (Nat.not_lt.1 hi)]
  · next houtside => simp [houtside]

theorem exists_slice? {count : Nat} (h : start + count ≤ bytes.length) :
    ∃ span, bytes.slice? start count = some span :=
  ⟨_, if_pos h⟩

/-- **A span is read alike** where the byte strings agree. -/
theorem AgreeOn.slice?_eq {count : Nat} (h : AgreeOn a b start (start + count))
    (hlength : a.length = b.length) : a.slice? start count = b.slice? start count := by
  unfold slice?
  rw [hlength]
  split
  · refine congrArg some (List.ext_getElem? ?_)
    intro i
    rw [List.getElem?_take, List.getElem?_take, List.getElem?_drop, List.getElem?_drop]
    split
    · exact h (start + i) (by omega) (by omega)
    · rfl
  · rfl

theorem AgreeOn.word?_eq {width : Nat} (h : AgreeOn a b start (start + width))
    (hlength : a.length = b.length) : a.word? width start = b.word? width start := by
  rw [word?, word?, h.slice?_eq hlength]

theorem AgreeOn.readSlot_eq (h : AgreeOn a b position (position + Address.width))
    (hlength : a.length = b.length) : a.readSlot position = b.readSlot position := by
  rw [readSlot, readSlot, h.word?_eq hlength, hlength]

/-- A pointer that is read is the word there. -/
theorem readSlot_eq_ok_iff {value : Nat} :
    bytes.readSlot position = .ok value ↔ bytes.word? Address.width position = some value := by
  unfold readSlot
  split
  · next found hfound => rw [hfound, Except.ok.injEq, Option.some_inj]
  · next hfound => simp [hfound]

theorem exists_readSlot (h : position + Address.width ≤ bytes.length) :
    ∃ value, bytes.readSlot position = .ok value := by
  obtain ⟨span, hspan⟩ := exists_slice? h
  exact ⟨Word.decode span, readSlot_eq_ok_iff.2 (by rw [word?, hspan]; rfl)⟩

theorem le_of_word? {width value : Nat} (h : bytes.word? width start = some value) :
    start + width ≤ bytes.length := by
  obtain ⟨span, hspan, -⟩ := Option.map_eq_some_iff.1 h
  exact Nat.not_lt.1 fun hlt => by simp [slice?_eq_none_iff.2 hlt] at hspan

/-- The first byte of a word is its lowest one. -/
theorem getElem?_of_word? {width value : Nat} (hwidth : 0 < width)
    (h : bytes.word? width position = some value) :
    bytes[position]? = some (UInt8.ofNat value) := by
  obtain ⟨span, hspan, rfl⟩ := Option.map_eq_some_iff.1 h
  have hlength := length_of_slice? hspan
  rw [← hlength] at hspan
  have hbyte := (slice?_eq_some_iff.1 hspan).2 0 (by omega)
  rw [Nat.add_zero] at hbyte
  cases span with
  | nil =>
      rw [List.length_nil] at hlength
      omega
  | cons byte rest =>
      have hlow : UInt8.ofNat (byte.toNat + 256 * Word.decode rest) = byte := by
        have := byte.toNat_lt
        apply UInt8.toNat_inj.1
        rw [UInt8.toNat_ofNat']
        omega
      rw [hbyte, Word.decode, hlow]
      rfl

/-- Byte strings with the same word at a position agree on it. -/
theorem agreeOn_of_word? {width value : Nat} (ha : a.word? width start = some value)
    (hb : b.word? width start = some value) : AgreeOn a b start (start + width) := by
  obtain ⟨span, hspan, rfl⟩ := Option.map_eq_some_iff.1 ha
  obtain ⟨other, hother, hsame⟩ := Option.map_eq_some_iff.1 hb
  have hlength := length_of_slice? hspan
  obtain rfl : other = span := by
    rw [← Word.encode_decode other, ← Word.encode_decode span, hsame, hlength,
      length_of_slice? hother]
  rw [← hlength] at hspan hother
  intro i hstart hstop
  obtain ⟨offset, rfl⟩ := Nat.exists_eq_add_of_le hstart
  rw [(slice?_eq_some_iff.1 hspan).2 offset (by omega),
    (slice?_eq_some_iff.1 hother).2 offset (by omega)]

/-- The header of an image is made of its first four words. -/
theorem decode?_header_eq_some_iff {header : Header} :
    Header.decode? bytes = some header ↔
      bytes.word? Address.width 0 = some header.directory ∧
        bytes.word? Address.width 8 = some header.count ∧
        bytes.word? Address.width 16 = some header.ranges ∧
        bytes.word? Address.width 24 = some header.rangeCount := by
  simp only [Header.decode?, Option.bind_eq_bind, Option.bind_eq_some_iff, Option.some_inj]
  constructor
  · rintro ⟨_, h0, _, h8, _, h16, _, h24, rfl⟩
    exact ⟨h0, h8, h16, h24⟩
  · rintro ⟨h0, h8, h16, h24⟩
    exact ⟨_, h0, _, h8, _, h16, _, h24, rfl⟩

theorem readHeader_eq_ok_iff {header : Header} :
    bytes.readHeader = .ok header ↔
      bytes.word? Address.width 0 = some header.directory ∧
        bytes.word? Address.width 8 = some header.count ∧
        bytes.word? Address.width 16 = some header.ranges ∧
        bytes.word? Address.width 24 = some header.rangeCount := by
  rw [← decode?_header_eq_some_iff, readHeader]
  cases Header.decode? bytes with
  | none => simp
  | some found => simp

theorem le_of_readHeader {header : Header} (h : bytes.readHeader = .ok header) :
    Header.size ≤ bytes.length := by
  have hlast := le_of_word? (readHeader_eq_ok_iff.1 h).2.2.2
  exact hlast

theorem exists_readHeader (h : Header.size ≤ bytes.length) :
    ∃ header, bytes.readHeader = .ok header := by
  have hword : ∀ position, position + Address.width ≤ Header.size →
      ∃ value, bytes.word? Address.width position = some value := by
    intro position hposition
    obtain ⟨value, hvalue⟩ := exists_readSlot (Nat.le_trans hposition h)
    exact ⟨value, readSlot_eq_ok_iff.1 hvalue⟩
  obtain ⟨directory, hdirectory⟩ := hword 0 (by decide)
  obtain ⟨count, hcount⟩ := hword 8 (by decide)
  obtain ⟨ranges, hranges⟩ := hword 16 (by decide)
  obtain ⟨rangeCount, hrangeCount⟩ := hword 24 (by decide)
  exact ⟨⟨directory, count, ranges, rangeCount⟩,
    readHeader_eq_ok_iff.2 ⟨hdirectory, hcount, hranges, hrangeCount⟩⟩

theorem AgreeOn.readRange_eq (h : AgreeOn a b position (position + Range.size))
    (hlength : a.length = b.length) : a.readRange position = b.readRange position := by
  have hsize : Range.size = Range.numberWidth + Range.numberWidth := rfl
  have hfirst : a.word? Range.numberWidth position = b.word? Range.numberWidth position :=
    (h.mono (Nat.le_refl _) (by omega)).word?_eq hlength
  have hsecond : a.word? Range.numberWidth (position + Range.numberWidth) =
      b.word? Range.numberWidth (position + Range.numberWidth) :=
    (h.mono (Nat.le_add_right _ _) (by omega)).word?_eq hlength
  rw [readRange, readRange, Range.decode?, Range.decode?, hfirst, hsecond, hlength]

/-! ### Texts -/

/-- The text at a position, by the bytes that follow it: those of the text and a zero. -/
theorem readText_eq_ok_iff {text : String} :
    bytes.readText position = .ok text ↔
      0 ∉ Utf8.encode text ∧ ∃ rest, bytes.drop position = Utf8.encode text ++ 0 :: rest := by
  unfold readText
  simp only [List.contains_iff_mem]
  constructor
  · intro h
    split at h
    · next hzero =>
        obtain ⟨front, rest, hrest, hfree⟩ := List.eq_append_cons_of_mem hzero
        rw [hrest, takeWhile_append_zero hfree] at h
        split at h
        · next found hfound =>
            cases h
            obtain rfl := Utf8.decode?_eq_some_iff.1 hfound
            exact ⟨hfree, rest, hrest⟩
        · cases h
    · cases h
  · rintro ⟨hfree, rest, hrest⟩
    rw [if_pos (by rw [hrest]; simp), hrest, takeWhile_append_zero hfree, Utf8.decode?_encode]

theorem le_of_readText {text : String} (h : bytes.readText position = .ok text) :
    position + textSize text ≤ bytes.length := by
  obtain ⟨_, rest, hrest⟩ := readText_eq_ok_iff.1 h
  have hlength := congrArg List.length hrest
  rw [List.length_drop, List.length_append, List.length_cons] at hlength
  rw [textSize]
  omega

/-- A text in terms of single bytes. -/
theorem readText_eq_ok_iff_getElem? {text : String} :
    bytes.readText position = .ok text ↔ 0 ∉ Utf8.encode text ∧
      ∀ i < textSize text, bytes[position + i]? = (Utf8.encode text ++ [0])[i]? := by
  rw [readText_eq_ok_iff]
  refine and_congr_right ?_
  intro _
  have hsize : (Utf8.encode text ++ [0]).length = textSize text := by simp [textSize]
  constructor
  · rintro ⟨rest, hrest⟩ i hi
    rw [← List.getElem?_drop, hrest, ← List.singleton_append, ← List.append_assoc,
      List.getElem?_append_left (by omega)]
  · intro h
    refine ⟨bytes.drop (position + textSize text), ?_⟩
    rw [← List.singleton_append, ← List.append_assoc, ← List.drop_drop]
    have htake : (bytes.drop position).take (textSize text) = Utf8.encode text ++ [0] := by
      refine List.ext_getElem? ?_
      intro i
      by_cases hi : i < textSize text
      · rw [List.getElem?_take, if_pos hi, List.getElem?_drop, h i hi]
      · rw [List.getElem?_take, if_neg hi, List.getElem?_eq_none (by omega)]
    rw [← htake, List.take_append_drop]

/-- **A text is read alike** if its bytes and its final zero are alike. -/
theorem AgreeOn.readText {text : String} (h : AgreeOn a b position (position + textSize text))
    (hb : b.readText position = .ok text) : a.readText position = .ok text := by
  rw [readText_eq_ok_iff_getElem?] at hb ⊢
  exact ⟨hb.1, fun i hi => by rw [h (position + i) (by omega) (by omega), hb.2 i hi]⟩

theorem agreeOn_of_readText {text : String} (ha : a.readText position = .ok text)
    (hb : b.readText position = .ok text) : AgreeOn a b position (position + textSize text) := by
  intro i hstart hstop
  obtain ⟨offset, rfl⟩ := Nat.exists_eq_add_of_le hstart
  rw [(readText_eq_ok_iff_getElem?.1 ha).2 offset (by omega),
    (readText_eq_ok_iff_getElem?.1 hb).2 offset (by omega)]

/-! ### Writing a word -/

theorem agreeOn_overwrite (h : position + span.length ≤ bytes.length)
    (houtside : stop ≤ position ∨ position + span.length ≤ start) :
    AgreeOn (bytes.overwrite position span) bytes start stop := by
  intro i hstart hstop
  rcases houtside with houtside | houtside
  · exact getElem?_overwrite_of_lt h (by omega)
  · exact getElem?_overwrite_of_ge h (by omega)

/-- A word that is written is read back modulo the range of its width. -/
theorem word?_overwrite_self {width value : Nat} (h : position + width ≤ bytes.length) :
    (bytes.overwrite position (Word.encode width value)).word? width position =
      some (value % Word.limit width) := by
  have hinside : position + (Word.encode width value).length ≤ bytes.length := by
    rwa [Word.length_encode]
  have hspan := slice?_overwrite_self hinside
  rw [Word.length_encode] at hspan
  rw [word?, hspan, Option.map_some, Word.decode_encode_mod]

end Bytes

end ScenePack
