/-
**Texts and their bytes.**

The bytes of a text and the digits of a byte string can be read back.  No text has the byte 255 in
it, and only the zero character is stored with a zero byte.

Main definitions:

* `ZeroFree` — texts without a zero character.

Main results:

* `Utf8.mem_encode_iff` — a byte below 128 stands for its character;
* `Utf8.zero_notMem_encode`, `Utf8.full_notMem_encode` — bytes that a text does not have;
* `Utf8.encode_injective`, `Hex.ofBytes_injective` — different texts have different bytes, and
  different byte strings different digits.
-/

import ScenePack.Text.Hex
import ScenePack.Text.Utf8

set_option relaxedAutoImplicit false
set_option autoImplicit false

namespace ScenePack

/-- A text without a zero character. -/
def ZeroFree (text : String) : Prop := '\x00' ∉ text.toList

instance : DecidablePred ZeroFree := fun text => inferInstanceAs (Decidable ('\x00' ∉ text.toList))

theorem Bytes.takeWhile_append_zero {front rest : Bytes} (h : 0 ∉ front) :
    (front ++ 0 :: rest).takeWhile (· ≠ 0) = front := by
  rw [List.takeWhile_append_of_pos]
  · simp
  · intro byte hbyte
    simpa using fun hzero : byte = 0 => h (hzero ▸ hbyte)

namespace Utf8

/-! ### Bytes of characters -/

/-- A byte of a character is below 248, and it is the character if it is below 128. -/
theorem of_mem_encodeChar {c : Char} {byte : UInt8} (h : byte ∈ String.utf8EncodeChar c) :
    byte.toNat < 248 ∧ (byte.toNat < 128 → c.val.toNat = byte.toNat) := by
  have hmarked : ∀ {n}, byte = UInt8.ofNat n → 128 ≤ n → n < 248 →
      byte.toNat < 248 ∧ (byte.toNat < 128 → c.val.toNat = byte.toNat) := by
    rintro n rfl hmark hlt
    have hvalue : (UInt8.ofNat n).toNat = n := by
      rw [UInt8.toNat_ofNat']
      omega
    omega
  -- a byte of a longer character carries a mark, a character of one byte is that byte
  simp only [String.utf8EncodeChar] at h
  split at h
  · next hsmall =>
      obtain rfl := List.mem_singleton.1 h
      have hvalue : (UInt8.ofNat c.val.toNat).toNat = c.val.toNat := by
        rw [UInt8.toNat_ofNat']
        omega
      omega
  split at h
  · simp only [List.mem_cons, List.not_mem_nil, or_false] at h
    rcases h with h | h
    · exact hmarked h (by omega) (by omega)
    · exact hmarked h (by omega) (by omega)
  split at h
  · simp only [List.mem_cons, List.not_mem_nil, or_false] at h
    rcases h with h | h | h
    · exact hmarked h (by omega) (by omega)
    · exact hmarked h (by omega) (by omega)
    · exact hmarked h (by omega) (by omega)
  · simp only [List.mem_cons, List.not_mem_nil, or_false] at h
    rcases h with h | h | h | h
    · exact hmarked h (by omega) (by omega)
    · exact hmarked h (by omega) (by omega)
    · exact hmarked h (by omega) (by omega)
    · exact hmarked h (by omega) (by omega)

/-! ### Bytes of texts -/

/-- The bytes of a text are those of its characters. -/
theorem encode_eq_flatMap (text : String) :
    encode text = text.toList.flatMap String.utf8EncodeChar := by
  rw [encode, String.toUTF8_eq_toByteArray, ← String.utf8Encode_toList, List.utf8Encode,
    List.toList_data_toByteArray]

theorem encode_append (front back : String) :
    encode (front ++ back) = encode front ++ encode back := by
  simp only [encode_eq_flatMap, String.toList_append, List.flatMap_append]

/-- **A small byte stands for its character.** -/
theorem mem_encode_iff {text : String} {c : Char} (h : c.val.toNat < 128) :
    UInt8.ofNat c.val.toNat ∈ encode text ↔ c ∈ text.toList := by
  have hvalue : (UInt8.ofNat c.val.toNat).toNat = c.val.toNat := by
    rw [UInt8.toNat_ofNat']
    omega
  rw [encode_eq_flatMap, List.mem_flatMap]
  constructor
  · rintro ⟨found, hfound, hbyte⟩
    have hsame := (of_mem_encodeChar hbyte).2 (by omega)
    obtain rfl : found = c := Char.ext (UInt32.toNat_inj.1 (hsame.trans hvalue))
    exact hfound
  · intro hc
    refine ⟨c, hc, ?_⟩
    simp only [String.utf8EncodeChar]
    rw [if_pos (by omega)]
    exact List.mem_singleton_self _

/-- A text holds a zero character exactly if its bytes hold a zero byte. -/
theorem contains_zero_iff {text : String} : text.contains '\x00' = true ↔ 0 ∈ encode text := by
  rw [String.contains_char_eq, decide_eq_true_iff]
  exact (mem_encode_iff (c := '\x00') (by decide)).symm

/-- **A text without a zero character is stored without a zero byte.** -/
theorem zero_notMem_encode {text : String} (h : ZeroFree text) : 0 ∉ encode text :=
  fun hzero => h ((mem_encode_iff (c := '\x00') (by decide)).1 hzero)

/-- **No text has the greatest byte in it.** -/
theorem full_notMem_encode (text : String) : 0xff ∉ encode text := by
  rw [encode_eq_flatMap, List.mem_flatMap]
  rintro ⟨c, -, hfull⟩
  exact absurd (of_mem_encodeChar hfull).1 (by decide)

theorem encode_injective : Function.Injective encode := by
  intro a b h
  have hdecode := decode?_encode a
  rw [h, decode?_encode, Option.some_inj] at hdecode
  exact hdecode.symm

end Utf8

namespace Hex

/-! ### Digits of bytes -/

theorem digit_inj : ∀ {a b : Nat}, a < 16 → b < 16 → digit a = digit b → a = b := by
  have hall : ∀ a b : Fin 16, digit a = digit b → a = b := by decide
  intro a b ha hb h
  exact Fin.mk.inj (hall ⟨a, ha⟩ ⟨b, hb⟩ h)

/-- Different byte strings have different digits. -/
theorem ofBytes_injective : Function.Injective ofBytes := by
  intro a b h
  replace h := String.ofList_inj.1 h
  induction a generalizing b with
  | nil =>
      cases b with
      | nil => rfl
      | cons byte rest => simp at h
  | cons byte rest ih =>
      cases b with
      | nil => simp at h
      | cons other others =>
          simp only [List.flatMap_cons, List.cons_append, List.nil_append, List.cons.injEq] at h
          obtain ⟨hhigh, hlow, hrest⟩ := h
          have hbyte := byte.toNat_lt
          have hother := other.toNat_lt
          have hdiv := digit_inj (by omega) (by omega) hhigh
          have hmod := digit_inj (by omega) (by omega) hlow
          have hsame : byte = other := UInt8.toNat_inj.1 (by omega)
          rw [hsame, ih hrest]

end Hex

end ScenePack
