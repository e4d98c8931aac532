/-
**Texts as bytes.**

Main definitions:

* `Utf8.encode` — the bytes of a text;
* `Utf8.decode?` — the text of a byte string that is valid UTF-8.

Main results:

* `Utf8.decode?_eq_some_iff` — a byte string reads as a text exactly if it is the bytes of it.
-/

import ScenePack.Word

set_option relaxedAutoImplicit false
set_option autoImplicit false

namespace ScenePack.Utf8

/-- The bytes of a text. -/
def encode (text : String) : Bytes := text.toUTF8.data.toList

/-- The text of a byte string, if it is valid UTF-8. -/
def decode? (bytes : Bytes) : Option String := String.fromUTF8? ⟨bytes.toArray⟩

/-- Decoding undoes encoding. -/
theorem decode?_encode (text : String) : decode? (encode text) = some text := by
  have hbytes : (⟨text.toUTF8.data.toList.toArray⟩ : ByteArray) = text.toUTF8 := by
    rw [Array.toArray_toList]
  rw [encode, decode?, hbytes, String.fromUTF8?]
  split
  · rfl
  · next h => exact absurd text.isValidUTF8 h

/-- Encoding undoes decoding. -/
theorem encode_of_decode? {bytes : Bytes} {text : String} (h : decode? bytes = some text) :
    encode text = bytes := by
  unfold decode? String.fromUTF8? at h
  split at h
  · cases h
    rfl
  · cases h

/-- A byte string reads as a text exactly if it is the bytes of it. -/
theorem decode?_eq_some_iff {bytes : Bytes} {text : String} :
    decode? bytes = some text ↔ bytes = encode text :=
  ⟨fun h => (encode_of_decode? h).symm, fun h => h ▸ decode?_encode text⟩

end ScenePack.Utf8
