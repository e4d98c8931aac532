/-
**Fingerprints.**

The fingerprint of a registry is the digest of a byte string that lists its types in order with
their sizes and alignments, and their fields with kinds, targets and offsets.  Names are followed by
a zero byte, numbers take eight bytes, and each type ends with a byte that no text contains.

Main definitions:

* `Registry.preimage` — the byte string that is digested;
* `Registry.fingerprint` — the digest in hexadecimal.
-/

import ScenePack.Digest.Blake3
import ScenePack.Layout.Registry
import ScenePack.Text.Hex
import ScenePack.Text.Utf8

set_option relaxedAutoImplicit false
set_option autoImplicit false

namespace ScenePack

namespace Fingerprint

/-- A text and the zero byte after it. -/
def terminated (text : String) : Bytes := Utf8.encode text ++ [0]

/-- A number in the width of an address. -/
def number (value : Nat) : Bytes := Word.encode Address.width value

/-- The bytes of a field. -/
def ofField (field : FieldLayout) : Bytes :=
  terminated field.name ++ terminated field.kind.tag ++
    terminated ((field.kind.target?.map Target.name).getD "") ++ number field.offset

/-- The bytes of a type. -/
def ofLayout (layout : RecordLayout) : Bytes :=
  terminated layout.name ++ number layout.size ++ number layout.align ++
    layout.fields.flatMap ofField ++ [0xff]

end Fingerprint

namespace Registry

/-- The byte string that the fingerprint digests: the width of an address, and every type. -/
def preimage (registry : Registry) : Bytes :=
  Fingerprint.number Address.width ++ registry.types.flatMap Fingerprint.ofLayout

/-- The digest of the layouts of a registry, 64 hexadecimal digits. -/
def fingerprint (registry : Registry) : String := Hex.ofBytes (Blake3.digest registry.preimage)

end Registry

end ScenePack
