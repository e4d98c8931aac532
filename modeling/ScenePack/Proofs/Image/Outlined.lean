/-
**Leaves, and the bytes between them.**

A record holds numbers, texts and references, in fields of its own and in those of the records
embedded in it.  Each of them is a leaf that stands in bytes of its own.  The records of an image
are written leaf by leaf, in the order in which the texts are added to the pool, and whatever lies
between the leaves is zero.

Main definitions:

* `Leaf`, `Value.leaves`, `Value.allLeaves` — the leaves of values, by their positions;
* `Leaf.textsAt` — the leaves that hold texts;
* `TextPool.words` — the positions of texts that are added one after the other;
* `Outlined` — a part of an image that consists of leaves and zero bytes.

Main results:

* `TextPool.getElem?_words` — where the texts of a pool end up;
* `Outlined.append` — parts that follow each other make one part;
* `Writing.outlined_of_writeValue` — **a value is written as its leaves and zero bytes**;
* `Scene.outlined_of_write` — so are the records of an image.
-/

import ScenePack.Proofs.Image.Interned

set_option relaxedAutoImplicit false
set_option autoImplicit false

namespace ScenePack

/-! ### Leaves -/

/-- A number, a text or a reference of a record, at its position in the image. -/
structure Leaf where
  position : Nat
  value : Value

namespace Value

mutual

/-- The leaves of a value that stands at a position. -/
def leaves (registry : Registry) (position : Nat) (value : Value) : List Leaf :=
  match value with
  | .component typeId values =>
      match registry.layout? typeId with
      | none => []
      | some layout => allLeaves registry layout.fields position values
  | value => [⟨position, value⟩]

/-- The leaves of values in the fields of a record that stands at `offset`. -/
def allLeaves (registry : Registry) (fields : List FieldLayout) (offset : Nat)
    (values : List Value) : List Leaf :=
  match values, fields with
  | value :: values, field :: fields =>
      leaves registry (offset + field.offset) value ++ allLeaves registry fields offset values
  | _, _ => []

end

end Value

namespace Leaf

/-- The positions that a leaf takes: those of a number or of a word. -/
def span (leaf : Leaf) : Span :=
  match leaf.value with
  | .scalar number => ⟨leaf.position, leaf.position + number.type.size⟩
  | _ => ⟨leaf.position, leaf.position + Address.width⟩

/-- The text of a leaf that has one, with its position. -/
def textAt? (leaf : Leaf) : Option (Nat × String) :=
  match leaf.value with
  | .text content => content.map fun text => (leaf.position, text)
  | _ => none

/-- The positions of the texts among some leaves, in order. -/
def textsAt (leaves : List Leaf) : List (Nat × String) := leaves.filterMap textAt?

theorem textsAt_append (leaves others : List Leaf) :
    textsAt (leaves ++ others) = textsAt leaves ++ textsAt others :=
  List.filterMap_append

/-- What stands at a leaf: the bytes of a number, zero for what leads nowhere, or the position of a
record.  Texts are looked at in `Outlined.words`, since their positions depend on their order. -/
def Stands (position? : InstanceKey → Option Nat) (bytes : Bytes) (leaf : Leaf) : Prop :=
  match leaf.value with
  | .scalar number => bytes.slice? leaf.position number.type.size = some number.bytes
  | .text none | .ref none => bytes.slice? leaf.position Address.width = some (pointer 0)
  | .text (some _) => True
  | .ref (some key) => ∃ target, position? key = some target ∧
      bytes.slice? leaf.position Address.width = some (pointer target)
  | .component _ _ => False

end Leaf

namespace Value

mutual

/-- **The texts of a value are those of its leaves**, if it is well formed. -/
theorem textsAt_leaves {registry : Registry} {kind : FieldKind Target} {position : Nat}
    (value : Value) (h : value.Formed registry kind) :
    (Leaf.textsAt (value.leaves registry position)).map Prod.snd = value.texts := by
  cases value with
  | scalar number => rfl
  | text content => cases content <;> rfl
  | component typeId values =>
      rw [Formed] at h
      obtain ⟨-, layout, hlayout, hvalues⟩ := h
      rw [leaves, hlayout, texts]
      exact textsAt_allLeaves values hvalues
  | ref key => rfl

/-- The texts of values are those of their leaves. -/
theorem textsAt_allLeaves {registry : Registry} {fields : List FieldLayout} {offset : Nat}
    (values : List Value) (h : AllFormed registry fields values) :
    (Leaf.textsAt (allLeaves registry fields offset values)).map Prod.snd = allTexts values := by
  cases values with
  | nil => rfl
  | cons value values =>
      cases fields with
      | nil => exact h.elim
      | cons field fields =>
          rw [AllFormed] at h
          rw [allLeaves, Leaf.textsAt_append, List.map_append, textsAt_leaves value h.1,
            textsAt_allLeaves values h.2, allTexts]

end

mutual

/-- The words of the texts of a value are pointers that its field brings into a record. -/
theorem slot_of_textsAt_leaves {registry : Registry} (hsound : registry.Sound)
    {kind : FieldKind Target} {extent : Extent} {position : Nat} (value : Value)
    (hformed : value.Formed registry kind) (hextent : registry.extent? kind = some extent) :
    ∀ place ∈ Leaf.textsAt (value.leaves registry position),
      ⟨place.1, .text⟩ ∈ extent.slots.map (PointerSlot.shift position) := by
  cases value with
  | scalar number => exact fun _ h => absurd h List.not_mem_nil
  | text content =>
      obtain rfl : kind = .text := by
        cases kind <;> simp_all [Formed, FieldKind.accepts]
      cases hextent
      cases content with
      | none => exact fun _ h => absurd h List.not_mem_nil
      | some text =>
          intro place hplace
          obtain rfl := List.mem_singleton.1 hplace
          exact List.mem_singleton_self _
  | component typeId values =>
      obtain ⟨target, rfl, rfl⟩ : ∃ target : Target, kind = .component target ∧
          typeId = target.id := by
        cases kind <;> simp_all [Formed, FieldKind.accepts]
      obtain ⟨-, layout, hlayout, hvalues⟩ := by rwa [Formed] at hformed
      rw [Registry.extent?, hlayout] at hextent
      cases hextent
      rw [leaves, hlayout]
      have hlayoutsound := (hsound target.id layout hlayout).2
      rw [Extent.ofRecord, hlayoutsound.slots_eq]
      exact slot_of_textsAt_allLeaves hsound values hvalues hlayoutsound.extent
  | ref key => exact fun _ h => absurd h List.not_mem_nil

/-- The words of the texts in the fields of a record are pointers of the record. -/
theorem slot_of_textsAt_allLeaves {registry : Registry} (hsound : registry.Sound)
    {fields : List FieldLayout} {offset : Nat} (values : List Value)
    (hformed : AllFormed registry fields values)
    (hextent : ∀ field ∈ fields, ∃ extent,
      registry.extent? field.kind = some extent ∧ field.size = extent.size) :
    ∀ place ∈ Leaf.textsAt (allLeaves registry fields offset values),
      ⟨place.1, .text⟩ ∈
        (fields.flatMap registry.slotsOf).map (PointerSlot.shift offset) := by
  cases values with
  | nil => exact fun _ h => absurd h List.not_mem_nil
  | cons value values =>
      cases fields with
      | nil => exact hformed.elim
      | cons field fields =>
          rw [AllFormed] at hformed
          obtain ⟨⟨extent, hfield, -⟩, hextent⟩ := List.forall_mem_cons.1 hextent
          rw [allLeaves, Leaf.textsAt_append, List.flatMap_cons, List.map_append]
          intro place hplace
          rcases List.mem_append.1 hplace with hplace | hplace
          · refine List.mem_append_left _ ?_
            have hslot := slot_of_textsAt_leaves hsound value hformed.1 hfield place hplace
            obtain ⟨slot, hslot, heq⟩ := List.mem_map.1 hslot
            rw [Registry.slotsOf_eq hfield, List.map_map]
            refine List.mem_map.2 ⟨slot, hslot, ?_⟩
            rw [← heq, Function.comp_apply, PointerSlot.shift, PointerSlot.shift,
              PointerSlot.shift, Nat.add_assoc]
          · exact List.mem_append_right _
              (slot_of_textsAt_allLeaves hsound values hformed.2 hextent place hplace)

end

end Value

/-! ### Where texts end up -/

namespace TextPool

variable {pool later : TextPool} {text : String}

/-- The positions of texts that are added to a pool one after the other. -/
def words : TextPool → List String → List Nat
  | _, [] => []
  | pool, text :: rest => (pool.intern text).1 :: words (pool.intern text).2 rest

theorem words_append (pool : TextPool) (texts others : List String) :
    pool.words (texts ++ others) = pool.words texts ++ (pool.internAll texts).words others := by
  induction texts generalizing pool with
  | nil => rfl
  | cons text rest ih => rw [List.cons_append, words, ih, words, List.cons_append, internAll_cons]

theorem grows_internAll (pool : TextPool) (texts : List String) :
    pool.Grows (pool.internAll texts) := by
  induction texts generalizing pool with
  | nil => exact .refl pool
  | cons text rest ih => exact (pool.intern_holds text).1.trans (ih _)

/-- The place of a text among the texts of a pool: that of the only copy if texts are shared, and
otherwise the place where it was added. -/
def place (pool : TextPool) (added : Nat) (text : String) : Nat :=
  if pool.shared then pool.texts.idxOf text else added

/-- **A text that is added gets the position of its place.** -/
theorem intern_fst (pool : TextPool) (text : String) :
    (pool.intern text).2.place pool.texts.length text < (pool.intern text).2.texts.length ∧
      (pool.intern text).1 = (pool.intern text).2.position
        ((pool.intern text).2.place pool.texts.length text) := by
  rw [place, shared_intern]
  cases hshared : pool.shared with
  | false => simp [intern, hshared, position]
  | true =>
      unfold intern
      rw [hshared, if_pos rfl, if_pos rfl]
      cases hfind : pool.texts.findIdx? fun stored => stored = text with
      | some index =>
          obtain ⟨hlt, htext, hfirst⟩ := List.findIdx?_eq_some_iff_getElem.1 hfind
          have hindex : pool.texts.idxOf text = index := by
            rw [List.idxOf, List.findIdx_eq hlt]
            refine ⟨by simpa using htext, fun j hj => ?_⟩
            simpa using hfirst j hj
          dsimp only
          rw [hindex]
          exact ⟨hlt, rfl⟩
      | none =>
          have habsent : text ∉ pool.texts := fun hmem => by
            simpa using List.findIdx?_eq_none_iff.1 hfind text hmem
          dsimp only
          rw [List.idxOf_append_of_notMem habsent, List.idxOf_cons_self, List.length_append]
          refine ⟨Nat.lt_add_one _, ?_⟩
          rw [Nat.add_zero, position, position, List.take_append_of_le_length (Nat.le_refl _)]

theorem Grows.position_eq (h : pool.Grows later) {index : Nat}
    (hindex : index < pool.texts.length) : later.position index = pool.position index := by
  obtain ⟨rest, hrest⟩ := h.texts
  rw [position, position, h.start_eq, ← hrest, List.take_append_of_le_length (Nat.le_of_lt hindex)]

theorem Grows.place_eq (h : pool.Grows later) (hshared : later.shared = pool.shared) {added : Nat}
    (hplace : pool.place added text < pool.texts.length) :
    later.place added text = pool.place added text := by
  rw [place] at hplace
  rw [place, place, hshared]
  split
  · next hyes =>
      rw [if_pos hyes] at hplace
      obtain ⟨rest, hrest⟩ := h.texts
      rw [← hrest, List.idxOf_append_of_mem (List.idxOf_lt_length_iff.1 hplace)]
  · rfl

theorem shared_internAll (pool : TextPool) (texts : List String) :
    (pool.internAll texts).shared = pool.shared := by
  induction texts generalizing pool with
  | nil => rfl
  | cons text rest ih => rw [internAll_cons, ih, shared_intern]

/-- **Each text has the position of its place** once all texts have been added: the words that are
written are good for the final pool. -/
theorem getElem?_words {texts : List String} {index : Nat} (h : texts[index]? = some text) :
    (pool.words texts)[index]? = some ((pool.internAll texts).position
      ((pool.internAll texts).place (pool.texts.length + index) text)) := by
  induction texts generalizing pool index with
  | nil => cases h
  | cons first rest ih =>
      rw [words, internAll_cons]
      cases index with
      | zero =>
          obtain rfl : first = text := Option.some_inj.1 h
          obtain ⟨hlt, heq⟩ := pool.intern_fst first
          have hgrows := (pool.intern first).2.grows_internAll rest
          have hplace := hgrows.place_eq (shared_internAll _ rest) hlt
          rw [Nat.add_zero, hplace, hgrows.position_eq hlt]
          exact congrArg some heq
      | succ index =>
          rw [List.getElem?_cons_succ, ih h]
          rw [List.getElem?_cons_succ] at h
          -- sharing or not, the place of a later text does not depend on what was added first
          cases hshared : pool.shared with
          | false =>
              rw [texts_intern_of_separate hshared, List.length_append, List.length_singleton,
                Nat.add_assoc, Nat.add_comm 1 index]
          | true =>
              have hall : ((pool.intern first).2.internAll rest).shared = true := by
                rw [shared_internAll, shared_intern, hshared]
              rw [place, place, if_pos hall, if_pos hall]

end TextPool

/-! ### Zero bytes -/

theorem Bytes.zero_of_padTo {bytes out written : Bytes} {start size i : Nat}
    (h : bytes.slice? start out.length = some out) (hpart : written.padTo size <+: out)
    (hstart : start + written.length ≤ i) (hstop : i < start + size) : bytes[i]? = some 0 := by
  obtain ⟨offset, rfl⟩ := Nat.exists_eq_add_of_le (Nat.le_trans (Nat.le_add_right _ _) hstart)
  obtain ⟨rest, rfl⟩ := hpart
  have hlength : (written.padTo size).length = max size written.length := length_padTo _ _
  have hlt : offset < (written.padTo size ++ rest).length := by
    rw [List.length_append]
    omega
  rw [(slice?_eq_some_iff.1 h).2 offset hlt, List.getElem?_append_left (by omega), padTo,
    List.getElem?_append_right (by omega), List.getElem?_replicate, if_pos (by omega)]

/-! ### Parts that consist of leaves -/

/-- From `start` up to `stop` an image shows some leaves and is zero between them.  The words of
the texts are those that the pool gave when the texts were added to it. -/
structure Outlined (position? : InstanceKey → Option Nat) (bytes : Bytes) (start stop : Nat)
    (leaves : List Leaf) (pool next : TextPool) : Prop where
  next_eq : next = pool.internAll ((Leaf.textsAt leaves).map Prod.snd)
  stands : ∀ leaf ∈ leaves, leaf.Stands position? bytes
  words : List.Forall₂
    (fun place word => bytes.slice? place.1 Address.width = some (pointer word))
    (Leaf.textsAt leaves) (pool.words ((Leaf.textsAt leaves).map Prod.snd))
  zero : ∀ i, start ≤ i → i < stop → (∀ leaf ∈ leaves, ¬leaf.span.Contains i) → bytes[i]? = some 0

namespace Outlined

variable {position? : InstanceKey → Option Nat} {bytes : Bytes} {start middle stop : Nat}
  {leaves others : List Leaf} {pool next last : TextPool}

/-- **Parts that follow each other make one part.** -/
theorem append (h : Outlined position? bytes start middle leaves pool next)
    (h' : Outlined position? bytes middle stop others next last) :
    Outlined position? bytes start stop (leaves ++ others) pool last := by
  refine ⟨?_, List.forall_mem_append.2 ⟨h.stands, h'.stands⟩, ?_, ?_⟩
  · rw [Leaf.textsAt_append, List.map_append, TextPool.internAll_append, ← h.next_eq, ← h'.next_eq]
  · rw [Leaf.textsAt_append, List.map_append, TextPool.words_append, ← h.next_eq]
    exact List.rel_append h.words h'.words
  · intro i hstart hstop hapart
    obtain ⟨hfirst, hsecond⟩ := List.forall_mem_append.1 hapart
    rcases Nat.lt_or_ge i middle with hlt | hge
    · exact h.zero i hstart hlt hfirst
    · exact h'.zero i hge hstop hsecond

theorem blank (h : ∀ i, start ≤ i → i < stop → bytes[i]? = some 0) :
    Outlined position? bytes start stop [] pool pool :=
  ⟨rfl, fun _ h => absurd h List.not_mem_nil, .nil, fun i hstart hstop _ => h i hstart hstop⟩

/-- A leaf that holds no text. -/
theorem plain (leaf : Leaf) (hstands : leaf.Stands position? bytes) (htext : leaf.textAt? = none) :
    Outlined position? bytes leaf.span.start leaf.span.stop [leaf] pool pool := by
  have htexts : Leaf.textsAt [leaf] = [] := List.filterMap_cons_none htext
  refine ⟨?_, List.forall_mem_singleton.2 hstands, ?_, ?_⟩
  · rw [htexts]
    rfl
  · rw [htexts]
    exact .nil
  · intro i hstart hstop hapart
    exact absurd ⟨hstart, hstop⟩ (hapart leaf List.mem_cons_self)

/-- A leaf that holds a text. -/
theorem text {position : Nat} {text : String}
    (h : bytes.slice? position Address.width = some (pointer (pool.intern text).1)) :
    Outlined position? bytes position (position + Address.width) [⟨position, .text (some text)⟩]
      pool (pool.intern text).2 := by
  refine ⟨rfl, List.forall_mem_singleton.2 trivial, .cons h .nil, ?_⟩
  intro i hstart hstop hapart
  exact absurd ⟨hstart, hstop⟩ (hapart _ List.mem_cons_self)

/-- **The word of a text leads to the place of the text** in the final pool. -/
theorem word (h : Outlined position? bytes start stop leaves pool next) {index : Nat}
    {place : Nat × String} (hplace : (Leaf.textsAt leaves)[index]? = some place) :
    bytes.slice? place.1 Address.width =
      some (pointer (next.position (next.place (pool.texts.length + index) place.2))) := by
  obtain ⟨word, hword, hslice⟩ := exists_getElem?_of_forall₂ h.words hplace
  have htext : ((Leaf.textsAt leaves).map Prod.snd)[index]? = some place.2 := by
    rw [List.getElem?_map, hplace]
    rfl
  rw [TextPool.getElem?_words htext, ← h.next_eq, Option.some_inj] at hword
  rw [hslice, ← hword]

end Outlined

/-! ### Values -/

namespace Writing

variable {writing : Writing} {pool next : TextPool} {out written : Bytes}

mutual

/-- **A value is written as its leaves and zero bytes.** -/
theorem outlined_of_writeValue {owner field : String} {kind : FieldKind Target} {extent : Extent}
    {pool next : TextPool} {out : Bytes} {position : Nat} (value : Value)
    (hstorable : value.Storable writing.registry writing.scene kind)
    (hextent : writing.registry.extent? kind = some extent)
    (h : writeValue writing.registry writing.position? owner field value pool = .ok (out, next))
    (hslice : writing.bytes.slice? position out.length = some out) :
    Outlined writing.position? writing.bytes position (position + extent.size)
      (value.leaves writing.registry position) pool next := by
  have hlength := (wrote_of_writeValue value hstorable hextent h).length_eq
  rw [← hlength]
  cases value with
  | scalar number =>
      cases h
      rw [Scalar.length_bytes] at hslice ⊢
      exact .plain ⟨position, .scalar number⟩ hslice rfl
  | text content =>
      cases content with
      | none =>
          cases h
          rw [length_pointer] at hslice ⊢
          exact .plain ⟨position, .text none⟩ hslice rfl
      | some text =>
          cases h
          rw [length_pointer] at hslice ⊢
          exact .text hslice
  | component typeId values =>
      obtain ⟨target, rfl⟩ : ∃ target : Target, kind = .component target := by
        cases kind <;> simp_all [Value.Storable]
      obtain ⟨-, layout, hlayout, hvalues⟩ := hstorable
      rw [writeValue, hlayout] at h
      obtain ⟨⟨inner, middle⟩, hwrite, hok⟩ := bind_eq_ok_iff.1 h
      cases hok
      rw [Value.leaves, hlayout]
      dsimp only
      have hsound := (writing.sound typeId layout hlayout).2
      have hall := outlined_of_writeFields values hvalues hsound.extent hsound.inOrder_fields hwrite
        (Bytes.slice?_head hslice (Bytes.prefix_padTo _ _))
      rw [← List.append_nil (Value.allLeaves _ _ _ _)]
      refine hall.append (.blank fun i hstart hstop => ?_)
      have hle := (wroteAll_of_writeFields values hvalues hsound.extent hsound.inOrder_fields
        hwrite).length_le
      rw [Bytes.length_padTo, Nat.max_eq_left hle] at hstop
      exact Bytes.zero_of_padTo hslice (List.prefix_refl _) hstart hstop
  | ref key =>
      cases key with
      | none =>
          cases h
          rw [length_pointer] at hslice ⊢
          exact .plain ⟨position, .ref none⟩ hslice rfl
      | some key =>
          rw [writeValue] at h
          split at h
          · next target htarget =>
              cases h
              rw [length_pointer] at hslice ⊢
              exact .plain ⟨position, .ref (some key)⟩ ⟨target, htarget, hslice⟩ rfl
          · cases h

theorem outlined_of_writeFields {owner : RecordLayout} {fields : List FieldLayout} {size : Nat}
    {pool next : TextPool} {out written : Bytes} {offset : Nat} (values : List Value)
    (hstorable : Value.AllStorable writing.registry writing.scene fields values)
    (hextent : ∀ field ∈ fields, ∃ extent,
      writing.registry.extent? field.kind = some extent ∧ field.size = extent.size)
    (hinOrder : Span.InOrder written.length (fields.map FieldLayout.span) size)
    (h : writeFields writing.registry writing.position? owner fields values written pool =
      .ok (out, next))
    (hslice : writing.bytes.slice? offset out.length = some out) :
    Outlined writing.position? writing.bytes (offset + written.length) (offset + out.length)
      (Value.allLeaves writing.registry fields offset values) pool next := by
  cases values with
  | nil =>
      cases fields with
      | nil =>
          cases h
          exact .blank fun i hstart hstop => absurd hstop (Nat.not_lt.2 hstart)
      | cons field fields => exact hstorable.elim
  | cons value values =>
      cases fields with
      | nil => exact hstorable.elim
      | cons field fields =>
          rw [Value.AllStorable] at hstorable
          rw [writeFields] at h
          obtain ⟨⟨first, middle⟩, hfirst, hrest⟩ := bind_eq_ok_iff.1 h
          obtain ⟨⟨extent, hfield, hsize⟩, hextent⟩ := List.forall_mem_cons.1 hextent
          have hwrote := wrote_of_writeValue value hstorable.1 hfield hfirst
          have hend : field.offset + first.length = field.offset + field.size := by
            rw [hwrote.length_eq, hsize]
          obtain ⟨hlength, hnext⟩ := hinOrder.write hend
          have hwritten := (wroteAll_of_writeFields values hstorable.2 hextent hnext
            hrest).extends_written
          -- zero bytes up to the field, the field, and the fields behind it
          have hpad : Outlined writing.position? writing.bytes (offset + written.length)
              (offset + field.offset) [] pool pool := .blank fun i hstart hstop =>
            Bytes.zero_of_padTo hslice ((List.prefix_append _ _).trans hwritten) hstart hstop
          have hpart := Bytes.slice?_part hslice hwritten
          rw [hlength] at hpart
          have hvalue := outlined_of_writeValue value hstorable.1 hfield hfirst hpart
          have hall := outlined_of_writeFields values hstorable.2 hextent hnext hrest hslice
          rw [List.length_append, hlength, hwrote.length_eq, ← Nat.add_assoc] at hall
          exact (hpad.append hvalue).append hall

end

/-! ### Records -/

theorem outlined_of_writeRecord {entry : StoredRecord} {position : Nat}
    (hlayout : writing.registry.layout? entry.record.typeId = some entry.layout)
    (hstorable : entry.record.Storable writing.registry writing.scene)
    (h : writeRecord writing.registry writing.position? entry pool = .ok (out, next))
    (hslice : writing.bytes.slice? position out.length = some out) :
    Outlined writing.position? writing.bytes position (position + out.length)
      (Value.allLeaves writing.registry entry.layout.fields position entry.record.values) pool
      next := by
  obtain ⟨layout, hother, hvalues⟩ := hstorable
  cases hother.symm.trans hlayout
  obtain ⟨⟨inner, last⟩, hwrite, hok⟩ := bind_eq_ok_iff.1 h
  cases hok
  have hsound := (writing.sound _ _ hlayout).2
  have hall := outlined_of_writeFields entry.record.values hvalues hsound.extent
    hsound.inOrder_fields hwrite (Bytes.slice?_head hslice (Bytes.prefix_padTo _ _))
  have hle := (wroteAll_of_writeFields entry.record.values hvalues hsound.extent
    hsound.inOrder_fields hwrite).length_le
  rw [← List.append_nil (Value.allLeaves _ _ _ _)]
  refine hall.append (.blank fun i hstart hstop => ?_)
  rw [Bytes.length_padTo, Nat.max_eq_left hle] at hstop
  exact Bytes.zero_of_padTo hslice (List.prefix_refl _) hstart hstop

/-- **Records are written as their leaves and zero bytes.** -/
theorem outlined_of_writeRecords {places : List (StoredRecord × Nat)} {size : Nat}
    (hlayout : ∀ place ∈ places,
      writing.registry.layout? place.1.record.typeId = some place.1.layout)
    (hstorable : ∀ place ∈ places, place.1.record.Storable writing.registry writing.scene)
    (hinOrder : Span.InOrder written.length
      (places.map fun place => (StoredRecord.entryAt place).span) size)
    (h : writeRecords writing.registry writing.position? places written pool = .ok (out, next))
    (hslice : writing.bytes.slice? 0 out.length = some out) :
    Outlined writing.position? writing.bytes written.length out.length
      (places.flatMap fun place =>
        Value.allLeaves writing.registry place.1.layout.fields place.2 place.1.record.values)
      pool next := by
  induction places generalizing written pool with
  | nil =>
      cases h
      exact .blank fun i hstart hstop => absurd hstop (Nat.not_lt.2 hstart)
  | cons place rest ih =>
      obtain ⟨entry, position⟩ := place
      obtain ⟨hfirst, hlayout⟩ := List.forall_mem_cons.1 hlayout
      obtain ⟨hrecord, hstorable⟩ := List.forall_mem_cons.1 hstorable
      obtain ⟨⟨bytes, middle⟩, hwrite, hrest⟩ := bind_eq_ok_iff.1 h
      obtain ⟨hsize, -⟩ := wroteAll_of_writeRecord hfirst hrecord hwrite
      have hend : position + bytes.length = position + entry.layout.size := by rw [hsize]
      obtain ⟨hlength, hnext⟩ := hinOrder.write hend
      have hwritten :=
        (wroteRecords_of_writeRecords hlayout hstorable hnext hrest).extends_written
      have hpad : Outlined writing.position? writing.bytes written.length position [] pool
          pool := by
        refine .blank fun i hstart hstop => Bytes.zero_of_padTo hslice
          ((List.prefix_append _ _).trans hwritten) ?_ ?_
        · rwa [Nat.zero_add]
        · rwa [Nat.zero_add]
      have hpart := Bytes.slice?_part hslice hwritten
      rw [Nat.zero_add, hlength] at hpart
      have hone := outlined_of_writeRecord hfirst hrecord hwrite hpart
      have hall := ih hlayout hstorable hnext hrest
      rw [List.length_append, hlength] at hall
      exact (hpad.append hone).append hall

end Writing

/-- The leaves of the records of an arrangement. -/
def Arrangement.leaves (registry : Registry) (arrangement : Arrangement) : List Leaf :=
  arrangement.places.flatMap fun place =>
    Value.allLeaves registry place.1.layout.fields place.2 place.1.record.values

/-- **The records of an image are their leaves and zero bytes**, from the end of the directory up to
the texts. -/
theorem Scene.outlined_of_write {registry : Registry} (hsound : registry.Sound)
    {config : PackConfig} {scene : Scene} {out bytes : Bytes} {pool : TextPool}
    (hstorable : ∀ record ∈ scene, record.Storable registry scene)
    (hwrite : scene.write registry config = .ok (out, pool)) {total : Nat}
    (hbytes : bytes =
      (out.padTo (scene.arrange registry config).textAt ++ pool.bytes).padTo total) :
    Outlined (scene.arrange registry config).position? bytes
      (scene.arrange registry config).directoryEnd (scene.arrange registry config).textAt
      ((scene.arrange registry config).leaves registry)
      ⟨(scene.arrange registry config).textAt, config.shareTexts, []⟩ pool := by
  have hplaced := scene.placed hsound config
  have hwrote := wroteRecords_of_write hsound hstorable hwrite bytes
  have hout : out <+: bytes := hbytes ▸ (Bytes.parts_of_padTo hwrote.length_le total).1
  have hstored : ∀ place ∈ (scene.arrange registry config).places,
      place.1 ∈ scene.stored registry :=
    fun place hplace => Arrangement.mem_stored_of_mem_places hplace
  have hrecords := @Writing.outlined_of_writeRecords (scene.writing config hsound pool bytes) _ _ _
    _ _ _ (fun place hplace => (of_mem_stored hsound (hstored place hplace)).1)
    (fun place hplace => hstorable _
      (List.mem_of_getElem? (of_mem_stored hsound (hstored place hplace)).2.2))
    hplaced.inOrder_places hwrite (Bytes.slice?_front hout)
  rw [hplaced.length_front] at hrecords
  rw [← List.append_nil (Arrangement.leaves _ _)]
  refine hrecords.append (.blank fun i hstart hstop => ?_)
  have hpadded : out.padTo (scene.arrange registry config).textAt <+: bytes :=
    hbytes ▸ (List.prefix_append _ _).trans (Bytes.prefix_padTo _ _)
  refine Bytes.zero_of_padTo (Bytes.slice?_front hpadded) (List.prefix_refl _) ?_ ?_
  · rwa [Nat.zero_add]
  · rwa [Nat.zero_add]

end ScenePack
