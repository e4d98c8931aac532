/-
**What a fingerprint identifies.**

The byte string behind a fingerprint can be read back if no name holds a zero character: a name ends
at the next zero byte, a number has a fixed width, and the byte that ends a type begins no name.  So
two registries with the same string have the same outlines, hence the same layouts, and they accept
the same images.

A name with a zero character can take the place of a field and of parts of its neighbours.  The
fingerprint is then shared by registries that accept different images.

Main definitions:

* `Schema.NamesZeroFree` — schemas whose names hold no zero character.

Main results:

* `Fingerprint.outline_of_ofLayout` — the outline of a type can be read back from its bytes;
* `Registry.types_of_preimage` — **the byte string behind a fingerprint shows the layouts**;
* `Registry.fingerprint_eq_iff` — **equal fingerprints mean equal layouts**, unless the digest
  collides, and then images are accepted alike;
* `Sample.fingerprint_hides_pointer` — why names must not hold a zero character.
-/

import ScenePack.Image.View
import ScenePack.Layout.Fingerprint
import ScenePack.Proofs.Layout.Determined
import ScenePack.Proofs.Layout.Fits
import ScenePack.Proofs.Text

set_option relaxedAutoImplicit false
set_option autoImplicit false

namespace ScenePack

/-! ### Names without zero characters -/

/-- No name of the schema holds a zero character. -/
def Schema.NamesZeroFree (schema : Schema) : Prop :=
  ∀ type ∈ schema, ZeroFree type.name ∧ ∀ field ∈ type.fields, ZeroFree field.name

/-- The name of the target of a kind, empty without a target. -/
def FieldKind.targetName (kind : FieldKind Target) : String :=
  (kind.target?.map Target.name).getD ""

/-- No name of the type and its fields holds a zero character, those of targets included. -/
def RecordLayout.NamesZeroFree (layout : RecordLayout) : Prop :=
  ZeroFree layout.name ∧
    ∀ field ∈ layout.fields, ZeroFree field.name ∧ ZeroFree field.kind.targetName

/-- The names of a registry are those of its schema. -/
theorem Registry.Lists.namesZeroFree {registry : Registry} {schema : Schema}
    (h : registry.Lists schema) (hnames : schema.NamesZeroFree) :
    ∀ layout ∈ registry.types, layout.NamesZeroFree := by
  have hdeclared : ∀ layout ∈ registry.types, layout.declares ∈ schema :=
    fun layout hlayout => h.perm.mem_iff.1 (List.mem_map_of_mem hlayout)
  intro layout hlayout
  obtain ⟨hname, hfields⟩ := hnames _ (hdeclared layout hlayout)
  refine ⟨hname, fun field hfield => ⟨hfields _ (List.mem_map_of_mem hfield), ?_⟩⟩
  rw [FieldKind.targetName]
  cases htarget : field.kind.target? with
  | none => exact show ZeroFree "" by decide
  | some target =>
      have hlookup := h.target layout hlayout field hfield target htarget
      obtain ⟨inner, hinner, hsame⟩ := (h.lookup_iff _ _).1 hlookup
      have hmem : inner ∈ registry.types := List.mem_of_getElem? hinner
      exact show ZeroFree target.name from hsame ▸ (hnames _ (hdeclared inner hmem)).1

namespace FieldKind

theorem zeroFree_tag {Target : Type} (kind : FieldKind Target) : ZeroFree kind.tag := by
  have hscalar : ∀ type : ScalarType, ZeroFree type.name := by
    intro type
    cases type <;> decide
  cases kind with
  | scalar type => exact hscalar type
  | text => exact show ZeroFree "text" by decide
  | component target => exact show ZeroFree "component" by decide
  | ref target => exact show ZeroFree "component_ref" by decide

/-- The kinds whose spelling is that of a number type. -/
theorem eq_scalar_of_tag {Target : Type} {kind : FieldKind Target} {type : ScalarType}
    (h : kind.tag = type.name) : kind = .scalar type := by
  have hother : ∀ type : ScalarType, type.name ≠ "text" ∧ type.name ≠ "component" ∧
      type.name ≠ "component_ref" := by
    intro type
    cases type <;> decide
  cases kind with
  | scalar found =>
      have hname := ScalarType.ofName?_name found
      rw [show found.name = type.name from h, ScalarType.ofName?_name, Option.some_inj] at hname
      rw [hname]
  | text => exact absurd h.symm (hother type).1
  | component target => exact absurd h.symm (hother type).2.1
  | ref target => exact absurd h.symm (hother type).2.2

/-- **A kind is known by its spelling and the name of its target.** -/
theorem map_name_eq_of_tag {kind other : FieldKind Target} (htag : kind.tag = other.tag)
    (htarget : kind.targetName = other.targetName) :
    kind.map Target.name = other.map Target.name := by
  cases kind with
  | scalar type => rw [eq_scalar_of_tag htag.symm]
  | text =>
      cases other with
      | scalar type => cases eq_scalar_of_tag htag
      | text => rfl
      | component target => exact absurd htag (by simp [tag])
      | ref target => exact absurd htag (by simp [tag])
  | component target =>
      cases other with
      | scalar type => cases eq_scalar_of_tag htag
      | text => exact absurd htag (by simp [tag])
      | component found => exact congrArg component htarget
      | ref found => exact absurd htag (by simp [tag])
  | ref target =>
      cases other with
      | scalar type => cases eq_scalar_of_tag htag
      | text => exact absurd htag (by simp [tag])
      | component found => exact absurd htag (by simp [tag])
      | ref found => exact congrArg ref htarget

end FieldKind

/-! ### Reading the bytes back -/

namespace Fingerprint

variable {rest others : Bytes}

/-- A text can be read back up to its final zero. -/
theorem text_of_terminated {text other : String} (htext : ZeroFree text) (hother : ZeroFree other)
    (h : terminated text ++ rest = terminated other ++ others) : text = other ∧ rest = others := by
  rw [terminated, terminated, List.append_assoc, List.append_assoc] at h
  have hbytes : Utf8.encode text = Utf8.encode other := by
    rw [← Bytes.takeWhile_append_zero (Utf8.zero_notMem_encode htext),
      ← Bytes.takeWhile_append_zero (Utf8.zero_notMem_encode hother)]
    exact congrArg (List.takeWhile (· ≠ 0)) h
  refine ⟨Utf8.encode_injective hbytes, ?_⟩
  rw [hbytes] at h
  exact (List.cons.inj (List.append_cancel_left h)).2

theorem number_of_append {value other : Nat} (h : number value ++ rest = number other ++ others) :
    number value = number other ∧ rest = others :=
  List.append_inj h (by simp only [number, Word.length_encode])

theorem eq_of_number {value other : Nat} (hvalue : value < Address.space)
    (hother : other < Address.space) (h : number value = number other) : value = other := by
  have hdecode := congrArg Word.decode h
  rwa [number, number, Word.decode_encode hvalue, Word.decode_encode hother] at hdecode

/-- **What is declared of a field can be read back from its bytes.** -/
theorem declared_of_ofField {field other : FieldLayout}
    (hname : ZeroFree field.name) (htarget : ZeroFree field.kind.targetName)
    (hname' : ZeroFree other.name) (htarget' : ZeroFree other.kind.targetName)
    (h : ofField field ++ rest = ofField other ++ others) :
    field.declared = other.declared ∧ rest = others := by
  simp only [ofField, List.append_assoc] at h
  obtain ⟨hnames, h⟩ := text_of_terminated hname hname' h
  obtain ⟨htags, h⟩ := text_of_terminated field.kind.zeroFree_tag other.kind.zeroFree_tag h
  obtain ⟨htargets, h⟩ := text_of_terminated htarget htarget' h
  obtain ⟨-, hrest⟩ := number_of_append h
  refine ⟨?_, hrest⟩
  rw [FieldLayout.declared, FieldLayout.declared, hnames,
    FieldKind.map_name_eq_of_tag htags htargets]

theorem ofField_ne_cons (field : FieldLayout) :
    ofField field ++ rest ≠ 0xff :: others := by
  intro h
  simp only [ofField, terminated, List.append_assoc] at h
  cases hname : Utf8.encode field.name with
  | nil =>
      rw [hname] at h
      cases h
  | cons byte bytes =>
      rw [hname] at h
      obtain ⟨rfl, -⟩ := List.cons.inj h
      exact Utf8.full_notMem_encode field.name (hname ▸ List.mem_cons_self)

/-- **What is declared of the fields of a type can be read back**, up to the end of the type. -/
theorem declared_of_fields {fields fields' : List FieldLayout}
    (hfields : ∀ field ∈ fields, ZeroFree field.name ∧ ZeroFree field.kind.targetName)
    (hfields' : ∀ field ∈ fields', ZeroFree field.name ∧ ZeroFree field.kind.targetName)
    (h : fields.flatMap ofField ++ 0xff :: rest = fields'.flatMap ofField ++ 0xff :: others) :
    fields.map FieldLayout.declared = fields'.map FieldLayout.declared ∧ rest = others := by
  induction fields generalizing fields' with
  | nil =>
      cases fields' with
      | nil => exact ⟨rfl, (List.cons.inj h).2⟩
      | cons other others' =>
          rw [List.flatMap_cons, List.append_assoc] at h
          exact absurd h.symm (ofField_ne_cons other)
  | cons field fields ih =>
      cases fields' with
      | nil =>
          rw [List.flatMap_cons, List.append_assoc] at h
          exact absurd h (ofField_ne_cons field)
      | cons other others' =>
          obtain ⟨⟨hname, htarget⟩, hfields⟩ := List.forall_mem_cons.1 hfields
          obtain ⟨⟨hname', htarget'⟩, hfields'⟩ := List.forall_mem_cons.1 hfields'
          rw [List.flatMap_cons, List.flatMap_cons, List.append_assoc, List.append_assoc] at h
          obtain ⟨hdeclared, h⟩ := declared_of_ofField hname htarget hname' htarget' h
          obtain ⟨hrest, h⟩ := ih hfields hfields' h
          exact ⟨by rw [List.map_cons, List.map_cons, hdeclared, hrest], h⟩

/-- A layout that can be read back: its names hold no zero character, and its size and alignment
are addresses. -/
structure Readable (layout : RecordLayout) : Prop where
  names : layout.NamesZeroFree
  size : layout.size < Address.space
  align : layout.align < Address.space

/-- **The outline of a type can be read back from its bytes.** -/
theorem outline_of_ofLayout {layout other : RecordLayout} (hlayout : Readable layout)
    (hother : Readable other) (h : ofLayout layout ++ rest = ofLayout other ++ others) :
    layout.outline = other.outline ∧ rest = others := by
  simp only [ofLayout, List.append_assoc] at h
  obtain ⟨hname, h⟩ := text_of_terminated hlayout.names.1 hother.names.1 h
  obtain ⟨hsize, h⟩ := number_of_append h
  obtain ⟨halign, h⟩ := number_of_append h
  obtain ⟨hfields, hrest⟩ := declared_of_fields hlayout.names.2 hother.names.2 h
  refine ⟨?_, hrest⟩
  rw [RecordLayout.outline, RecordLayout.outline, RecordLayout.declares, RecordLayout.declares,
    hname, hfields, eq_of_number hlayout.size hother.size hsize,
    eq_of_number hlayout.align hother.align halign]

/-- The outlines of a list of types can be read back. -/
theorem outlines_of_types {types types' : List RecordLayout}
    (htypes : ∀ layout ∈ types, Readable layout) (htypes' : ∀ layout ∈ types', Readable layout)
    (h : types.flatMap ofLayout = types'.flatMap ofLayout) :
    types.map RecordLayout.outline = types'.map RecordLayout.outline := by
  have hempty : ∀ (layout : RecordLayout) (rest : Bytes), ofLayout layout ++ rest ≠ [] := by
    simp [ofLayout]
  induction types generalizing types' with
  | nil =>
      cases types' with
      | nil => rfl
      | cons other others => exact absurd h.symm (hempty other _)
  | cons layout types ih =>
      cases types' with
      | nil => exact absurd h (hempty layout _)
      | cons other others =>
          obtain ⟨hlayout, htypes⟩ := List.forall_mem_cons.1 htypes
          obtain ⟨hother, htypes'⟩ := List.forall_mem_cons.1 htypes'
          rw [List.flatMap_cons, List.flatMap_cons] at h
          obtain ⟨houtline, h⟩ := outline_of_ofLayout hlayout hother h
          rw [List.map_cons, List.map_cons, houtline, ih htypes htypes' h]

end Fingerprint

/-! ### Images under registries with the same types -/

variable {first second : Registry}

theorem layout?_congr (h : first.types = second.types) : first.layout? = second.layout? := by
  funext id
  rw [Registry.layout?, Registry.layout?, h]

theorem readEntries_congr (h : first.types = second.types) :
    readEntries first = readEntries second := by
  funext bytes base rangesAt directoryAt limit remaining
  induction remaining with
  | zero => rfl
  | succ remaining ih =>
      funext range total entries
      simp only [readEntries, layout?_congr h, ih]

/-- **Images are scanned by the types alone.** -/
theorem scan_congr (h : first.types = second.types) : scan first = scan second := by
  have hdescribe : first.describe = second.describe := by
    funext id
    rw [Registry.describe, Registry.describe, layout?_congr h]
  have hcheck : checkSlot first = checkSlot second := by
    funext bytes base spans entries entry slot
    simp only [checkSlot, hdescribe]
  funext base bytes
  simp only [scan, readEntries_congr h, hcheck]

theorem relocate_congr (h : first.types = second.types) : relocate first = relocate second := by
  funext base bytes
  simp only [relocate, relocateScan, scan_congr h]

/-- The views of an image under registries with the same types differ only in their registry. -/
theorem View.ofBytes_congr (h : first.types = second.types) (base : Nat) (bytes : Bytes) :
    View.ofBytes second base bytes =
      (View.ofBytes first base bytes).map fun view => { view with registry := second } := by
  rw [View.ofBytes, View.ofBytes, scan_congr h]
  cases scan second base bytes with
  | error error => rfl
  | ok found =>
      simp only [View.ofScan, bind, Except.bind]
      cases bytes.readHeader with
      | error error => rfl
      | ok header => rfl

namespace Registry

variable {schema schema' : Schema} {config config' : LayoutConfig}

/-! ### Fingerprints -/

theorem readable_of_build {registry : Registry} (h : build schema config = .ok registry)
    (hnames : schema.NamesZeroFree) : ∀ layout ∈ registry.types, Fingerprint.Readable layout := by
  intro layout hlayout
  have halign := (isAlignment_of_buildWith (unbounded_of_build h) layout hlayout).le_greatest
  exact ⟨(lists_of_build h).namesZeroFree hnames layout hlayout,
    size_lt_of_build h layout hlayout, Nat.lt_of_le_of_lt halign (by decide)⟩

/-- **The byte string behind a fingerprint shows the layouts.** -/
theorem types_of_preimage (hfirst : build schema config = .ok first)
    (hsecond : build schema' config' = .ok second) (hnames : schema.NamesZeroFree)
    (hnames' : schema'.NamesZeroFree) (h : first.preimage = second.preimage) :
    first.types = second.types := by
  obtain ⟨-, htypes⟩ := Fingerprint.number_of_append h
  have houtlines := Fingerprint.outlines_of_types (readable_of_build hfirst hnames)
    (readable_of_build hsecond hnames') htypes
  exact types_eq_of_outlines (unbounded_of_build hfirst) (unbounded_of_build hsecond) houtlines

/-- **Equal fingerprints mean equal layouts**, for two registries whose names hold no zero character
and on whose byte strings the digest does not collide.  Then both relocate every image alike, and
their views of it differ only in their registry. -/
theorem fingerprint_eq_iff (hfirst : build schema config = .ok first)
    (hsecond : build schema' config' = .ok second) (hnames : schema.NamesZeroFree)
    (hnames' : schema'.NamesZeroFree)
    (hdigest : Blake3.digest first.preimage = Blake3.digest second.preimage →
      first.preimage = second.preimage) :
    (first.fingerprint = second.fingerprint ↔ first.types = second.types) ∧
      (first.fingerprint = second.fingerprint → ∀ base bytes,
        relocate first base bytes = relocate second base bytes ∧
        View.ofBytes second base bytes =
          (View.ofBytes first base bytes).map fun view => { view with registry := second }) := by
  have htypes : first.fingerprint = second.fingerprint → first.types = second.types :=
    fun h => types_of_preimage hfirst hsecond hnames hnames' (hdigest (Hex.ofBytes_injective h))
  refine ⟨⟨htypes, fun h => ?_⟩, fun h base bytes => ⟨?_, View.ofBytes_congr (htypes h) base bytes⟩⟩
  · rw [fingerprint, fingerprint, preimage, preimage, h]
  · rw [relocate_congr (htypes h)]

end Registry

namespace Sample

/-- The layouts of the sample under small alignments. -/
def smallTypes : List RecordLayout :=
  [⟨0, "Node", 1, 24, 8,
      [⟨"w", .scalar .u16, 0, 2, 2⟩, ⟨"tag", .component ⟨"Tag", 1⟩, 8, 8, 8⟩,
        ⟨"next", .ref ⟨"Node", 0⟩, 16, 8, 8⟩],
      [⟨8, .text⟩, ⟨16, .ref 0⟩]⟩,
    ⟨1, "Tag", 0, 8, 8, [⟨"label", .text, 0, 8, 8⟩], [⟨0, .text⟩]⟩]

end Sample

/-- The order of a schema and the alignment asked for need not show. -/
theorem Registry.fingerprint_eq_iff_sample : ∃ first second,
    build Sample.schema ⟨8⟩ = .ok first ∧ build Sample.schema.reverse ⟨4⟩ = .ok second ∧
      first ≠ second ∧ first.fingerprint = second.fingerprint := by
  have hfirst : build Sample.schema ⟨8⟩ = .ok ⟨⟨8⟩, Sample.smallTypes⟩ := by cbv
  have hsecond : build Sample.schema.reverse ⟨4⟩ = .ok ⟨⟨4⟩, Sample.smallTypes⟩ := by cbv
  have hnames : Sample.schema.NamesZeroFree := by
    unfold Schema.NamesZeroFree
    decide
  have hnames' : Schema.NamesZeroFree Sample.schema.reverse := by
    unfold Schema.NamesZeroFree
    decide
  have hsame := (fingerprint_eq_iff hfirst hsecond hnames hnames' fun _ => rfl).1.2 rfl
  exact ⟨_, _, hfirst, hsecond, by decide, hsame⟩

/-! ### Names with zero characters -/

namespace Sample

/-- A type with a number, a text and an embedded type. -/
def spacious : Schema :=
  [⟨"Inner", []⟩,
    ⟨"Outer", [⟨"p", .scalar .u8⟩, ⟨"x", .text⟩, ⟨"y", .component "Inner"⟩]⟩]

/-- The name of the embedded field with the bytes of the text field in front. -/
def deceptiveName : String := "x\x00text\x00\x00\x08\x00\x00\x00\x00\x00\x00\x00y"

/-- The same type without the text. -/
def deceptive : Schema :=
  [⟨"Inner", []⟩, ⟨"Outer", [⟨"p", .scalar .u8⟩, ⟨deceptiveName, .component "Inner"⟩]⟩]

/-- The layout of the embedded type. -/
def innerLayout : RecordLayout := ⟨1, "Inner", 0, 16, 16, [], []⟩

/-- The registry with the text. -/
def spaciousRegistry : Registry :=
  ⟨⟨16⟩, [⟨0, "Outer", 1, 32, 16,
      [⟨"p", .scalar .u8, 0, 1, 1⟩, ⟨"x", .text, 8, 8, 8⟩,
        ⟨"y", .component ⟨"Inner", 1⟩, 16, 16, 16⟩],
      [⟨8, .text⟩]⟩, innerLayout]⟩

/-- The registry without the text. -/
def deceptiveRegistry : Registry :=
  ⟨⟨16⟩, [⟨0, "Outer", 1, 32, 16,
      [⟨"p", .scalar .u8, 0, 1, 1⟩, ⟨deceptiveName, .component ⟨"Inner", 1⟩, 16, 16, 16⟩],
      []⟩, innerLayout]⟩

/-- An image of one outer record; the word where a text may be expected leads past the end. -/
def stray : Bytes :=
  [40, 1, 32, 1, 4294967296, 48, 0, 80, 0, 0].flatMap (Word.encode Address.width)

/-- **A fingerprint does not show where a name ends.**  Two registries with different fields share
it, and one of them accepts an image that the other rejects. -/
theorem fingerprint_hides_pointer :
    Registry.build spacious ⟨16⟩ = .ok spaciousRegistry ∧
      Registry.build deceptive ⟨16⟩ = .ok deceptiveRegistry ∧
      spaciousRegistry.preimage = deceptiveRegistry.preimage ∧
      spaciousRegistry.fingerprint = deceptiveRegistry.fingerprint ∧
      spaciousRegistry.types ≠ deceptiveRegistry.types ∧
      View.ofBytes spaciousRegistry 0 stray = .error (.outOfBounds 80 0 80) ∧
      relocate spaciousRegistry 0 stray = (.error (.outOfBounds 80 0 80), stray) ∧
      (∃ view, View.ofBytes deceptiveRegistry 0 stray = .ok view) ∧
      relocate deceptiveRegistry 0 stray = (.ok 3, stray) := by
  have hpreimage : spaciousRegistry.preimage = deceptiveRegistry.preimage := by decide
  have hview : View.ofBytes deceptiveRegistry 0 stray =
      .ok ⟨deceptiveRegistry, 0, stray, ⟨40, 1, 32, 1⟩, 32, 40⟩ := by cbv
  refine ⟨by cbv, by cbv, hpreimage, ?_, by decide, by cbv, by cbv, ⟨_, hview⟩, by cbv⟩
  rw [Registry.fingerprint, Registry.fingerprint, hpreimage]

end Sample

end ScenePack
