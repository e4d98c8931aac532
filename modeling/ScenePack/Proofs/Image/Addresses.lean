/-
**The addresses of records.**

A view shows the records of an image as if the image stood at its base: the address of a record is
its position behind the base.  The scan looks at the positions of instances only, and does not ask
whether an image that begins at the base ends in the address space.  A record that is embedded in
an instance inherits its place, and with it its alignment; but where the instance still begins
inside the address space, the embedded record can lie behind its end.

Main definitions:

* `Registry.RecordAt` — the records in a record, by position: itself, and those embedded in it;
* `RecordView.Aligned` — a record that lies in memory as its layout asks, with all its fields.

Main results:

* `Accepted.reached_iff` — **the records that are reached are the records in the instances**;
* `View.address_eq_iff` — **which records have their exact address**;
* `Sample.address_wraps` — a record whose address is reduced;
* `Registry.RecordAt.align_dvd` — a record in a record is aligned if the record is;
* `View.aligned_of_ofBytes` — **every record that is reached is aligned in memory**.
-/

import ScenePack.Proofs.Image.Reading
import ScenePack.Proofs.Image.Relocation
import ScenePack.Proofs.Layout.Faithful

set_option relaxedAutoImplicit false
set_option autoImplicit false

namespace ScenePack

/-! ### Records in records -/

/-- The records in a record, by their positions in it: the record itself, and the records that are
embedded in it at any depth. -/
inductive Registry.RecordAt (registry : Registry) (layout : RecordLayout) :
    (offset : Nat) → RecordLayout → Prop where
  | self : RecordAt registry layout 0 layout
  | embedded {offset : Nat} {outer inner : RecordLayout} {field : FieldLayout} {target : Target}
      (h : RecordAt registry layout offset outer) (hfield : field ∈ outer.fields)
      (hkind : field.kind = .component target)
      (hinner : registry.layout? target.id = some inner) :
      RecordAt registry layout (offset + field.offset) inner

namespace Accepted

variable {registry : Registry} {base : Nat} {bytes : Bytes} {found : Scan}

/-- **The records that are reached are the records in the instances**: reading an embedded record
stays in the instance, and reading a reference leads back to an instance. -/
theorem reached_iff (h : Accepted registry base bytes found) (hsound : registry.Sound)
    {record : RecordView} :
    (found.view registry base bytes).Reached record ↔
      record.view = found.view registry base bytes ∧
        ∃ listed ∈ (found.view registry base bytes).instances, ∃ offset,
          registry.RecordAt listed.layout offset record.layout ∧
            record.offset = listed.offset + offset := by
  have hviews : ∀ listed ∈ (found.view registry base bytes).instances,
      listed.view = found.view registry base bytes :=
    fun listed hlisted => (h.holds_of_stored hsound (.listed hlisted)).1
  constructor
  · intro hreached
    induction hreached with
    | listed hlisted => exact ⟨hviews _ hlisted, _, hlisted, 0, .self, rfl⟩
    | @read record inner field value hrecord hfield hread hinner ih =>
        obtain ⟨hview, hholds⟩ := h.holds_of_reached hsound hrecord
        obtain ⟨-, listed, hlisted, offset, hat, hoffset⟩ := ih
        obtain ⟨_, hvalue, hreads⟩ := h.exists_readField hsound hview hholds hfield
        cases hread.symm.trans hvalue
        cases value with
        | scalar value => cases hinner
        | text value => cases hinner
        | component embedded =>
            cases hinner
            obtain ⟨target, layout, hkind, hlayout, rfl⟩ :=
              RecordView.kind_of_readField_component hread
            rw [hview] at hlayout
            exact ⟨hview, listed, hlisted, offset + field.offset,
              hat.embedded hfield hkind hlayout, by rw [hoffset, Nat.add_assoc]⟩
        | ref target =>
            obtain rfl : target = some inner := hinner
            obtain ⟨_, _, _, _, htarget, _, _⟩ := hreads
            rw [hview] at htarget
            exact ⟨hviews inner htarget, inner, htarget, 0, .self, rfl⟩
  · rintro ⟨hview, listed, hlisted, offset, hat, hoffset⟩
    obtain ⟨view, layout, position⟩ := record
    dsimp only at hview hat hoffset
    subst hview hoffset
    -- the way into the instance is the way of the reading
    induction hat with
    | self =>
        have heq := hviews listed hlisted
        obtain ⟨view, layout, position⟩ := listed
        dsimp only at heq
        subst heq
        exact .listed hlisted
    | embedded _ hfield hkind hinner ih =>
        refine .read ih hfield ((RecordView.readField_component_iff hkind).2 ⟨_, hinner, rfl⟩) ?_
        rw [FieldView.asRecord, Nat.add_assoc]

end Accepted

/-! ### Exact addresses -/

/-- An address is exact if it is in the address space. -/
theorem RecordView.address_exact_iff {record : RecordView} :
    record.address = record.view.base + record.offset ↔
      record.view.base + record.offset < Address.space := by
  constructor
  · intro h
    rw [← h]
    exact Address.wrap_lt _
  · exact Address.wrap_of_lt

namespace Accepted

variable {registry : Registry} {base : Nat} {bytes : Bytes} {found : Scan}

/-- **An instance begins in the address space**: the directory holds its address. -/
theorem lt_space_of_listed (h : Accepted registry base bytes found) {listed : RecordView}
    (hlisted : listed ∈ (found.view registry base bytes).instances) :
    base + listed.offset < Address.space := by
  obtain ⟨entry, hentry, rfl⟩ := h.mem_instances_iff.1 hlisted
  obtain ⟨ranges, -, -, -, hlists⟩ := h.listed
  obtain ⟨place, -, layout, -, hread⟩ := exists_mem_of_forall₂ hlists hentry
  obtain ⟨-, -, -, hword⟩ := readEntry_eq_ok_iff.1 hread
  exact Bytes.word?_lt (Bytes.readSlot_eq_ok_iff.1 hword)

theorem offset_lt_of_reached (h : Accepted registry base bytes found) (hsound : registry.Sound)
    {record : RecordView} (hrecord : (found.view registry base bytes).Reached record) :
    record.offset < bytes.length := by
  obtain ⟨-, hholds⟩ := h.holds_of_reached hsound hrecord
  obtain ⟨position, hlayout⟩ := hholds.known
  have hsize := (hsound position _ hlayout).2.size_pos
  have hinside := hholds.inside
  omega

/-- A record that is reached has its exact address if it begins in the address space. -/
theorem address_eq_iff_of_reached (h : Accepted registry base bytes found)
    (hsound : registry.Sound) {record : RecordView}
    (hrecord : (found.view registry base bytes).Reached record) :
    record.address = base + record.offset ↔ base + record.offset < Address.space := by
  have haddress := @RecordView.address_exact_iff record
  rwa [(h.holds_of_reached hsound hrecord).1] at haddress

end Accepted

namespace Sample

/-- A base with room for 64 bytes in front of the end of the address space. -/
def lastBase : Nat := Address.space - 64

/-- The image of one node at 48, which refers to itself and holds a tag without a name, to be read
at that base. -/
def lastImage : Bytes :=
  [lastBase + 40, 1, lastBase + 32, 1, 4294967296, lastBase + 48, 7, 0, 0, 0, lastBase + 48,
    0].flatMap (Word.encode Address.width)

/-- The view of that image. -/
def lastView : View :=
  ⟨registry, lastBase, lastImage, ⟨lastBase + 40, 1, lastBase + 32, 1⟩, 32, 40⟩

theorem ofBytes_lastImage : View.ofBytes registry lastBase lastImage = .ok lastView := by cbv

/-- The layout of nodes. -/
def nodeLayout : RecordLayout :=
  ⟨0, "Node", 1, 48, 16,
    [⟨"w", .scalar .u16, 0, 2, 2⟩, ⟨"tag", .component ⟨"Tag", 1⟩, 16, 16, 16⟩,
      ⟨"next", .ref ⟨"Node", 0⟩, 32, 8, 8⟩],
    [⟨16, .text⟩, ⟨32, .ref 0⟩]⟩

/-- The layout of tags. -/
def tagLayout : RecordLayout := ⟨1, "Tag", 0, 16, 16, [⟨"label", .text, 0, 8, 8⟩], [⟨0, .text⟩]⟩

/-- The field of nodes that embeds a tag. -/
def tagField : FieldLayout := ⟨"tag", .component ⟨"Tag", 1⟩, 16, 16, 16⟩

theorem tagField_mem : tagField ∈ nodeLayout.fields := by simp [nodeLayout, tagField]

theorem recordAt_tag : registry.RecordAt nodeLayout 16 tagLayout :=
  Registry.RecordAt.self.embedded tagField_mem rfl rfl

theorem reached_tag {view : View} {offset : Nat} (hregistry : view.registry = registry)
    (hnode : ⟨view, nodeLayout, offset⟩ ∈ view.instances) :
    view.Reached ⟨view, tagLayout, offset + 16⟩ :=
  .read (.listed hnode) tagField_mem
    ((RecordView.readField_component_iff rfl).2 ⟨tagLayout, hregistry ▸ rfl, rfl⟩) rfl

theorem instances_lastView : lastView.instances = [⟨lastView, nodeLayout, 48⟩] := by cbv

end Sample

namespace View

variable {registry : Registry} {base : Nat} {bytes : Bytes} {view : View}

/-- **Which records have their exact address.**  All instances do, and so does every record that a
reference leads to.  All records that are reached do if the image ends in the address space, as it
does after a relocation; and in general exactly if every record in an instance begins in the address
space. -/
theorem address_eq_iff (hexact : registry.Exact)
    (hview : View.ofBytes registry base bytes = .ok view) :
    (∀ record ∈ view.instances, record.address = base + record.offset) ∧
      (∀ record, view.Reached record → ∀ field ∈ record.layout.fields, ∀ target,
        record.readField field = .ok (.ref (some target)) →
          target.address = base + target.offset) ∧
      (base + bytes.length ≤ Address.space →
        ∀ record, view.Reached record → record.address = base + record.offset) ∧
      ((∀ record, view.Reached record → record.address = base + record.offset) ↔
        ∀ listed ∈ view.instances, ∀ offset inner,
          registry.RecordAt listed.layout offset inner →
            base + listed.offset + offset < Address.space) := by
  have hsound := hexact.sound
  obtain ⟨found, haccepted, rfl⟩ := (View.ofBytes_eq_ok_iff hsound).1 hview
  have hlisted : ∀ listed ∈ (found.view registry base bytes).instances,
      listed.address = base + listed.offset := fun listed hlisted =>
    (haccepted.address_eq_iff_of_reached hsound (.listed hlisted)).2
      (haccepted.lt_space_of_listed hlisted)
  refine ⟨hlisted, ?_, ?_, ?_, ?_⟩
  · intro record hrecord field hfield target hread
    obtain ⟨hrecordview, hholds⟩ := haccepted.holds_of_reached hsound hrecord
    obtain ⟨_, hvalue, hreads⟩ := haccepted.exists_readField hsound hrecordview hholds hfield
    cases hread.symm.trans hvalue
    obtain ⟨_, _, _, _, htarget, _, _⟩ := hreads
    exact hlisted target (hrecordview ▸ htarget)
  · intro hspace record hrecord
    have hlt := haccepted.offset_lt_of_reached hsound hrecord
    exact (haccepted.address_eq_iff_of_reached hsound hrecord).2 (by omega)
  · intro hall listed hmem offset inner hat
    have hreached : (found.view registry base bytes).Reached
        ⟨found.view registry base bytes, inner, listed.offset + offset⟩ :=
      (haccepted.reached_iff hsound).2 ⟨rfl, listed, hmem, offset, hat, rfl⟩
    rw [Nat.add_assoc]
    exact (haccepted.address_eq_iff_of_reached hsound hreached).1 (hall _ hreached)
  · intro hall record hrecord
    obtain ⟨-, listed, hmem, offset, hat, hoffset⟩ := (haccepted.reached_iff hsound).1 hrecord
    refine (haccepted.address_eq_iff_of_reached hsound hrecord).2 ?_
    rw [hoffset, ← Nat.add_assoc]
    exact hall listed hmem offset record.layout hat

/-- Of the image at the last base, the instance has its exact address, and not every record that is
reached does: the tag in the node does not begin in the address space. -/
theorem address_eq_iff_sample :
    Sample.registry.Exact ∧
      View.ofBytes Sample.registry Sample.lastBase Sample.lastImage = .ok Sample.lastView ∧
      (∀ record ∈ Sample.lastView.instances, record.address = Sample.lastBase + record.offset) ∧
      ¬∀ record, Sample.lastView.Reached record →
        record.address = Sample.lastBase + record.offset := by
  obtain ⟨hlisted, -, -, hiff⟩ := address_eq_iff Sample.exact Sample.ofBytes_lastImage
  refine ⟨Sample.exact, Sample.ofBytes_lastImage, hlisted, fun hall => ?_⟩
  have hnode : ⟨Sample.lastView, Sample.nodeLayout, 48⟩ ∈ Sample.lastView.instances :=
    Sample.instances_lastView ▸ List.mem_singleton_self _
  exact absurd (hiff.1 hall _ hnode 16 Sample.tagLayout Sample.recordAt_tag) (by decide)

end View

namespace Sample

/-- **A record whose address is reduced**: the node begins 16 bytes in front of the end of the
address space, and its tag exactly there. -/
theorem address_wraps :
    registry.Exact ∧ View.ofBytes registry lastBase lastImage = .ok lastView ∧
      ∃ tag, lastView.Reached tag ∧ lastBase + tag.offset = Address.space ∧ tag.address = 0 := by
  have hnode : ⟨lastView, nodeLayout, 48⟩ ∈ lastView.instances :=
    instances_lastView ▸ List.mem_singleton_self _
  exact ⟨exact, ofBytes_lastImage, _, reached_tag rfl hnode, by decide, by decide⟩

end Sample

/-! ### Alignment -/

theorem Registry.Exact.declared {registry : Registry} (hexact : registry.Exact) :
    ∀ layout ∈ registry.types, ∃ type, layout.Declared registry type := by
  obtain ⟨schema, config, hbuild⟩ := hexact
  intro layout hlayout
  obtain ⟨type, hdeclared⟩ := declared_of_buildWith (unbounded_of_build hbuild) layout hlayout
  exact ⟨type, hdeclared.2⟩

/-- **A record in a record is aligned if the record is**, and is not more aligned than it. -/
theorem Registry.RecordAt.align_dvd {registry : Registry}
    (hall : ∀ layout ∈ registry.types, ∃ type, layout.Declared registry type)
    {layout inner : RecordLayout} {offset : Nat} (h : registry.RecordAt layout offset inner)
    (hlayout : layout ∈ registry.types) :
    inner ∈ registry.types ∧ inner.align ∣ layout.align ∧ inner.align ∣ offset := by
  induction h with
  | self => exact ⟨hlayout, Nat.dvd_refl _, Nat.dvd_zero _⟩
  | @embedded offset outer inner field target _ hfield hkind hinner ih =>
      obtain ⟨houter, haround, hbefore⟩ := ih
      obtain ⟨type, hdeclared⟩ := hall outer houter
      have halign := hdeclared.align_eq hfield hkind hinner
      have hdvd : inner.align ∣ outer.align := halign ▸ hdeclared.field_dvd_align field hfield
      have hoffset : inner.align ∣ field.offset := halign ▸ hdeclared.align_dvd_offset field hfield
      exact ⟨List.mem_of_getElem? hinner, Nat.dvd_trans hdvd haround,
        Nat.dvd_add (Nat.dvd_trans hdvd hbefore) hoffset⟩

namespace RecordView

/-- A record that lies in memory as its layout asks: its position behind the base is a multiple of
its alignment, and so are those of its fields of theirs.  The same holds of addresses, which may be
reduced. -/
structure Aligned (record : RecordView) : Prop where
  position : record.layout.align ∣ record.view.base + record.offset
  address : record.layout.align ∣ record.address
  fieldPosition : ∀ field ∈ record.layout.fields,
    field.align ∣ record.view.base + record.offset + field.offset
  fieldAddress : ∀ field ∈ record.layout.fields,
    field.align ∣ Address.wrap (record.address + field.offset)

/-- A record whose position is aligned is aligned with all its fields, because a record is at least
as aligned as they are. -/
theorem aligned_of_dvd {registry : Registry} {type : ComponentType} {record : RecordView}
    (hdeclared : record.layout.Declared registry type)
    (hposition : record.layout.align ∣ record.view.base + record.offset) : record.Aligned := by
  have hspace := hdeclared.align.dvd_space
  have haddress : record.layout.align ∣ record.address := (Nat.dvd_mod_iff hspace).2 hposition
  have hfield : ∀ field ∈ record.layout.fields, ∀ start, record.layout.align ∣ start →
      field.align ∣ start + field.offset := fun field hmem start hstart =>
    Nat.dvd_add (Nat.dvd_trans (hdeclared.field_dvd_align field hmem) hstart)
      (hdeclared.align_dvd_offset field hmem)
  refine ⟨hposition, haddress, fun field hmem => hfield field hmem _ hposition, ?_⟩
  intro field hmem
  have hfieldspace := Nat.dvd_trans (hdeclared.field_dvd_align field hmem) hspace
  exact (Nat.dvd_mod_iff hfieldspace).2 (hfield field hmem _ haddress)

end RecordView

/-- A record that is reached begins at a multiple of its alignment, counted from the start of the
image. -/
theorem Accepted.align_dvd_of_reached {registry : Registry} {base : Nat} {bytes : Bytes}
    {found : Scan} (h : Accepted registry base bytes found) (hsound : registry.Sound)
    (hall : ∀ layout ∈ registry.types, ∃ type, layout.Declared registry type)
    {record : RecordView} (hrecord : (found.view registry base bytes).Reached record) :
    record.layout ∈ registry.types ∧ record.layout.align ∣ record.offset := by
  obtain ⟨-, listed, hlisted, offset, hat, hoffset⟩ := (h.reached_iff hsound).1 hrecord
  obtain ⟨entry, hentry, rfl⟩ := h.mem_instances_iff.1 hlisted
  have hfits := h.fits entry hentry
  obtain ⟨position, hknown⟩ := hfits.known
  obtain ⟨hmem, haround, hinside⟩ := hat.align_dvd hall (List.mem_of_getElem? hknown)
  have hentryaligned : entry.layout.align ∣ entry.offset := Nat.dvd_of_mod_eq_zero hfits.aligned
  rw [hoffset]
  exact ⟨hmem, Nat.dvd_add (Nat.dvd_trans haround hentryaligned) hinside⟩

/-- **Every record that is reached is aligned in memory**, with all its fields, if the base is a
multiple of the greatest alignment. -/
theorem View.aligned_of_ofBytes {registry : Registry} (hexact : registry.Exact) {base : Nat}
    (hbase : 64 ∣ base) {bytes : Bytes} {view : View}
    (hview : View.ofBytes registry base bytes = .ok view) {record : RecordView}
    (hrecord : view.Reached record) : record.view.base = base ∧ record.Aligned := by
  have hsound := hexact.sound
  have hall := hexact.declared
  obtain ⟨found, haccepted, rfl⟩ := (View.ofBytes_eq_ok_iff hsound).1 hview
  obtain ⟨hmem, hoffset⟩ := haccepted.align_dvd_of_reached hsound hall hrecord
  obtain ⟨type, hdeclared⟩ := hall record.layout hmem
  have hview : record.view.base = base := by
    rw [((haccepted.reached_iff hsound).1 hrecord).1]
    rfl
  have hgreatest : record.layout.align ∣ 64 :=
    hdeclared.align.dvd_of_le ⟨6, by decide, rfl⟩ hdeclared.align.le_greatest
  refine ⟨hview, RecordView.aligned_of_dvd hdeclared ?_⟩
  rw [hview]
  exact Nat.dvd_add (Nat.dvd_trans hgreatest hbase) hoffset

namespace Sample

/-- The view of the image of the sample at the address 4096. -/
def relocatedView : View := ⟨registry, 4096, relocated, ⟨4136, 1, 4128, 1⟩, 32, 40⟩

theorem ofBytes_relocated : View.ofBytes registry 4096 relocated = .ok relocatedView := by cbv

theorem instances_relocatedView :
    relocatedView.instances = [⟨relocatedView, nodeLayout, 48⟩] := by cbv

end Sample

/-- The tag that is embedded in the node of the sample is aligned at the address 4160. -/
theorem View.aligned_of_ofBytes_sample :
    Sample.registry.Exact ∧ 64 ∣ 4096 ∧
      View.ofBytes Sample.registry 4096 Sample.relocated = .ok Sample.relocatedView ∧
      Sample.relocatedView.Reached ⟨Sample.relocatedView, Sample.tagLayout, 64⟩ ∧
      RecordView.Aligned ⟨Sample.relocatedView, Sample.tagLayout, 64⟩ := by
  have hnode : ⟨Sample.relocatedView, Sample.nodeLayout, 48⟩ ∈ Sample.relocatedView.instances :=
    Sample.instances_relocatedView ▸ List.mem_singleton_self _
  have htag : Sample.relocatedView.Reached ⟨Sample.relocatedView, Sample.tagLayout, 64⟩ :=
    Sample.reached_tag rfl hnode
  have hdvd : 64 ∣ 4096 := by decide
  exact ⟨Sample.exact, hdvd, Sample.ofBytes_relocated, htag,
    (aligned_of_ofBytes Sample.exact hdvd Sample.ofBytes_relocated htag).2⟩

end ScenePack
