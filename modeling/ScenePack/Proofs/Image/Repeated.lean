/-
**Relocating an image again.**

A relocation takes the words of an image for positions.  Once they have been moved they are
positions behind a base, and a second relocation takes them for positions all the same.  The tables
are then sought where the moved header points.  That is behind the end if the base is greater than
the length of the image.  For smaller bases other bytes can stand there that are tables as well, and
then the image is moved once more.

Main definitions:

* `RelocatedAgain` — an image that has been relocated twice.

Main results:

* `scan_eq_error_of_ranges` — an image whose ranges are sought behind its end is refused;
* `relocate_again` — **a second relocation is refused or moves the image once more**.
-/

import ScenePack.Proofs.Image.Transparency

set_option relaxedAutoImplicit false
set_option autoImplicit false

namespace ScenePack

/-! ### Relocations that succeed -/

/-- A relocation succeeds with the count of the words that the scan found. -/
theorem relocate_eq_ok_iff {registry : Registry} {base count : Nat} {bytes after : Bytes} :
    relocate registry base bytes = (.ok count, after) ↔
      ∃ found, relocateScan registry base bytes = (.ok found, after) ∧
        found.slots.length = count := by
  rw [relocate]
  rcases relocateScan registry base bytes with ⟨error | found, last⟩
  · constructor
    · intro h
      cases h
    · rintro ⟨_, h, -⟩
      cases h
  · constructor
    · intro h
      cases h
      exact ⟨found, rfl, rfl⟩
    · rintro ⟨_, h, rfl⟩
      cases h
      rfl

theorem rebased_of_relocate {registry : Registry} (hsound : registry.Sound) {base count : Nat}
    {bytes after : Bytes} (h : relocate registry base bytes = (.ok count, after)) :
    ∃ found, Rebased registry base bytes after found ∧ found.slots.length = count := by
  obtain ⟨found, hfound, hcount⟩ := relocate_eq_ok_iff.1 h
  exact ⟨found, rebased_of_relocateScan hsound hfound, hcount⟩

/-! ### Relocations that are refused -/

/-- **An image whose ranges are sought behind its end is refused**, before anything else is looked
at. -/
theorem scan_eq_error_of_ranges {registry : Registry} {bytes : Bytes} {header : Header}
    (hheader : bytes.readHeader = .ok header) (hranges : bytes.length < header.ranges) :
    scan registry 0 bytes = .error (.outOfBounds header.ranges 0 bytes.length) := by
  have hregion : region header.ranges 0 bytes.length header.rangeCount Range.size Range.align =
      .error (.outOfBounds header.ranges 0 bytes.length) := by
    rw [region, if_neg]
    omega
  rw [scan, hheader]
  simp only [bind, Except.bind, hregion]

/-! ### Two relocations -/

/-- **An image that has been relocated twice**, where `header` is the header that it had at first.
What the first relocation left has been relocated as a whole.  So its tables lay inside, and both
bases have been added to the pointers of the header, without reduction. -/
structure RelocatedAgain (registry : Registry) (header : Header) (base again count : Nat)
    (after last : Bytes) : Prop where
  relocated : ∃ view, View.ofBytes registry 0 after = .ok view ∧ view.Relocated again count last
  ranges_inside : header.ranges + base + header.rangeCount * Range.size ≤ after.length
  directory_inside : header.directory + base + header.count * Address.width ≤ after.length
  ranges_lt : header.ranges + base + again < Address.space
  directory_lt : header.directory + base + again < Address.space
  header_eq : last.readHeader = .ok { header with
    directory := header.directory + base + again
    ranges := header.ranges + base + again }
  changed : 0 < again → last ≠ after

/-- Two relocations that succeed relocate the image twice. -/
theorem Rebased.again {registry : Registry} {base again : Nat} {bytes after last : Bytes}
    {found moved : Scan} (h : Rebased registry base bytes after found)
    (hagain : Rebased registry again after last moved) :
    RelocatedAgain registry found.header base again moved.slots.length after last := by
  -- the second scan has read the header that the first relocation wrote
  have hmoved : moved.header = (found.rebase base).header :=
    Except.ok.inj (hagain.accepted.header.symm.trans h.header)
  obtain ⟨hranges, hrangesinside, -⟩ := region_eq_ok_iff.1 hagain.accepted.rangesAt
  obtain ⟨hdirectory, hdirectoryinside, -⟩ := region_eq_ok_iff.1 hagain.accepted.directoryAt
  rw [← Nat.zero_add moved.rangesAt, ← hranges, hmoved] at hrangesinside
  rw [← Nat.zero_add moved.directoryAt, ← hdirectory, hmoved] at hdirectoryinside
  have hlast : last.readHeader = .ok { found.header with
      directory := found.header.directory + base + again
      ranges := found.header.ranges + base + again } := by
    rw [hagain.header, Scan.rebase, hmoved, Scan.rebase]
    simp only [Nat.add_comm, Nat.add_left_comm]
  obtain ⟨hdirectoryword, -, hrangesword, -⟩ := Bytes.readHeader_eq_ok_iff.1 hlast
  refine ⟨⟨_, (View.ofBytes_eq_ok_iff h.sound).2 ⟨moved, hagain.accepted, rfl⟩,
    hagain.accepted.relocated h.sound hagain.space hagain.patched⟩, ?_, ?_,
    Bytes.word?_lt hrangesword, Bytes.word?_lt hdirectoryword, hlast, ?_⟩
  · rw [Nat.add_comm found.header.ranges]
    exact hrangesinside
  · rw [Nat.add_comm found.header.directory]
    exact hdirectoryinside
  · rintro hpos rfl
    have hsame := Except.ok.inj (h.header.symm.trans hlast)
    have hpointer : base + found.header.ranges = found.header.ranges + base + again :=
      congrArg Header.ranges hsame
    omega

/-- **A second relocation is refused or moves the image once more.**  If the first base is greater
than the length of the image, it is refused, because the table of ranges is sought behind the end.
In any case it leaves the bytes as they are if it fails; and if it succeeds, both bases have been
added to the pointers of the header. -/
theorem relocate_again {registry : Registry} (hexact : registry.Exact) {base count : Nat}
    {bytes after : Bytes} (h : relocate registry base bytes = (.ok count, after)) :
    ∃ header, bytes.readHeader = .ok header ∧ ∀ again,
      (bytes.length < base → relocate registry again after =
        (.error (.outOfBounds (header.ranges + base) 0 bytes.length), after)) ∧
      match relocate registry again after with
      | (.error _, last) => last = after
      | (.ok count, last) => RelocatedAgain registry header base again count after last := by
  have hsound := hexact.sound
  obtain ⟨found, hrebased, -⟩ := rebased_of_relocate hsound h
  refine ⟨found.header, hrebased.accepted.header, fun again => ⟨fun hlt => ?_, ?_⟩⟩
  · have hranges : (found.rebase base).header.ranges = found.header.ranges + base :=
      Nat.add_comm _ _
    have hlength := hrebased.patched.length_eq
    have hscan : scan registry 0 after = _ :=
      scan_eq_error_of_ranges hrebased.header (by omega)
    rw [hranges, hlength] at hscan
    rw [relocate, relocateScan, hscan]
    rfl
  · rcases relocateScan_cases hsound again after with
      ⟨error, herror⟩ | ⟨moved, last, -, -, hok, -⟩
    · rw [relocate, herror]
      rfl
    · rw [relocate, hok]
      exact hrebased.again (rebased_of_relocateScan hsound hok)

namespace Sample

/-- An image with two tables of ranges, at 32 and 40, two directories, at 48 and 56, and two tags,
at 64 and 80.  Its header points to the first tables. -/
def paired : Bytes :=
  [48, 1, 32, 1, 4294967297, 4294967297, 64, 80, 0, 0, 0, 0].flatMap (Word.encode Address.width)

/-- That image at the address 8: its header points to the second tables, which are as before. -/
def pairedOnce : Bytes :=
  [56, 1, 40, 1, 4294967297, 4294967297, 72, 80, 0, 0, 0, 0].flatMap (Word.encode Address.width)

/-- That image behind another 4 bytes. -/
def pairedTwice : Bytes :=
  [60, 1, 44, 1, 4294967297, 4294967297, 72, 84, 0, 0, 0, 0].flatMap (Word.encode Address.width)

theorem relocate_paired : relocate registry 8 paired = (.ok 3, pairedOnce) := by cbv

theorem relocate_pairedOnce : relocate registry 4 pairedOnce = (.ok 3, pairedTwice) := by cbv

end Sample

/-- The image with two tables of each kind is relocated twice.  The image of the sample is relocated
by 4096, and to no place from there. -/
theorem relocate_again_sample :
    Sample.registry.Exact ∧
      relocate Sample.registry 8 Sample.paired = (.ok 3, Sample.pairedOnce) ∧
      relocate Sample.registry 4 Sample.pairedOnce = (.ok 3, Sample.pairedTwice) ∧
      RelocatedAgain Sample.registry ⟨48, 1, 32, 1⟩ 8 4 3 Sample.pairedOnce Sample.pairedTwice ∧
      relocate Sample.registry 4096 Sample.image = (.ok 5, Sample.relocated) ∧
      ∀ again, relocate Sample.registry again Sample.relocated =
        (.error (.outOfBounds 4128 0 98), Sample.relocated) := by
  obtain ⟨header, hheader, hagain⟩ := relocate_again Sample.exact Sample.relocate_paired
  obtain ⟨other, hother, hrefused⟩ := relocate_again Sample.exact Sample.relocate_image
  have hpaired : Sample.paired.readHeader = .ok ⟨48, 1, 32, 1⟩ := by cbv
  have himage : Sample.image.readHeader = .ok ⟨40, 1, 32, 1⟩ := by cbv
  have hlength : Sample.image.length = 98 := by cbv
  obtain rfl : header = _ := Except.ok.inj (hheader.symm.trans hpaired)
  obtain rfl : other = _ := Except.ok.inj (hother.symm.trans himage)
  obtain ⟨-, hmoved⟩ := hagain 4
  rw [Sample.relocate_pairedOnce] at hmoved
  refine ⟨Sample.exact, Sample.relocate_paired, Sample.relocate_pairedOnce, hmoved,
    Sample.relocate_image, fun again => ?_⟩
  have hresult := (hrefused again).1 (by omega)
  rwa [hlength] at hresult

end ScenePack
