/-
**The image that is encoded.**

After the check both passes go through, if every range can count its instances and a buffer has
room for the image.  The image that comes out is the packed one.  A scene that does not pass the
check is refused with its first violation, whatever its size is.  A scene that passes it, but has
too many instances of a type or too many bytes for a buffer, stops the program.

A scene may be small and have a large image: a record that was made for another registry may have no
values, and take the room of a record that embeds many others.

Main results:

* `Scene.sizeUp_eq_measure`, `Scene.encode_eq_pack` — **sizes and image are those of packing**, and
  so are the errors, if everything fits;
* `Scene.encode_eq_ok_iff`, `Scene.encode_eq_reported_iff`, `Scene.encode_stops` — when the encoder
  succeeds, when it refuses a scene, and when it stops;
* `Scene.encode_outcome` — **the check of a scene is exact and complete**;
* `Sample.hollow_stops` — a scene that can be measured, but has no buffer.
-/

import ScenePack.Proofs.Image.Filled
import ScenePack.Proofs.Scene.Violations

set_option relaxedAutoImplicit false
set_option autoImplicit false

namespace ScenePack

namespace Bytes

theorem zeroed_of_le {size : Nat} (h : size + LayoutConfig.greatestAlign ≤ capacity) :
    zeroed size = .ok (List.replicate size 0) := if_pos h

theorem zeroed_of_lt {size : Nat} (h : capacity < size + LayoutConfig.greatestAlign) :
    zeroed size = .error .stopped := if_neg (Nat.not_le.2 h)

/-- What has a buffer has addresses. -/
theorem lt_space_of_capacity {size : Nat} (h : size + LayoutConfig.greatestAlign ≤ capacity) :
    size < Address.space :=
  Nat.lt_of_le_of_lt (Nat.le_trans (Nat.le_add_right _ _) h) (by decide)

end Bytes

namespace Scene

variable {registry : Registry} {config : PackConfig} {scene : Scene} {bytes : Bytes}

/-! ### The first pass after the check -/

/-- The records and the texts of a scene whose image fits end at addresses. -/
theorem place_of_total (hexact : registry.Exact) (hcheck : scene.check registry = .ok ())
    (hcounts : scene.Countable)
    (hspace : (scene.arrange registry config).sizes.total < Address.space) :
    scene.place registry config = .ok ((scene.arrange registry config).plan scene) := by
  have htotal := total_sizes hexact.sound config scene
  rw [place_eq hexact config hcheck hcounts, if_pos ⟨by omega, by omega⟩]

theorem of_place (hexact : registry.Exact) (hcheck : scene.check registry = .ok ())
    {plan : ImagePlan} (h : scene.place registry config = .ok plan) :
    scene.Countable ∧ plan = (scene.arrange registry config).plan scene := by
  by_cases hcounts : scene.Countable
  · rw [place_eq hexact config hcheck hcounts] at h
    split at h
    · exact ⟨hcounts, (Except.ok.inj h).symm⟩
    · cases h
  · cases (place_of_overrun hexact.sound config hcheck hcounts).symm.trans h

/-- After the check the first pass reports no error. -/
theorem place_ne_reported (hexact : registry.Exact) (hcheck : scene.check registry = .ok ())
    {error : SceneError} : scene.place registry config ≠ .error (.reported error) := by
  by_cases hcounts : scene.Countable
  · rw [place_eq hexact config hcheck hcounts]
    split <;> simp
  · simp [place_of_overrun hexact.sound config hcheck hcounts]

theorem sizeUp_of_check (hcheck : scene.check registry = .ok ()) :
    scene.sizeUp registry config = (scene.place registry config).map ImagePlan.sizes := by
  rw [sizeUp, hcheck]
  rfl

theorem encode_of_check (hcheck : scene.check registry = .ok ()) :
    scene.encode registry config = (do
      let plan ← scene.place registry config
      let total ← Address.sum plan.sizes.total
      let buffer ← Bytes.zeroed total
      plan.fill registry config scene buffer) := by
  rw [encode, hcheck]
  rfl

theorem sizeUp_eq_reported_iff (hexact : registry.Exact) {error : SceneError} :
    scene.sizeUp registry config = .error (.reported error) ↔
      scene.check registry = .error error := by
  constructor
  · intro h
    cases hcheck : scene.check registry with
    | error other =>
        rw [sizeUp, hcheck] at h
        cases h
        rfl
    | ok =>
        rw [sizeUp_of_check hcheck] at h
        cases hplace : scene.place registry config with
        | ok plan => rw [hplace] at h; cases h
        | error failure =>
            rw [hplace] at h
            cases h
            exact absurd hplace (place_ne_reported hexact hcheck)
  · intro h
    rw [sizeUp, h]
    rfl

/-- **A scene whose image fits has the sizes that are measured on unbounded numbers**, or fails with
the same error. -/
theorem sizeUp_eq_measure (hexact : registry.Exact) (hcounts : scene.Countable)
    (hspace : (scene.arrange registry config).sizes.total < Address.space) :
    scene.sizeUp registry config = Failure.lift (scene.measure registry config) := by
  cases hcheck : scene.check registry with
  | error error =>
      rw [(sizeUp_eq_reported_iff hexact).2 hcheck, measure, hcheck]
      rfl
  | ok =>
      rw [sizeUp_of_check hcheck, place_of_total hexact hcheck hcounts hspace, measure, hcheck]
      rfl

/-! ### The image -/

/-- **The encoder makes the packed image.** -/
theorem encode_of_pack (hexact : registry.Exact) (hcounts : scene.Countable)
    (hpack : scene.pack registry config = .ok bytes)
    (hroom : bytes.length + LayoutConfig.greatestAlign ≤ Bytes.capacity) :
    scene.encode registry config = .ok bytes := by
  have hcheck := (pack_eq_ok_iff.1 hpack).1
  have hspace := Bytes.lt_space_of_capacity hroom
  rw [length_of_pack hexact.sound hpack] at hroom hspace
  rw [encode_of_check hcheck, place_of_total hexact hcheck hcounts hspace]
  refine bind_eq_ok_iff.2 ⟨_, rfl, bind_eq_ok_iff.2 ⟨_, Address.sum_of_lt hspace, ?_⟩⟩
  exact bind_eq_ok_iff.2 ⟨_, Bytes.zeroed_of_le hroom, fill_of_pack hexact.sound hpack hspace⟩

/-- **The program stops** at a scene that passes the check, if a type has more instances than a
range counts, or if its image has no room in a buffer. -/
theorem encode_stops (hexact : registry.Exact) (hcheck : scene.check registry = .ok ())
    (h : ¬(scene.Countable ∧ (scene.arrange registry config).sizes.total +
      LayoutConfig.greatestAlign ≤ Bytes.capacity)) :
    scene.encode registry config = .error .stopped := by
  rw [encode_of_check hcheck]
  cases hplace : scene.place registry config with
  | error failure =>
      cases failure with
      | reported error => exact absurd hplace (place_ne_reported hexact hcheck)
      | stopped => rfl
  | ok plan =>
      obtain ⟨hcounts, rfl⟩ := of_place hexact hcheck hplace
      refine sum_bind_stops fun _ => ?_
      change (Bytes.zeroed (scene.arrange registry config).sizes.total >>= _) = _
      rw [Bytes.zeroed_of_lt (Nat.lt_of_not_le fun hroom => h ⟨hcounts, hroom⟩)]
      rfl

/-- After the check a scene is encoded with everything in bounds, or the program stops. -/
theorem encode_or_stops (hexact : registry.Exact) (config : PackConfig)
    (hcheck : scene.check registry = .ok ()) :
    (∃ bytes, scene.encode registry config = .ok bytes ∧ scene.pack registry config = .ok bytes ∧
      scene.Countable ∧ bytes.length + LayoutConfig.greatestAlign ≤ Bytes.capacity) ∨
    scene.encode registry config = .error .stopped := by
  obtain ⟨bytes, hpack⟩ := (exists_pack_iff hexact.sound.grounded config).2 hcheck
  by_cases hfits : scene.Countable ∧ (scene.arrange registry config).sizes.total +
      LayoutConfig.greatestAlign ≤ Bytes.capacity
  · obtain ⟨hcounts, hroom⟩ := hfits
    rw [← length_of_pack hexact.sound hpack] at hroom
    exact .inl ⟨bytes, encode_of_pack hexact hcounts hpack hroom, hpack, hcounts, hroom⟩
  · exact .inr (encode_stops hexact hcheck hfits)

/-- **What is encoded is packed**, has counts of 32 bits, and has room in a buffer. -/
theorem encode_eq_ok_iff (hexact : registry.Exact) :
    scene.encode registry config = .ok bytes ↔ scene.pack registry config = .ok bytes ∧
      scene.Countable ∧ bytes.length + LayoutConfig.greatestAlign ≤ Bytes.capacity := by
  constructor
  · intro h
    obtain ⟨_, hlift, -⟩ := bind_eq_ok_iff.1 h
    rcases encode_or_stops hexact config (Failure.lift_eq_ok_iff.1 hlift) with
      ⟨packed, hencode, hfits⟩ | hstops
    · cases h.symm.trans hencode
      exact hfits
    · cases h.symm.trans hstops
  · rintro ⟨hpack, hcounts, hroom⟩
    exact encode_of_pack hexact hcounts hpack hroom

theorem encode_eq_reported_iff (hexact : registry.Exact) {error : SceneError} :
    scene.encode registry config = .error (.reported error) ↔
      scene.check registry = .error error := by
  constructor
  · intro h
    cases hcheck : scene.check registry with
    | error other =>
        rw [encode, hcheck] at h
        cases h
        rfl
    | ok =>
        rcases encode_or_stops hexact config hcheck with ⟨bytes, hencode, -⟩ | hstops
        · cases h.symm.trans hencode
        · cases h.symm.trans hstops
  · intro h
    rw [encode, h]
    rfl

/-- **The encoder and packing agree on every scene that fits**: both succeed with the same bytes, or
fail with the same error. -/
theorem encode_eq_pack (hexact : registry.Exact) (hcounts : scene.Countable)
    (hroom : (scene.arrange registry config).sizes.total + LayoutConfig.greatestAlign ≤
      Bytes.capacity) :
    scene.encode registry config = Failure.lift (scene.pack registry config) := by
  cases hpack : scene.pack registry config with
  | error error =>
      exact (encode_eq_reported_iff hexact).2 ((pack_eq_error_iff hexact.sound.grounded).1 hpack)
  | ok bytes =>
      exact encode_of_pack hexact hcounts hpack (length_of_pack hexact.sound hpack ▸ hroom)

/-- **The check of a scene is exact and complete.**  Sizing a scene and encoding it report an error
exactly if something is wrong in the scene, and then the first violation.  If nothing is, a scene
with few enough instances and less bytes than there are addresses can be sized.  It can be encoded
if its bytes also have room in a buffer.  The second pass succeeds whenever the first one does: it
stays inside the buffer and the table of positions. -/
theorem encode_outcome (hexact : registry.Exact) (config : PackConfig) (scene : Scene) :
    (∀ error, scene.sizeUp registry config = .error (.reported error) ↔
      scene.FirstViolation registry error) ∧
    (∀ error, scene.encode registry config = .error (.reported error) ↔
      scene.FirstViolation registry error) ∧
    (scene.Countable → (scene.arrange registry config).sizes.total < Address.space →
      ((∃ sizes, scene.sizeUp registry config = .ok sizes) ↔
        ∀ site ∈ scene.sites registry, site.Admitted registry scene)) ∧
    ((∃ bytes, scene.encode registry config = .ok bytes) ↔
      (∀ site ∈ scene.sites registry, site.Admitted registry scene) ∧ scene.Countable ∧
        (scene.arrange registry config).sizes.total + LayoutConfig.greatestAlign ≤
          Bytes.capacity) ∧
    ((∀ site ∈ scene.sites registry, site.Admitted registry scene) →
      ∀ plan, scene.place registry config = .ok plan → plan.sizes.total < Address.space →
        ∃ bytes, plan.fill registry config scene (List.replicate plan.sizes.total 0) =
          .ok bytes) := by
  have hsound := hexact.sound
  simp only [← check_eq_error_iff, ← check_eq_ok_iff]
  refine ⟨fun error => sizeUp_eq_reported_iff hexact, fun error => encode_eq_reported_iff hexact,
    fun hcounts hspace => ?_, ?_, fun hcheck plan hplace hspace => ?_⟩
  · simp only [sizeUp_eq_measure hexact hcounts hspace, Failure.lift_eq_ok_iff]
    exact exists_measure_iff
  · constructor
    · rintro ⟨bytes, hbytes⟩
      obtain ⟨hpack, hcounts, hroom⟩ := (encode_eq_ok_iff hexact).1 hbytes
      exact ⟨(pack_eq_ok_iff.1 hpack).1, hcounts, length_of_pack hsound hpack ▸ hroom⟩
    · rintro ⟨hcheck, hcounts, hroom⟩
      obtain ⟨bytes, hpack⟩ := (exists_pack_iff hsound.grounded config).2 hcheck
      exact ⟨bytes, encode_of_pack hexact hcounts hpack (length_of_pack hsound hpack ▸ hroom)⟩
  · obtain ⟨-, rfl⟩ := of_place hexact hcheck hplace
    obtain ⟨bytes, hpack⟩ := (exists_pack_iff hsound.grounded config).2 hcheck
    exact ⟨bytes, fill_of_pack hsound hpack hspace⟩

end Scene

namespace Sample

/-- The sample with a zero byte in the tag of a further node, whose reference leads nowhere. -/
def spoiled : Scene :=
  scene ++ [⟨0, [.scalar ⟨.u16, 8, by decide⟩, .component 1 [.text (some "\x00")], .ref (some 9)]⟩]

theorem countable_scene : scene.Countable := count_lt

end Sample

/-- The spoiled sample is refused for the text of its innermost record, which comes before the
reference.  The sample itself can be encoded. -/
theorem Scene.encode_outcome_sample :
    Sample.spoiled.encode Sample.registry ⟨true⟩ = .error (.reported (.interiorNul "Tag" "label")) ∧
      Sample.spoiled.FirstViolation Sample.registry (.interiorNul "Tag" "label") ∧
      (∃ sizes, Sample.scene.sizeUp Sample.registry ⟨true⟩ = .ok sizes) ∧
      ∃ bytes, Sample.scene.encode Sample.registry ⟨true⟩ = .ok bytes := by
  obtain ⟨-, hencode, -⟩ := encode_outcome Sample.exact ⟨true⟩ Sample.spoiled
  obtain ⟨-, -, hsize, hbytes, -⟩ := encode_outcome Sample.exact ⟨true⟩ Sample.scene
  have herror : Sample.spoiled.encode Sample.registry ⟨true⟩ =
      .error (.reported (.interiorNul "Tag" "label")) := by cbv
  have hroom : (Sample.scene.arrange Sample.registry ⟨true⟩).sizes.total +
      LayoutConfig.greatestAlign ≤ Bytes.capacity := by cbv
  have hadmitted := check_eq_ok_iff.1 (pack_eq_ok_iff.1 Sample.pack_scene).1
  exact ⟨herror, (hencode _).1 herror,
    (hsize Sample.countable_scene (Bytes.lt_space_of_capacity hroom)).2 hadmitted,
    hbytes.2 ⟨hadmitted, Sample.countable_scene, hroom⟩⟩

/-! ### A small scene without a buffer -/

namespace Sample

/-- The types of the tower from the third one on, under one that embeds five of them. -/
def vault : Schema :=
  ⟨"0", ["a", "b", "c", "d", "e"].map fun name => ⟨name, .component "2"⟩⟩ :: tower.drop 2

/-- A record without values, as a type without fields has it. -/
def hollow : Scene := [⟨0, []⟩]

set_option maxRecDepth 10000 in
/-- **A scene that can be measured may have no buffer.**  The record of a note without fields is
taken for one of the vault: its image has less bytes than there are addresses, and the scene can be
measured; but the bytes have no room in a buffer, and the program stops. -/
theorem hollow_stops : ∃ notes registry,
    Registry.build [⟨"Note", []⟩] ⟨16⟩ = .ok notes ∧ Record.new notes "Note" = .ok ⟨0, []⟩ ∧
    Registry.build vault ⟨16⟩ = .ok registry ∧
    (∀ site ∈ hollow.sites registry, site.Admitted registry hollow) ∧ hollow.Countable ∧
    (hollow.arrange registry ⟨true⟩).sizes.total = 11529215046068469728 ∧
    11529215046068469728 < Address.space ∧
    (∃ sizes, hollow.sizeUp registry ⟨true⟩ = .ok sizes) ∧
    hollow.encode registry ⟨true⟩ = .error .stopped := by
  have hvault : (Registry.build vault ⟨16⟩).map (fun registry =>
      (hollow.check registry, (hollow.arrange registry ⟨true⟩).sizes)) =
        .ok (.ok (), ⟨32, 8, 8, 11529215046068469680, 0⟩) := by cbv
  obtain ⟨registry, hbuild, hfacts⟩ := map_eq_ok_iff.1 hvault
  obtain ⟨hcheck, hsizes⟩ := Prod.mk.inj hfacts
  have hcounts : hollow.Countable := fun _ =>
    Nat.lt_of_le_of_lt (List.length_filter_le _ _) (by decide)
  have htotal : (hollow.arrange registry ⟨true⟩).sizes.total = 11529215046068469728 := by
    rw [hsizes]
    rfl
  have hexact : registry.Exact := ⟨_, _, hbuild⟩
  refine ⟨⟨⟨16⟩, [⟨0, "Note", 0, 16, 16, [], []⟩]⟩, registry, by cbv, by cbv, hbuild,
    Scene.check_eq_ok_iff.1 hcheck, hcounts, htotal, by decide, ?_, ?_⟩
  · have hspace : (hollow.arrange registry ⟨true⟩).sizes.total < Address.space := by
      rw [htotal]
      decide
    refine ⟨(hollow.arrange registry ⟨true⟩).sizes, ?_⟩
    rw [Scene.sizeUp_eq_measure hexact hcounts hspace]
    exact Failure.lift_eq_ok_iff.2 (Scene.measure_eq_ok_iff.2 ⟨hcheck, rfl⟩)
  · refine Scene.encode_stops hexact hcheck fun hfits => absurd hfits.2 ?_
    rw [htotal]
    decide

end Sample

end ScenePack
