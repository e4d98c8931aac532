/-
**Round trip.**

A well-formed scene that has been packed is read back from its image, whether the image is read as
it is or relocated to any place where it fits the address space.  What is read is the scene in the
stable order by type, its references leading to the new positions.

Main results:

* `Packed.exists_moved` — a packed image shows its scene at any place;
* `Scene.reads_back` — **a packed scene reads back at any place**.
-/

import ScenePack.Proofs.Image.Packed

set_option relaxedAutoImplicit false
set_option autoImplicit false

namespace ScenePack

/-! ### Packed images at any place -/

namespace Packed

variable {arrangement : Arrangement} {writing : Writing}

/-- The view of a packed image that is read as it is. -/
theorem exists_raw (h : Packed arrangement writing) :
    ∃ raw, View.ofBytes writing.registry 0 writing.bytes = .ok raw ∧
      raw.toScene = .ok writing.scene.renumbered :=
  ⟨_, (View.ofBytes_eq_ok_iff writing.sound).2 ⟨_, h.accepted, rfl⟩, h.toScene⟩

/-- **A packed image shows its scene at any place** where it fits the address space. -/
theorem exists_moved (h : Packed arrangement writing) {base : Nat}
    (hspace : base + writing.bytes.length < Address.space) :
    ∃ count after moved, relocate writing.registry base writing.bytes = (.ok count, after) ∧
      View.ofBytes writing.registry base after = .ok moved ∧
      moved.toScene = .ok writing.scene.renumbered := by
  obtain ⟨after, hrelocate, hpatched⟩ := h.accepted.exists_relocated writing.sound hspace
  have hrebased : Rebased writing.registry base writing.bytes after
      (arrangement.found writing.bytes) := ⟨writing.sound, h.accepted, hspace, hpatched⟩
  -- texts stand behind all words that are changed
  have hkept := hrebased.textsKept_of_textsClear h.textsClear
  obtain ⟨moved, hmoved, hscene⟩ := hrebased.shownBy_iff.2 hkept
  refine ⟨(arrangement.found writing.bytes).slots.length, after, moved, ?_, hmoved, ?_⟩
  · rw [relocate, hrelocate]
    rfl
  · rw [hscene]
    exact h.toScene

end Packed

/-! ### Scenes -/

/-- **A packed scene reads back at any place.**  The registry is exact, the scene is well formed,
type ids and the count of records of each type are 32-bit numbers, and the image fits the address
space at its place. -/
theorem Scene.reads_back {registry : Registry} (hexact : registry.Exact) {config : PackConfig}
    {scene : Scene} (hformed : scene.Formed registry)
    (hids : ∀ record ∈ scene, record.typeId < Range.countLimit)
    (hcounts : ∀ id, (scene.filter fun record => record.typeId = id).length < Range.countLimit)
    {bytes : Bytes} (hpack : scene.pack registry config = .ok bytes) {base : Nat}
    (hspace : base + bytes.length < Address.space) :
    (∃ raw, View.ofBytes registry 0 bytes = .ok raw ∧ raw.toScene = .ok scene.renumbered) ∧
      ∃ count after moved, relocate registry base bytes = (.ok count, after) ∧
        View.ofBytes registry base after = .ok moved ∧ moved.toScene = .ok scene.renumbered := by
  obtain ⟨writing, rfl, rfl, rfl, hpacked⟩ :=
    Scene.exists_packed hexact.sound hformed hids hcounts hpack (by omega)
  exact ⟨hpacked.exists_raw, hpacked.exists_moved hspace⟩

namespace Sample

/-- A tag, and a node that carries the same tag and is followed by itself. -/
def scene : Scene :=
  [⟨1, [.text (some "a")]⟩,
    ⟨0, [.scalar ⟨.u16, 7, by decide⟩, .component 1 [.text (some "a")], .ref (some 1)]⟩]

/-- The image of that scene: the node stands first, and the tags share their text. -/
def packed : Bytes :=
  [48, 2, 32, 2, 4294967296, 4294967297, 64, 112, 7, 0, 128, 0, 64, 0, 128, 0].flatMap
    (Word.encode Address.width) ++ [97, 0]

theorem pack_scene : scene.pack registry ⟨true⟩ = .ok packed := by cbv

theorem scene_formed : scene.Formed registry := by
  refine List.forall_mem_cons.2 ⟨⟨_, rfl, ⟨rfl, trivial⟩, trivial⟩, List.forall_mem_cons.2
    ⟨⟨_, rfl, ⟨rfl, trivial⟩, ⟨rfl, _, rfl, ⟨rfl, trivial⟩, trivial⟩, ⟨rfl, trivial⟩, trivial⟩, ?_⟩⟩
  exact fun _ h => absurd h List.not_mem_nil

theorem typeId_lt : ∀ record ∈ scene, record.typeId < Range.countLimit := by decide

theorem count_lt (id : TypeId) :
    (scene.filter fun record => record.typeId = id).length < Range.countLimit :=
  Nat.lt_of_le_of_lt (List.length_filter_le _ _) (by decide)

theorem packed_lt : packed.length < Address.space := by decide +kernel

end Sample

/-- The sample reads back at the address 4096: the node comes first and refers to itself. -/
theorem Scene.reads_back_sample :
    Sample.registry.Exact ∧ Sample.scene.Formed Sample.registry ∧
      Sample.scene.pack Sample.registry ⟨true⟩ = .ok Sample.packed ∧
      4096 + Sample.packed.length < Address.space ∧
      ∃ count after moved, relocate Sample.registry 4096 Sample.packed = (.ok count, after) ∧
        View.ofBytes Sample.registry 4096 after = .ok moved ∧
        moved.toScene = .ok
          [⟨0, [.scalar ⟨.u16, 7, by decide⟩, .component 1 [.text (some "a")], .ref (some 0)]⟩,
            ⟨1, [.text (some "a")]⟩] := by
  have hspace : 4096 + Sample.packed.length < Address.space := by decide +kernel
  have hrenumbered : Sample.scene.renumbered =
      [⟨0, [.scalar ⟨.u16, 7, by decide⟩, .component 1 [.text (some "a")], .ref (some 0)]⟩,
        ⟨1, [.text (some "a")]⟩] := by cbv
  refine ⟨Sample.exact, Sample.scene_formed, Sample.pack_scene, hspace, ?_⟩
  rw [← hrenumbered]
  exact (Scene.reads_back Sample.exact Sample.scene_formed Sample.typeId_lt Sample.count_lt
    Sample.pack_scene hspace).2

end ScenePack
