/-
**Patching words that lie apart.**

`patch` reads and writes one word after the other.  If the words do not overlap, no step sees what
another one wrote: each word ends up with the base added to what it held at first, and every byte
outside the words is kept.

Main definitions:

* `WordsApart` — two words that do not overlap;
* `Bytes.Patched` — the bytes after the patching of words that lie apart.

Main results:

* `exists_patch` — patching words that lie inside succeeds;
* `Bytes.Patched.overwrite` — **one more word is patched**;
* `patch_patched` — **patching words that lie apart** has this outcome;
* `Bytes.Patched.unique` — the order of the words does not show.
-/

import Mathlib.Data.List.Pairwise
import ScenePack.Image.Relocate
import ScenePack.Proofs.Agreement

set_option relaxedAutoImplicit false
set_option autoImplicit false

namespace ScenePack

/-- The words at two positions do not overlap. -/
def WordsApart (a b : Nat) : Prop := a + Address.width ≤ b ∨ b + Address.width ≤ a

theorem WordsApart.symm {a b : Nat} (h : WordsApart a b) : WordsApart b a := Or.symm h

/-- The bytes `after` are those `before` with `base` added to the words at the slots. -/
structure Bytes.Patched (base : Nat) (slots : List Nat) (before after : Bytes) : Prop where
  length_eq : after.length = before.length
  word : ∀ slot ∈ slots, ∀ value, before.word? Address.width slot = some value →
    after.word? Address.width slot = some ((base + value) % Address.space)
  kept : ∀ i, (∀ slot ∈ slots, i < slot ∨ slot + Address.width ≤ i) → after[i]? = before[i]?

/-- Bytes are kept on a span that no slot reaches into. -/
theorem Bytes.Patched.agreeOn {base : Nat} {slots : List Nat} {before after : Bytes}
    (h : Patched base slots before after) (start stop : Nat)
    (hapart : ∀ slot ∈ slots, stop ≤ slot ∨ slot + Address.width ≤ start) :
    AgreeOn after before start stop := by
  intro i hstart hstop
  refine h.kept i ?_
  intro slot hslot
  have := hapart slot hslot
  omega

/-- Patching words that lie inside succeeds, even if they overlap. -/
theorem exists_patch (base : Nat) {slots : List Nat} {bytes : Bytes}
    (hinside : ∀ slot ∈ slots, slot + Address.width ≤ bytes.length) :
    ∃ after, patch base slots bytes = (.ok (), after) := by
  induction slots generalizing bytes with
  | nil => exact ⟨bytes, rfl⟩
  | cons slot rest ih =>
      obtain ⟨hslot, hrest⟩ := List.forall_mem_cons.1 hinside
      obtain ⟨offset, hoffset⟩ := Bytes.exists_readSlot hslot
      have hlength : (bytes.overwrite slot
          (Word.encode Address.width (base + offset))).length = bytes.length :=
        Bytes.length_overwrite (by rwa [Word.length_encode])
      rw [patch, hoffset]
      exact ih fun other hother => hlength ▸ hrest other hother

theorem Bytes.Patched.word_eq {base slot : Nat} {slots : List Nat} {before after : Bytes}
    (h : Patched base slots before after) (hapart : ∀ other ∈ slots, WordsApart other slot) :
    after.word? Address.width slot = before.word? Address.width slot :=
  (h.agreeOn slot (slot + Address.width) fun other hother =>
    (hapart other hother).symm).word?_eq h.length_eq

/-- **One more word is patched**, apart from those that are patched already. -/
theorem Bytes.Patched.overwrite {base slot value : Nat} {done : List Nat} {before current : Bytes}
    (h : Patched base done before current)
    (hvalue : before.word? Address.width slot = some value)
    (hapart : ∀ other ∈ done, WordsApart other slot) :
    Patched base (done ++ [slot]) before
      (current.overwrite slot (Word.encode Address.width (base + value))) := by
  have hinside : slot + Address.width ≤ current.length := h.length_eq ▸ le_of_word? hvalue
  have hfits : slot + (Word.encode Address.width (base + value)).length ≤ current.length := by
    rwa [Word.length_encode]
  refine ⟨?_, ?_, ?_⟩
  · rw [length_overwrite hfits, h.length_eq]
  · intro other hother found hfound
    rcases List.mem_append.1 hother with hother | hother
    · -- the words that are done are left alone
      have hkept : AgreeOn _ current other (other + Address.width) := agreeOn_overwrite hfits (by
        have := hapart other hother
        simp only [WordsApart] at this
        rw [Word.length_encode]
        omega)
      rw [hkept.word?_eq (length_overwrite hfits), h.word other hother found hfound]
    · obtain rfl := List.mem_singleton.1 hother
      rw [hfound, Option.some_inj] at hvalue
      rw [hvalue, word?_overwrite_self hinside]
      rfl
  · intro i hi
    have hslot := hi slot (by simp)
    have hkept : AgreeOn _ current i (i + 1) := agreeOn_overwrite hfits (by
      rw [Word.length_encode]
      omega)
    rw [hkept i (by omega) (by omega)]
    exact h.kept i fun other hother => hi other (List.mem_append_left _ hother)

/-- **Patching words that lie apart** succeeds. -/
theorem patch_patched (base : Nat) {slots : List Nat} {bytes : Bytes}
    (hinside : ∀ slot ∈ slots, slot + Address.width ≤ bytes.length)
    (hapart : slots.Pairwise WordsApart) :
    ∃ after, patch base slots bytes = (.ok (), after) ∧ Bytes.Patched base slots bytes after := by
  -- the slots are those that are done and those that are still to come
  suffices hall : ∀ (rest done : List Nat) (current : Bytes),
      Bytes.Patched base done bytes current → done ++ rest = slots →
      ∃ after, patch base rest current = (.ok (), after) ∧
        Bytes.Patched base slots bytes after from
    hall slots [] bytes ⟨rfl, fun _ h => absurd h List.not_mem_nil, fun _ _ => rfl⟩ rfl
  intro rest
  induction rest with
  | nil =>
      rintro done current hpatched rfl
      exact ⟨current, rfl, (List.append_nil done).symm ▸ hpatched⟩
  | cons slot rest ih =>
      rintro done current hpatched rfl
      have hdone : ∀ other ∈ done, WordsApart other slot := fun other hother =>
        (List.pairwise_append.1 hapart).2.2 other hother slot List.mem_cons_self
      obtain ⟨value, hread⟩ := Bytes.exists_readSlot (hinside slot (by simp))
      have hvalue := Bytes.readSlot_eq_ok_iff.1 hread
      rw [patch, Bytes.readSlot_eq_ok_iff.2 ((hpatched.word_eq hdone).trans hvalue)]
      exact ih (done ++ [slot]) _ (hpatched.overwrite hvalue hdone) (List.append_cons ..).symm

/-- **The outcome of patching is determined** by the words that are patched, in any order. -/
theorem Bytes.Patched.unique {base : Nat} {slots others : List Nat} {before first second : Bytes}
    (hfirst : Patched base slots before first) (hsecond : Patched base others before second)
    (hsame : ∀ slot, slot ∈ slots ↔ slot ∈ others)
    (hinside : ∀ slot ∈ slots, slot + Address.width ≤ before.length) : first = second := by
  refine List.ext_getElem? fun i => ?_
  by_cases hi : ∀ slot ∈ slots, i < slot ∨ slot + Address.width ≤ i
  · rw [hfirst.kept i hi, hsecond.kept i fun slot hslot => hi slot ((hsame slot).2 hslot)]
  · obtain ⟨slot, hslot, hin⟩ : ∃ slot ∈ slots, ¬(i < slot ∨ slot + Address.width ≤ i) := by
      simpa using hi
    obtain ⟨value, hread⟩ := exists_readSlot (hinside slot hslot)
    have hvalue := readSlot_eq_ok_iff.1 hread
    exact agreeOn_of_word? (hfirst.word slot hslot value hvalue)
      (hsecond.word slot ((hsame slot).1 hslot) value hvalue) i (by omega) (by omega)

end ScenePack
