/-
**Disjoint spans.**

Sorted spans are compared with their left neighbours only.  That is enough: if no span starts
before its left neighbour ends, all of them are disjoint, and the last span that starts at or
before a position is the only one that can hold it.

Main definitions:

* `Span.InOrder` — spans that stand one after the other between two positions.

Main results:

* `Span.InOrder.disjoint` — spans in order are disjoint;
* `Span.firstOverlap?_sorted_eq_none_iff` — **comparing neighbours finds every overlap**;
* `Span.covers_iff` — **the last span that starts in time decides**.
-/

import Mathlib.Data.List.Basic
import ScenePack.Image.Span

set_option relaxedAutoImplicit false
set_option autoImplicit false

namespace ScenePack.Span

theorem Disjoint.symm {a b : Span} (h : a.Disjoint b) : b.Disjoint a :=
  fun position hboth => h position hboth.symm

theorem disjoint_of_empty {a b : Span} (h : a.stop ≤ a.start ∨ b.stop ≤ b.start) :
    a.Disjoint b := by
  intro position hboth
  simp only [Contains] at hboth
  omega

/-! ### Spans in order -/

/-- Spans that stand one after the other, from a start up to a stop. -/
structure InOrder (start : Nat) (spans : List Span) (stop : Nat) : Prop where
  ordered : spans.Pairwise fun a b => a.stop ≤ b.start
  within : ∀ span ∈ spans, start ≤ span.start ∧ span.start ≤ span.stop ∧ span.stop ≤ stop
  le : start ≤ stop

/-- The first of some spans in order is followed by the others. -/
theorem inOrder_cons_iff {start stop : Nat} {span : Span} {spans : List Span} :
    InOrder start (span :: spans) stop ↔
      start ≤ span.start ∧ span.start ≤ span.stop ∧ InOrder span.stop spans stop := by
  constructor
  · rintro ⟨hordered, hwithin, -⟩
    obtain ⟨hfirst, hordered⟩ := List.pairwise_cons.1 hordered
    obtain ⟨hspan, hwithin⟩ := List.forall_mem_cons.1 hwithin
    exact ⟨hspan.1, hspan.2.1, hordered,
      fun other hother => ⟨hfirst other hother, (hwithin other hother).2⟩, hspan.2.2⟩
  · rintro ⟨hstart, hspan, hordered, hwithin, hle⟩
    refine ⟨List.pairwise_cons.2 ⟨fun other hother => (hwithin other hother).1, hordered⟩,
      List.forall_mem_cons.2 ⟨⟨hstart, hspan, hle⟩, fun other hother => ?_⟩, by omega⟩
    have := hwithin other hother
    omega

theorem InOrder.disjoint {start stop : Nat} {spans : List Span} (h : InOrder start spans stop) :
    spans.Pairwise Disjoint := by
  refine h.ordered.imp fun hab position hboth => ?_
  simp only [Contains] at hboth
  omega

/-! ### Neighbours -/

/-- If no span starts before its left neighbour ends, each ends before all later ones start. -/
theorem pairwise_of_firstOverlap? {spans : List Span}
    (hpositive : ∀ span ∈ spans, span.start < span.stop) (h : firstOverlap? spans = none) :
    spans.Pairwise fun a b => a.stop ≤ b.start := by
  induction spans with
  | nil => exact List.Pairwise.nil
  | cons a rest ih =>
      cases rest with
      | nil => exact List.pairwise_singleton _ _
      | cons b rest =>
          rw [firstOverlap?] at h
          split at h
          · cases h
          · next hab =>
              have htail := ih (fun span hspan => hpositive span (List.mem_cons_of_mem _ hspan)) h
              have hb := hpositive b (by simp)
              refine List.pairwise_cons.2 ⟨?_, htail⟩
              intro c hc
              rcases List.mem_cons.1 hc with rfl | hc
              · omega
              · -- the neighbour lies between the two
                have := (List.pairwise_cons.1 htail).1 c hc
                omega

/-- Spans of which each ends before all later ones start have no overlap. -/
theorem firstOverlap?_of_pairwise {spans : List Span}
    (h : spans.Pairwise fun a b => a.stop ≤ b.start) : firstOverlap? spans = none := by
  induction spans with
  | nil => rfl
  | cons a rest ih =>
      cases rest with
      | nil => rfl
      | cons b rest =>
          obtain ⟨ha, hrest⟩ := List.pairwise_cons.1 h
          have hab := ha b List.mem_cons_self
          rw [firstOverlap?, if_neg (by omega), ih hrest]

/-- Sorting keeps disjointness, empty spans being left out. -/
theorem pairwise_disjoint_sorted_iff {spans : List Span} :
    (sorted spans).Pairwise Disjoint ↔ spans.Pairwise Disjoint := by
  rw [sorted, (List.mergeSort_perm _ _).pairwise_iff (fun h => Disjoint.symm h),
    List.pairwise_filter]
  refine List.Pairwise.iff fun a b => ⟨fun h => ?_, fun h _ _ => h⟩
  by_cases hempty : a.stop ≤ a.start ∨ b.stop ≤ b.start
  · exact disjoint_of_empty hempty
  · simp only [not_or, Nat.not_le] at hempty
    exact h (by simpa using hempty.1) (by simpa using hempty.2)

/-- **Comparing neighbours finds every overlap.** -/
theorem firstOverlap?_sorted_eq_none_iff {spans : List Span} :
    firstOverlap? (sorted spans) = none ↔ spans.Pairwise Disjoint := by
  have hpositive : ∀ span ∈ sorted spans, span.start < span.stop :=
    fun span hspan => (mem_sorted.1 hspan).2
  rw [← pairwise_disjoint_sorted_iff]
  constructor
  · intro h
    refine (pairwise_of_firstOverlap? hpositive h).imp_of_mem fun ha hb hab => ?_
    exact (disjoint_iff (hpositive _ ha) (hpositive _ hb)).2 (Or.inl hab)
  · intro h
    refine firstOverlap?_of_pairwise ?_
    refine (h.and (pairwise_sorted spans)).imp_of_mem fun ha hb hab => ?_
    have hbefore := hab.2
    simp only [before, decide_eq_true_eq] at hbefore
    have ha := hpositive _ ha
    have hb := hpositive _ hb
    rcases (disjoint_iff ha hb).1 hab.1 with hab | hab <;> omega

/-! ### Positions -/

/-- **The last span that starts in time decides** whether a position is covered. -/
theorem covers_iff {spans : List Span} (hpositive : ∀ span ∈ spans, span.start < span.stop)
    (h : spans.Pairwise fun a b => a.stop ≤ b.start) (position : Nat) :
    covers spans position = true ↔ ∃ span ∈ spans, span.Contains position := by
  induction spans with
  | nil => simp [covers]
  | cons a rest ih =>
      obtain ⟨ha, hrest⟩ := List.pairwise_cons.1 h
      have ih := ih (fun span hspan => hpositive span (List.mem_cons_of_mem _ hspan)) hrest
      rw [List.exists_mem_cons_iff]
      by_cases hstart : a.start ≤ position
      · cases rest with
        | nil => simp [covers, hstart, Contains]
        | cons b rest =>
            by_cases hb : b.start ≤ position
            · -- `a` has ended, and the rest decides
              have hab := ha b List.mem_cons_self
              have hskip : covers (a :: b :: rest) position = covers (b :: rest) position := by
                simp [covers, hstart, hb, List.getLast?_cons_cons]
              have hended : ¬a.Contains position := by
                simp only [Contains]
                omega
              rw [hskip, ih, or_iff_right hended]
            · -- `a` is the last one that has started
              have hnone : ¬∃ span ∈ b :: rest, span.Contains position := by
                rintro ⟨span, hspan, hcontains⟩
                simp only [Contains] at hcontains
                have hpos := hpositive b (by simp)
                rcases List.mem_cons.1 hspan with rfl | hspan
                · omega
                · have := (List.pairwise_cons.1 hrest).1 span hspan
                  omega
              rw [or_iff_left hnone]
              simp [covers, hstart, hb, Contains]
      · have hnone : ¬∃ span ∈ rest, span.Contains position := by
          rintro ⟨span, hspan, hcontains⟩
          have := ha span hspan
          have := hpositive a List.mem_cons_self
          simp only [Contains] at hcontains
          omega
        rw [or_iff_left hnone]
        simp [covers, hstart, Contains]

end ScenePack.Span
