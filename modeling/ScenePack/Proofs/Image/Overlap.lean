/-
**The check for overlaps is exact.**

The fixed parts of an image are the header, the two tables and the records.  They are sorted, and
only neighbours are compared.  The check fails exactly if two of them that are not empty have a
position in common, and then it reports where one of two such parts starts.  If it passes, a binary
search for the last part that starts at or before a position tells whether any part holds it.

Main definitions:

* `Span.partitionPoint` — where a test stops to hold, found by halving;
* `Span.inside` — whether a position lies in one of sorted disjoint spans, by binary search;
* `Span.Overlapped` — a span that overlaps another one of a list.

Main results:

* `Span.partitionPoint_eq` — **halving finds the point where a test stops to hold**;
* `Span.inside_eq_covers` — the binary search finds the last span that starts in time;
* `Span.overlapped_of_firstOverlap?` — **a reported start is that of a span that overlaps another**;
* `Scan.structure_exact` — **the check of the fixed parts is exact**.
-/

import ScenePack.Proofs.Image.Accepted

set_option relaxedAutoImplicit false
set_option autoImplicit false

namespace ScenePack

namespace Span

/-! ### Binary search -/

/-- The first of `count` indices from `low` on at which a test does not hold, found by halving.  The
test has to hold up to that index and nowhere behind it. -/
def partitionPoint (test : Nat → Bool) (low count : Nat) : Nat :=
  if count = 0 then low
  else if test (low + count / 2) then
    partitionPoint test (low + count / 2 + 1) (count - count / 2 - 1)
  else partitionPoint test low (count / 2)
termination_by count
decreasing_by all_goals omega

/-- **Halving finds the point where a test stops to hold.** -/
theorem partitionPoint_eq {test : Nat → Bool} {low count point : Nat} (hlow : low ≤ point)
    (hhigh : point ≤ low + count)
    (h : ∀ index, low ≤ index → index < low + count → (test index = true ↔ index < point)) :
    partitionPoint test low count = point := by
  -- the point stays between the bounds in each half
  fun_induction partitionPoint test low count with
  | case1 low => omega
  | case2 low count hcount htest ih =>
      have hmiddle := (h (low + count / 2) (by omega) (by omega)).1 htest
      exact ih (by omega) (by omega) fun index hindex hbound => h index (by omega) (by omega)
  | case3 low count hcount htest ih =>
      have hmiddle := mt (h (low + count / 2) (by omega) (by omega)).2 htest
      exact ih (by omega) (by omega) fun index hindex hbound => h index (by omega) (by omega)

/-- Whether a position lies in one of sorted disjoint spans: the span in front of the first one that
starts behind the position decides. -/
def inside (spans : List Span) (position : Nat) : Bool :=
  let next := partitionPoint (fun index => spans[index]?.any fun span => span.start ≤ position) 0
    spans.length
  match next with
  | 0 => false
  | last + 1 => spans[last]?.any fun span => position < span.stop

/-- Among spans that are ordered by their starts, those that start at or before a position are the
ones at the front. -/
theorem starts_iff_lt_length {spans : List Span} (h : spans.Pairwise fun a b => a.start ≤ b.start)
    (position : Nat) {index : Nat} (hindex : index < spans.length) :
    spans[index].start ≤ position ↔
      index < (spans.takeWhile fun span => span.start ≤ position).length := by
  induction spans generalizing index with
  | nil => exact absurd hindex (Nat.not_lt_zero _)
  | cons a rest ih =>
      obtain ⟨ha, hrest⟩ := List.pairwise_cons.1 h
      by_cases hstart : a.start ≤ position
      · have htake : (a :: rest).takeWhile (fun span => span.start ≤ position) =
            a :: rest.takeWhile fun span => span.start ≤ position :=
          List.takeWhile_cons_of_pos (decide_eq_true hstart)
        rw [htake, List.length_cons]
        cases index with
        | zero => exact iff_of_true hstart (Nat.succ_pos _)
        | succ index =>
            rw [List.getElem_cons_succ, ih hrest, Nat.add_lt_add_iff_right]
      · -- the later spans start behind the position as well
        have hbehind : a.start ≤ (a :: rest)[index].start := by
          rcases List.mem_cons.1 (List.getElem_mem hindex) with hsame | hmem
          · rw [hsame]
          · exact ha _ hmem
        rw [List.takeWhile_cons_of_neg (by simpa using hstart)]
        exact iff_of_false (by omega) (Nat.not_lt_zero _)

/-- **The binary search finds the last span that starts in time.** -/
theorem inside_eq_covers {spans : List Span} (h : spans.Pairwise fun a b => a.start ≤ b.start)
    (position : Nat) : inside spans position = covers spans position := by
  obtain ⟨rest, hspans⟩ :=
    List.takeWhile_prefix (fun span : Span => decide (span.start ≤ position)) (l := spans)
  have hpoint : partitionPoint
      (fun index => spans[index]?.any fun span => span.start ≤ position) 0 spans.length =
        (spans.takeWhile fun span => span.start ≤ position).length := by
    refine partitionPoint_eq (Nat.zero_le _) ?_ fun index _ hindex => ?_
    · rw [Nat.zero_add]
      exact (List.takeWhile_prefix _).length_le
    · rw [Nat.zero_add] at hindex
      rw [List.getElem?_eq_getElem hindex, Option.any_some, decide_eq_true_iff]
      exact starts_iff_lt_length h position hindex
  rw [inside, hpoint, covers]
  rcases List.eq_nil_or_concat (spans.takeWhile fun span => span.start ≤ position) with
    hnone | ⟨front, last, hlast⟩
  · rw [hnone]
    rfl
  · rw [List.concat_eq_append] at hlast
    have hfound : spans[front.length]? = some last := by
      rw [← hspans, hlast]
      simp
    simp [hlast, hfound]

/-! ### Overlaps -/

/-- Sorting keeps the spans that are not empty, as often as they occur. -/
theorem perm_sorted (spans : List Span) :
    (sorted spans).Perm (spans.filter fun span => span.start < span.stop) :=
  List.mergeSort_perm _ _

/-- A span that has a position in common with another one of a list.  A span that the list has twice
is another one to itself. -/
def Overlapped (spans : List Span) (span : Span) : Prop :=
  ∃ other rest, spans.Perm (span :: other :: rest) ∧ ¬span.Disjoint other

/-- The reported start is that of a span that starts before its left neighbour ends. -/
theorem exists_neighbours_of_firstOverlap? {spans : List Span} {offset : Nat}
    (h : firstOverlap? spans = some offset) :
    ∃ front a b back, spans = front ++ a :: b :: back ∧ b.start = offset ∧ b.start < a.stop := by
  fun_induction firstOverlap? spans with
  | case1 a b rest hoverlap => exact ⟨[], a, b, rest, rfl, Option.some.inj h, hoverlap⟩
  | case2 a b rest hapart ih =>
      obtain ⟨front, left, right, back, hspans, hstart⟩ := ih h
      exact ⟨a :: front, left, right, back, by rw [hspans, List.cons_append], hstart⟩
  | case3 => cases h

/-- **A reported start is that of a span that overlaps another one.** -/
theorem overlapped_of_firstOverlap? {spans : List Span} {offset : Nat}
    (h : firstOverlap? (sorted spans) = some offset) :
    ∃ span, span.start = offset ∧ Overlapped spans span := by
  obtain ⟨front, a, b, back, hsorted, hstart, hoverlap⟩ := exists_neighbours_of_firstOverlap? h
  have hpositive : b.start < b.stop :=
    (mem_sorted.1 (hsorted ▸ by simp : b ∈ sorted spans)).2
  have hbefore : before a b = true := by
    have hordered := pairwise_sorted spans
    rw [hsorted, List.pairwise_append] at hordered
    exact (List.pairwise_cons.1 hordered.2.1).1 b List.mem_cons_self
  have hneighbours : (sorted spans).Perm (b :: a :: (front ++ back)) := by
    rw [hsorted]
    exact List.perm_middle.trans ((List.perm_middle.cons a).trans (.swap b a _))
  have hperm : spans.Perm (sorted spans ++ spans.filter fun span => !span.start < span.stop) :=
    (List.filter_append_perm _ spans).symm.trans ((perm_sorted spans).symm.append_right _)
  refine ⟨b, hstart, a, _, hperm.trans (hneighbours.append_right _), fun hdisjoint => ?_⟩
  -- both hold the start of the later one
  simp only [before, decide_eq_true_eq] at hbefore
  exact hdisjoint b.start ⟨⟨Nat.le_refl _, hpositive⟩, by omega, hoverlap⟩

/-- Empty spans have no part in whether spans are disjoint. -/
theorem pairwise_disjoint_filter_iff {spans : List Span} :
    (spans.filter fun span => span.start < span.stop).Pairwise Disjoint ↔
      spans.Pairwise Disjoint := by
  rw [← @pairwise_disjoint_sorted_iff spans]
  exact (perm_sorted spans).symm.pairwise_iff fun h => Disjoint.symm h

end Span

/-! ### The fixed parts of an image -/

/-- **The check of the fixed parts is exact**, for every header, all positions of the tables and
every list of records.  It passes if and only if the parts that are not empty are disjoint.  If it
fails, it reports where a part starts that overlaps another one.  If it passes, it returns the parts
that are not empty, and the binary search among them finds whether a position lies in one. -/
theorem Scan.structure_exact (found : Scan) :
    ((∃ spans, structureSpans found.header found.rangesAt found.directoryAt found.entries =
        .ok spans) ↔
      (found.regions.filter fun region => region.start < region.stop).Pairwise Span.Disjoint) ∧
    (∀ error, structureSpans found.header found.rangesAt found.directoryAt found.entries =
        .error error →
      ∃ region, error = .overlapping region.start ∧ Span.Overlapped found.regions region) ∧
    ∀ spans, structureSpans found.header found.rangesAt found.directoryAt found.entries =
        .ok spans →
      spans.Perm (found.regions.filter fun region => region.start < region.stop) ∧
      ∀ position, (Span.covers spans position = true ↔ ∃ span ∈ spans, span.Contains position) ∧
        Span.inside spans position = Span.covers spans position := by
  refine ⟨?_, fun error herror => ?_, fun spans hspans => ?_⟩
  · rw [Span.pairwise_disjoint_filter_iff]
    exact ⟨fun ⟨_, h⟩ => (structureSpans_eq_ok_iff.1 h).1,
      fun h => ⟨_, structureSpans_eq_ok_iff.2 ⟨h, rfl⟩⟩⟩
  · rw [structureSpans] at herror
    split at herror
    · next offset hoverlap =>
        obtain ⟨region, rfl, hoverlapped⟩ :=
          @Span.overlapped_of_firstOverlap? found.regions offset hoverlap
        exact ⟨region, (Except.error.inj herror).symm, hoverlapped⟩
    · cases herror
  · obtain ⟨hdisjoint, rfl⟩ := structureSpans_eq_ok_iff.1 hspans
    have hpositive : ∀ span ∈ Span.sorted found.regions, span.start < span.stop :=
      fun span hspan => (Span.mem_sorted.1 hspan).2
    have hordered := Span.pairwise_of_firstOverlap? hpositive
      (Span.firstOverlap?_sorted_eq_none_iff.2 hdisjoint)
    refine ⟨Span.perm_sorted _, fun position => ⟨?_, ?_⟩⟩
    · exact Span.covers_iff hpositive hordered position
    · refine Span.inside_eq_covers ((Span.pairwise_sorted _).imp fun hbefore => ?_) position
      simp only [Span.before, decide_eq_true_eq] at hbefore
      omega

namespace Sample

/-- A layout whose records take 32 bytes. -/
def broad : RecordLayout := ⟨0, "Node", 0, 32, 16, [], []⟩

/-- Two records at one position, a third one that reaches into them, and an empty directory. -/
def crowded : Scan :=
  ⟨⟨40, 0, 32, 1⟩, 32, 40, [⟨64, broad⟩, ⟨48, broad⟩, ⟨64, broad⟩], []⟩

end Sample

/-- The crowded records are reported at the position of the two. -/
theorem Scan.structure_exact_sample :
    structureSpans Sample.crowded.header Sample.crowded.rangesAt Sample.crowded.directoryAt
      Sample.crowded.entries = .error (.overlapping 64) ∧
    ∃ region, ImageError.overlapping 64 = .overlapping region.start ∧
      Span.Overlapped Sample.crowded.regions region := by
  have herror : structureSpans Sample.crowded.header Sample.crowded.rangesAt
      Sample.crowded.directoryAt Sample.crowded.entries = .error (.overlapping 64) := by cbv
  exact ⟨herror, Sample.crowded.structure_exact.2.1 _ herror⟩

end ScenePack
