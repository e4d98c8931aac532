/-
**Spans.**

The parts of an image occupy spans of positions.  Sorted by their starts, spans are disjoint if no
span starts before its left neighbour ends.

Main definitions:

* `Span` — the positions from a start up to an end;
* `Span.sorted` — the spans that are not empty, in order;
* `Span.firstOverlap?` — the start of the first span that overlaps its left neighbour;
* `Span.covers` — whether a position lies in one of sorted disjoint spans.

Main results:

* `Span.disjoint_iff` — spans that are not empty are disjoint if one ends before the other starts;
* `Span.mem_sorted`, `Span.pairwise_sorted` — sorting keeps the spans that are not empty, and
  orders them.
-/

set_option relaxedAutoImplicit false
set_option autoImplicit false

namespace ScenePack

/-- The positions from `start` up to but not including `stop`. -/
structure Span where
  start : Nat
  stop : Nat
  deriving DecidableEq

namespace Span

/-- Whether a position lies in a span. -/
def Contains (span : Span) (position : Nat) : Prop := span.start ≤ position ∧ position < span.stop

instance (span : Span) (position : Nat) : Decidable (span.Contains position) :=
  inferInstanceAs (Decidable (_ ∧ _))

/-- Whether two spans have no position in common. -/
def Disjoint (a b : Span) : Prop := ∀ position, ¬(a.Contains position ∧ b.Contains position)

/-- Two spans that are not empty are disjoint if one ends before the other starts. -/
theorem disjoint_iff {a b : Span} (ha : a.start < a.stop) (hb : b.start < b.stop) :
    a.Disjoint b ↔ a.stop ≤ b.start ∨ b.stop ≤ a.start := by
  constructor
  · intro h
    have hmax := h (max a.start b.start)
    simp only [Contains] at hmax
    omega
  · intro h position hboth
    simp only [Contains] at hboth
    omega

/-- The order of spans by their starts, then by their ends. -/
def before (a b : Span) : Bool := decide (a.start < b.start ∨ a.start = b.start ∧ a.stop ≤ b.stop)

/-- The spans that are not empty, in order. -/
def sorted (spans : List Span) : List Span :=
  (spans.filter fun span => span.start < span.stop).mergeSort before

theorem mem_sorted {span : Span} {spans : List Span} :
    span ∈ sorted spans ↔ span ∈ spans ∧ span.start < span.stop := by
  simp [sorted, List.mem_mergeSort]

/-- **Sorted spans are in order**, each before all that come after it. -/
theorem pairwise_sorted (spans : List Span) :
    (sorted spans).Pairwise fun a b => before a b = true := by
  apply List.pairwise_mergeSort
  · intro a b c hab hbc
    simp only [before, decide_eq_true_eq] at hab hbc ⊢
    omega
  · intro a b
    simp only [before, Bool.or_eq_true, decide_eq_true_eq]
    omega

/-- The start of the first span that overlaps its left neighbour. -/
def firstOverlap? : List Span → Option Nat
  | a :: b :: rest => if b.start < a.stop then some b.start else firstOverlap? (b :: rest)
  | _ => none

/-- Whether a position lies in one of sorted disjoint spans: the last one that starts at or before
the position decides. -/
def covers (spans : List Span) (position : Nat) : Bool :=
  match (spans.takeWhile fun span => span.start ≤ position).getLast? with
  | some span => position < span.stop
  | none => false

end Span

end ScenePack
