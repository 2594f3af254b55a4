import Cloak.Sorting
import Cloak.Span

namespace Cloak

/-- Earlier starts come first, and at one start the longer range comes first. -/
def Span.outerFirst (a b : Span) : Bool :=
  decide (a.start < b.start) || (decide (a.start = b.start) && decide (b.stop ≤ a.stop))

theorem Span.outerFirst_total (a b : Span) : a.outerFirst b ∨ b.outerFirst a := by
  simp only [outerFirst, Bool.or_eq_true, Bool.and_eq_true, decide_eq_true_eq]
  omega

theorem Span.outerFirst_trans {a b c : Span} (hab : a.outerFirst b) (hbc : b.outerFirst c) :
    a.outerFirst c := by
  simp only [outerFirst, Bool.or_eq_true, Bool.and_eq_true, decide_eq_true_eq] at *
  omega

/-- Keeps an item when its range starts at or after the end of the last kept one. -/
def sweep (span : α → Span) : Nat → List α → List α
  | _, [] => []
  | reached, a :: as =>
    if reached ≤ (span a).start then a :: sweep span (span a).stop as
    else sweep span reached as

theorem sweep_sublist (span : α → Span) (reached : Nat) (as : List α) :
    (sweep span reached as).Sublist as := by
  induction as generalizing reached with
  | nil => exact .slnil
  | cons a as ih =>
    rw [sweep]
    split
    · exact (ih _).cons_cons a
    · exact (ih _).cons a

/-- The items whose ranges a sweep from the left keeps, in ascending order. -/
def outermost (span : α → Span) (items : List α) : List α :=
  sweep span 0 (stableSort (fun a b => (span a).outerFirst (span b)) items)

end Cloak
