import Cloak.Text

namespace Cloak

/-- A half-open range of byte offsets; it may be inverted. -/
structure Span where
  start : Nat
  stop : Nat
deriving DecidableEq, Repr, Inhabited

namespace Span

/-- The number of bytes, none for an inverted range. -/
def length (s : Span) : Nat :=
  s.stop - s.start

def isEmpty (s : Span) : Bool :=
  decide (s.stop ≤ s.start)

/-- Whether the ends of `other` lie between the ends of `s`. -/
def contains (s other : Span) : Bool :=
  decide (s.start ≤ other.start) && decide (other.stop ≤ s.stop)

def holds (s : Span) (offset : Nat) : Bool :=
  decide (s.start ≤ offset) && decide (offset < s.stop)

/-- The text of the range, if it is in bounds and on character boundaries. -/
def text? (s : Span) (document : Text) : Option Text :=
  document.slice? s.start s.stop

/-- The text of the range, empty if there is none. -/
def text (s : Span) (document : Text) : Text :=
  document.slice s.start s.stop

end Span

end Cloak
