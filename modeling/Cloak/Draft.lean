import Cloak.Error
import Cloak.Sorting

namespace Cloak

structure Edit where
  span : Span
  text : Text
deriving DecidableEq, Repr

/-- A document with the replacements accepted so far, the first accepted one first. -/
structure Draft where
  source : Text
  edits : List Edit := []

namespace Draft

/-- Two ranges clash when they are the same or share a byte or surround one another's inside. -/
def clash (a b : Span) : Bool :=
  decide (b = a) || (decide (a.start < b.stop) && decide (b.start < a.stop))

/-- Adds a replacement, if its range is in bounds, on character boundaries and clashes with none. -/
def overwrite (d : Draft) (span : Span) (text : Text) : Except EscapeError Draft :=
  if span.stop < span.start || d.source.size < span.stop then
    .error (.outOfBounds span d.source.size)
  else if !d.source.isBoundary span.start || !d.source.isBoundary span.stop then
    .error (.notCharBoundary span)
  else if d.edits.any fun e => clash span e.span then
    .error (.overlappingEdit span)
  else
    .ok { d with edits := d.edits ++ [⟨span, text⟩] }

/-- The source from `reached` on with edits in place, if each edit starts where or after the one
before it ended. -/
def assemble (source : Text) : Nat → List Edit → Option Text
  | reached, [] => source.from? reached
  | reached, e :: es => do
    let gap ← source.slice? reached e.span.start
    let rest ← assemble source e.span.stop es
    return gap ++ e.text ++ rest

/-- The edited document. There is none when an empty edit at the start of another edit was added
after that one. -/
def finish (d : Draft) : Option Text :=
  assemble d.source 0
    (stableSort (fun a b => decide (a.span.start ≤ b.span.start)) d.edits)

end Draft

end Cloak
