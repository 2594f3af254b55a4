import Cloak.Pad
import Cloak.Span
import Cloak.Text.Lines
import Cloak.Text.Word

namespace Cloak

/-- A line that a block quote, a bullet or a numbered item starts. -/
def opensContainer (line : Text) : Bool :=
  match line.dropWhile isBlank with
  | '>' :: _ => true
  | '-' :: ' ' :: _ => true
  | rest =>
    match rest.takeWhile isDigitChar, rest.dropWhile isDigitChar with
    | _ :: _, '.' :: c :: _ => isBlank c
    | _, _ => false

/-- A line next to which a block stands apart. -/
def isolates (line : Text) : Bool :=
  opensContainer line || line.allBlank

/-- The pad before a block. A block that starts its line keeps its indentation, a line that opens a
container keeps the block, and anything else is two lines away. -/
def blockPadBefore (document : Text) (start : Nat) : Pad :=
  let line := (document.position start).line
  let before := document.lineBefore start
  if opensContainer ((document.line? line).getD []) then .newlines 0
  else if before.trim.isEmpty then
    if line = 0 || document.isBlankLine (line - 1) then .text before else .text ('\n' :: before)
  else .newlines 2

/-- The pad after a block: nothing if the block ends its line and the next one isolates it. -/
def blockPadAfter (document : Text) (stop : Nat) : Pad :=
  if (document.lineAfter stop).trim.isEmpty then
    match document.line? ((document.position stop).line + 1) with
    | some next => .newlines (if isolates next then 0 else 1)
    | none => .newlines 0
  else .newlines 2

def blockPadding (document : Text) (span : Span) : Padding :=
  .sides (blockPadBefore document span.start) (blockPadAfter document span.stop)

/-- The pad of a side whose neighbouring line is blank or not. -/
def logicPad (blank : Bool) : Pad :=
  .newlines (if blank then 2 else 1)

/-- The padding of a template's control tag: two newlines on a side with a blank line, else one. -/
def logicPadding (document : Text) (span : Span) : Padding :=
  let first := (document.position span.start).line
  let last := (document.position span.stop).line
  .sides (logicPad (decide (0 < first) && document.isBlankLine (first - 1)))
    (logicPad (document.isBlankLine (last + 1)))

end Cloak
