import Cloak.Node
import Cloak.Text.Lines

namespace Cloak

namespace Fence

/-- What is known of a document while its lines are read. -/
structure State where
  /-- The mark of fenced code that is open, and the length of its opening. -/
  code : Option (Char × Nat) := none
  /-- The offset of dollars that are open. -/
  math : Option Nat := none
deriving DecidableEq, Repr

/-- The mark and the length of a line that opens or closes fenced code. -/
def codeMark? (line : Text) : Option (Char × Nat) :=
  match line with
  | [] => none
  | c :: _ =>
    let length := (line.takeWhile (· == c)).length
    if (c = '`' || c = '~') && 3 ≤ length then some (c, length) else none

def isDollars (line : Text) : Bool :=
  line == ['$', '$']

def State.codeLine (s : State) (mark : Char) (length : Nat) (line : Text) : State :=
  match s.code with
  | none => { s with code := some (mark, length) }
  | some (openMark, openLength) =>
    if openMark = mark && openLength ≤ length && line.length = length then { s with code := none }
    else s

/-- The state after a line of at most three spaces and some text, which starts at an offset; the
math that the line ends. -/
def State.line (s : State) (start : Nat) (line : Text) : State × Option Span :=
  match s.math with
  | some opened =>
    if isDollars line then ({ s with math := none }, some ⟨opened, start + 2⟩) else (s, none)
  | none =>
    match codeMark? line with
    | some (mark, length) => (s.codeLine mark length line, none)
    | none =>
      if s.code.isNone && isDollars line then ({ s with math := some start }, none) else (s, none)

/-- Drops line endings from the end of a line. -/
def body (line : Text) : Text :=
  line.trimEndBy fun c => c == '\n' || c == '\r'

def readLines : State → Nat → List Text → List Span
  | _, _, [] => []
  | s, offset, raw :: rest =>
    let line := body raw
    let indent := (line.takeWhile (· == ' ')).length
    let after := offset + Text.size raw + 1
    if 3 < indent then readLines s after rest
    else
      let (s, found) := s.line (offset + indent) (Text.trimEndBy isBlank (line.drop indent))
      found.toList ++ readLines s after rest

end Fence

/-- The ranges from a line of dollars to the next one, outside fenced code. -/
def mathFences (masked : Text) : List Span :=
  Fence.readLines {} 0 masked.rawLines

def fenceNode (document : Text) (fence : Span) : Node where
  kind := .math true
  span := fence
  value := document.slice (fence.start + 2) (fence.stop - 2)

end Cloak
