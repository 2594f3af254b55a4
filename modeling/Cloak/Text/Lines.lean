import Cloak.Text.Blank

namespace Cloak

/-- A zero-based line and the byte column in it. -/
structure Position where
  line : Nat
  column : Nat
deriving DecidableEq, Repr

namespace Text

/-- The pieces of a text between its line feeds. -/
def rawLines : Text → List Text
  | [] => [[]]
  | c :: cs =>
    if c = '\n' then [] :: rawLines cs
    else
      match rawLines cs with
      | [] => [[c]]
      | l :: ls => (c :: l) :: ls

def dropReturn : Text → Text
  | [] => []
  | ['\r'] => []
  | c :: cs => c :: dropReturn cs

def lineCount (t : Text) : Nat :=
  t.rawLines.length

/-- The byte offsets at which lines start, the first line starting at `start`. -/
def lineStartsFrom : Nat → List Text → List Nat
  | _, [] => []
  | start, l :: ls => start :: lineStartsFrom (start + size l + 1) ls

def lineStart? (t : Text) (line : Nat) : Option Nat :=
  (lineStartsFrom 0 t.rawLines)[line]?

/-- The line and column of a byte offset among lines of given texts; an offset past the last line
is in the last line. -/
def positionIn : Nat → Nat → List Text → Position
  | line, offset, [] => ⟨line, offset⟩
  | line, offset, [_] => ⟨line, offset⟩
  | line, offset, l :: ls =>
    if offset ≤ size l then ⟨line, offset⟩ else positionIn (line + 1) (offset - (size l + 1)) ls

/-- The line and column of a byte offset; offsets past the end count as the end. -/
def position (t : Text) (offset : Nat) : Position :=
  positionIn 0 (min offset (size t)) t.rawLines

/-- The text of a line without its line ending. -/
def line? (t : Text) (line : Nat) : Option Text :=
  t.rawLines[line]?.map dropReturn

def isBlankLine (t : Text) (line : Nat) : Bool :=
  match t.line? line with
  | some l => l.allBlank
  | none => false

def lineBefore (t : Text) (offset : Nat) : Text :=
  let p := t.position offset
  ((t.rawLines.getD p.line []).before? p.column).getD []

/-- The text on the same line from an offset to the line ending. -/
def lineAfter (t : Text) (offset : Nat) : Text :=
  let p := t.position offset
  (((t.line? p.line).getD []).from? p.column).getD []

end Text

end Cloak
