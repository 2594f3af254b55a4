import Cloak.Markdown.Chars

namespace Cloak.Markdown

/-- A place in a document: its byte offset and the text from there on. -/
structure Cursor where
  offset : Nat
  rest : Text

namespace Cursor

def skip (c : Cursor) (n : Nat) : Cursor :=
  ⟨c.offset + Text.size (c.rest.take n), c.rest.drop n⟩

def atEnd (c : Cursor) : Bool :=
  c.rest.isEmpty

/-- The place where a suffix of the text from here on starts. -/
def moveTo (c : Cursor) (rest : Text) : Cursor :=
  c.skip (c.rest.length - rest.length)

def nextLine (c : Cursor) : Cursor :=
  c.skip (lineLength c.rest)

end Cursor

/-- A place at the start of a line whose indentation is being used up. A tab reaches to the next
multiple of four columns after the last tab. -/
structure Margin where
  cursor : Cursor
  /-- Characters since the start of the line or the last tab. -/
  column : Nat := 0
  /-- Columns of the last tab that are not used up. -/
  owed : Nat := 0

namespace Margin

def rest (m : Margin) : Text :=
  m.cursor.rest

/-- Uses up to `want` columns of spaces and tabs; the number of columns that are missing and the
place after the others. -/
def columnsFrom : Text → (offset column want : Nat) → Nat × Margin
  | ' ' :: cs, offset, column, want + 1 => columnsFrom cs (offset + 1) (column + 1) want
  | '\t' :: cs, offset, column, want + 1 =>
    let width := 4 - column % 4
    if want + 1 ≤ width then (0, ⟨⟨offset + 1, cs⟩, 0, width - (want + 1)⟩)
    else columnsFrom cs (offset + 1) 0 (want + 1 - width)
  | t, offset, column, want => (want, ⟨⟨offset, t⟩, column, 0⟩)

def columns (m : Margin) (want : Nat) : Nat × Margin :=
  if want ≤ m.owed then (0, { m with owed := m.owed - want })
  else columnsFrom m.rest m.cursor.offset m.column (want - m.owed)

/-- Uses `want` columns; whether there were so many, and the place after those there were. -/
def indent (m : Margin) (want : Nat) : Bool × Margin :=
  let (missing, m) := m.columns want
  (missing == 0, m)

/-- Uses up to `want` columns; their number and the place after them. -/
def indentUpTo (m : Margin) (want : Nat) : Nat × Margin :=
  let (missing, m) := m.columns want
  (want - missing, m)

def skipIndent (m : Margin) : Margin :=
  let n := (m.rest.takeWhile fun c => c == ' ' || c == '\t').length
  ⟨m.cursor.skip n, m.column + n, 0⟩

def atLineEnd (m : Margin) : Bool :=
  match m.rest with
  | [] => true
  | c :: _ => c == '\n' || c == '\r'

def char? (m : Margin) (c : Char) : Option Margin :=
  match m.rest with
  | d :: cs =>
    if d = c then some ⟨⟨m.cursor.offset + d.utf8Size, cs⟩, m.column + 1, m.owed⟩ else none
  | [] => none

/-- The place after the marker of a block quote and the space that belongs to it. -/
def quoteMarker? (m : Margin) : Option Margin :=
  (m.char? '>').map fun m => (m.indent 1).2

end Margin

inductive Container where
  | quote
  /-- A list of items with one kind of marker, tight as long as no blank line parts them. -/
  | list (marker : Char) (tight : Bool)
  /-- A list item, whose lines are indented by some columns. -/
  | item (indent : Nat)
  | footnote
deriving DecidableEq, Repr

namespace Container

/-- The place after what a container wants at the start of a line, if the line is in it. -/
def enter? (m : Margin) : Container → Option Margin
  | quote => (m.indent 3).2.quoteMarker?
  | list _ _ => some m
  | item width =>
    let (found, inside) := m.indent width
    if found || inside.atLineEnd then some inside else none
  | footnote =>
    let (found, inside) := m.indent 4
    if found || inside.atLineEnd then some inside else none

/-- The number of containers, outermost first, that a line is in, and the place after what they
want. -/
def follow : List Container → Margin → Nat × Margin
  | [], m => (0, m)
  | c :: cs, m =>
    match enter? m c with
    | some inside =>
      let (n, m) := follow cs inside
      (n + 1, m)
    | none => (0, m)

end Container

/-- Containers in which a block stands, the outermost first. -/
abbrev Spine := List Container

namespace Spine

/-- The place after what the containers want at a line start, and whether the line is in all. -/
def enter (spine : Spine) (c : Cursor) : Bool × Margin :=
  let (n, m) := Container.follow spine ⟨c, 0, 0⟩
  (n == spine.length, m)

/-- The number of characters that the containers take at the start of a line. -/
def skipLength (spine : Spine) (t : Text) : Nat :=
  t.length - (enter spine ⟨0, t⟩).2.rest.length

end Spine

end Cloak.Markdown
