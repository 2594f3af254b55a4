import Cloak.Markdown.Definition

namespace Cloak.Markdown

/-- Inline content: the containers it stands in, its marks, and the offset at which it ends. -/
structure Prose where
  spine : Spine
  marks : List Mark
  stop : Nat

/-- A block that holds no blocks. Code and metadata know the ranges of their texts, without the
indentation and the marks of containers. -/
inductive Leaf where
  /-- Code; the info string if it is fenced. -/
  | code (info : Option Text) (span : Span) (body : List Span)
  | metadata (mark : Char) (span : Span) (body : List Span)
  | html (span : Span)
  | prose (content : Prose)

/-- The ranges of a line of code between two places: a carriage return before the last character is
left out. -/
def codeLine (start stop : Cursor) : List Span :=
  let line := start.rest.take (start.rest.length - stop.rest.length)
  match line.reverse with
  | last :: '\r' :: _ =>
    if last.utf8Size = 1 then
      [⟨start.offset, stop.offset - 2⟩, ⟨stop.offset - 1, stop.offset⟩].filter fun s =>
        !s.isEmpty
    else [⟨start.offset, stop.offset⟩]
  | [] => []
  | _ => [⟨start.offset, stop.offset⟩]

/-- What was read of a block: its last offset, its texts, and the place after it. -/
structure Extent where
  stop : Nat
  body : List Span := []
  after : Cursor

def isBlankHere (t : Text) : Bool :=
  (blankLine? t).isSome

/-- Reads indented code from the text of a line on. Blank lines belong to it when code follows them;
`pending` holds theirs, `stop` is the end of the last other line. Told apart is whether the last
line was blank. -/
def indentedFrom (spine : Spine) : Nat → (body pending : List Span) → (stop : Nat) →
    (blank : Bool) → Cursor → Extent × Bool
  | 0, body, _, stop, blank, c => (⟨stop, body, c⟩, blank)
  | fuel + 1, body, pending, stop, blank, c =>
    let next := c.nextLine
    let line := codeLine c next
    let body' := if blank then body else body ++ pending ++ line
    let pending' := if blank then pending ++ line else []
    let stop' := if blank then stop else next.offset
    let (inside, m) := spine.enter next
    let (deep, m) := m.indent 4
    if !inside || !(deep || m.atLineEnd) || m.cursor.atEnd then (⟨stop', body', next⟩, blank)
    else indentedFrom spine fuel body' pending' stop' (isBlankHere m.rest) m.cursor

def fencedFrom (spine : Spine) (indent : Nat) (mark : Char) (length : Nat) :
    Nat → (body : List Span) → Cursor → Extent
  | 0, body, c => ⟨c.offset, body, c⟩
  | fuel + 1, body, c =>
    let (inside, m) := spine.enter c
    let m := (m.indent indent).2
    let (deep, closing) := m.indent (4 - indent)
    if !inside then ⟨c.offset, body, c⟩
    else
      match if deep then none else closingFence? mark length closing.rest with
      | some n =>
        let after := closing.cursor.skip n
        ⟨after.offset, body, after⟩
      | none =>
        let next := m.cursor.nextLine
        fencedFrom spine indent mark length fuel (body ++ codeLine m.cursor next) next

def metadataFrom (spine : Spine) (mark : Char) : Nat → (body : List Span) → Cursor → Extent
  | 0, body, c => ⟨c.offset, body, c⟩
  | fuel + 1, body, c =>
    let (inside, m) := spine.enter c
    if !inside || c.atEnd then ⟨c.offset, body, c⟩
    else
      match closingMetadata? mark c.rest with
      | some n =>
        let after := c.skip n
        ⟨after.offset, body, after⟩
      | none =>
        let next := m.cursor.nextLine
        metadataFrom spine mark fuel (body ++ codeLine m.cursor next) next

/-- Reads an HTML block up to the line that holds its end. -/
def htmlToEnd (spine : Spine) (close : Text) : Nat → Cursor → Extent
  | 0, c => ⟨c.offset, [], c⟩
  | fuel + 1, c =>
    let next := c.nextLine
    let line := c.rest.take (c.rest.length - next.rest.length)
    let (inside, m) := spine.enter next
    if !inside || Text.contains line close then ⟨next.offset, [], next⟩
    else if m.cursor.atEnd then ⟨m.cursor.offset, [], next⟩
    else htmlToEnd spine close fuel m.cursor

def htmlToBlank (spine : Spine) : Nat → Cursor → Extent
  | 0, c => ⟨c.offset, [], c⟩
  | fuel + 1, c =>
    let next := c.nextLine
    let (inside, m) := spine.enter next
    if !inside || m.atLineEnd then ⟨next.offset, [], next⟩
    else if isBlankHere m.rest then ⟨m.cursor.offset, [], next⟩
    else htmlToBlank spine fuel m.cursor

/-- Reads the cells of a row of a table: the first `columns` of them, each with its marks, the
braces after the row, and the place after it. -/
def rowFrom (spine : Spine) : Nat → (columns : Nat) → Braces → (cells : List Leaf) → Cursor →
    List Leaf × Braces × Cursor
  | 0, _, braces, cells, c => (cells, braces, c)
  | fuel + 1, columns, braces, cells, c =>
    let c := if c.rest.head? = some '|' then c.skip 1 else c
    let c := c.moveTo (dropGap c.rest)
    match lineEnd? c.rest with
    | some n => (cells, braces, c.skip n)
    | none =>
      let scan := scanLine spine .row braces c
      let cell := Leaf.prose ⟨spine, scan.marks.reverse, scan.stop.offset⟩
      rowFrom spine fuel (columns - 1) scan.braces
        (if columns = 0 then cells else cells ++ [cell]) scan.stop

def row (spine : Spine) (columns : Nat) (braces : Braces) (c : Cursor) :
    List Leaf × Braces × Cursor :=
  rowFrom spine (c.rest.length + 1) columns braces [] c

def rowsFrom (spine : Spine) (columns : Nat) : Nat → Braces → (cells : List Leaf) → Cursor →
    List Leaf × Cursor
  | 0, _, cells, c => (cells, c)
  | fuel + 1, braces, cells, c =>
    let (inside, m) := spine.enter c
    let m := m.skipIndent
    if !inside || interruptsRow false m.rest then (cells, c)
    else
      let (more, braces, after) := row spine columns braces m.cursor
      rowsFrom spine columns fuel braces (cells ++ more) after

/-- Reads a paragraph, or a heading that is underlined, or a table that starts like a paragraph.
`marks` are those of the lines before, in reverse. -/
def paragraphFrom (spine : Spine) (start : Cursor) : Nat → (first : Bool) → Braces →
    (marks : List Mark) → Cursor → List Leaf × Cursor
  | 0, _, _, _, c => ([], c)
  | fuel + 1, first, braces, marks, c =>
    let scan := scanLine spine (if first then .head else .none) braces c
    match scan.table with
    | some table =>
      let (head, braces, _) := row spine table.columns scan.braces start
      rowsFrom spine table.columns (table.body.rest.length + 1) braces head table.body
    | none =>
      let next := scan.stop
      let marks := scan.marks ++ marks
      let finish := fun (stop : Cursor) => ([Leaf.prose ⟨spine, marks.reverse, stop.offset⟩], stop)
      let (inside, m) := spine.enter next
      let (deep, m) := m.indent 4
      match if inside && !deep then underline? m.rest else none with
      | some n => finish (m.cursor.skip n)
      | none =>
        if !deep && interrupts spine inside m.rest then finish next
        else
          let m := m.skipIndent
          if m.atLineEnd then finish next
          else paragraphFrom spine start fuel false scan.braces marks m.cursor

def paragraph (spine : Spine) (c : Cursor) : List Leaf × Cursor :=
  paragraphFrom spine c (c.rest.length + 1) true {} [] c

def Cursor.skipBlankLine (c : Cursor) : Cursor :=
  c.skip ((blankLine? c.rest).getD 0)

/-- Reads indented code; whether it ends in blank lines. -/
def indentedCode (spine : Spine) (c : Cursor) : Leaf × Bool × Cursor :=
  let (e, blank) := indentedFrom spine (c.rest.length + 1) [] [] c.offset false c
  (.code none ⟨c.offset, e.stop⟩ e.body, blank, e.after)

def fencedCode (spine : Spine) (indent : Nat) (mark : Char) (length : Nat) (c : Cursor) :
    Leaf × Cursor :=
  let opening := c.rest.take (lineLength c.rest)
  let info := unescape (Text.trimEndBy isSpace (dropGap (opening.drop length)))
  let e := fencedFrom spine indent mark length (c.rest.length + 1) [] c.nextLine
  (.code (some info) ⟨c.offset, e.stop⟩ e.body, e.after.skipBlankLine)

def metadataBlock (spine : Spine) (mark : Char) (c : Cursor) : Leaf × Cursor :=
  let e := metadataFrom spine mark (c.rest.length + 1) [] c.nextLine
  (.metadata mark ⟨c.offset, e.stop⟩ e.body, e.after.skipBlankLine)

def htmlBlock? (spine : Spine) (c : Cursor) : Option (Leaf × Cursor) :=
  match c.rest with
  | '<' :: cs =>
    let read := fun (e : Extent) => some (Leaf.html ⟨c.offset, e.stop⟩, e.after)
    match Html.blockEnd? cs with
    | some close => read (htmlToEnd spine close (c.rest.length + 1) c)
    | none =>
      if Html.startsBlockElement cs || Html.isLoneTag cs then
        read (htmlToBlank spine (c.rest.length + 1) c)
      else none
  | _ => none

def headingLine (spine : Spine) (level : Nat) (c : Cursor) : List Leaf × Cursor :=
  let inside := c.skip level
  match lineEnd? inside.rest with
  | some n => ([], inside.skip n)
  | none =>
    let start := inside.moveTo (dropGap inside.rest)
    let next := start.nextLine
    let scan := scanLine spine .none {} start
    ([.prose ⟨spine, scan.marks.reverse, next.offset⟩], next)

end Cloak.Markdown
