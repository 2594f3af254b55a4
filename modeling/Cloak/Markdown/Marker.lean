import Cloak.Markdown.Cursor
import Cloak.Text.Blank

namespace Cloak.Markdown

/-- Counts the characters of a line that are `mark`, if the others are spaces and tabs. -/
def countAlone? (mark : Char) : Text → Option Nat
  | [] => some 0
  | c :: cs =>
    if c = '\n' || c = '\r' then some 0
    else if c = mark then (countAlone? mark cs).map (· + 1)
    else if c = ' ' || c = '\t' then countAlone? mark cs
    else none

/-- A thematic break: at least three of one of `*`, `-` and `_`, alone on the line; the length of
the line with its ending. -/
def breakLine? (t : Text) : Option Nat :=
  match t with
  | c :: _ =>
    let length := (t.takeWhile fun d => d != '\n' && d != '\r').length
    match countAlone? c t with
    | some n =>
      if (c = '*' || c = '-' || c = '_') && 3 ≤ n then
        (lineEnd? (t.drop length)).map (length + ·)
      else none
    | none => none
  | [] => none

/-- A heading marked by one to six `#` and white space or the end of the text; its level. -/
def heading? (t : Text) : Option Nat :=
  let level := runLength '#' t
  let closed :=
    match t.drop level with
    | [] => true
    | c :: _ => isSpace c
  if 1 ≤ level && level ≤ 6 && closed then some level else none

/-- The underline of a heading; its length with the line ending. -/
def underline? : Text → Option Nat
  | c :: cs =>
    if c = '=' || c = '-' then
      let n := 1 + runLength c cs
      (blankLine? ((c :: cs).drop n)).map (n + ·)
    else none
  | [] => none

/-- The opening of fenced code: three or more backticks, with no backtick after them on the line,
or three or more tildes; the character and the number. -/
def fence? : Text → Option (Char × Nat)
  | c :: cs =>
    if c = '`' || c = '~' then
      let n := 1 + runLength c cs
      let tail := cs.drop (n - 1)
      if n < 3 || (c == '`' && (tail.take (lineLength tail)).contains '`') then none
      else some (c, n)
    else none
  | [] => none

/-- The end of fenced code: as many of the opening's characters or more, then spaces; or the end of
the text. Its length without the line ending. -/
def closingFence? (mark : Char) (length : Nat) (t : Text) : Option Nat :=
  if t.isEmpty then some 0
  else
    let n := runLength mark t
    if n < length then none
    else
      let spaces := runLength ' ' (t.drop n)
      (lineEnd? (t.drop (n + spaces))).map fun _ => n + spaces

/-- The last line of a metadata block; for dashes three dots will do. Its length without the line
ending. -/
def closingMetadata? (mark : Char) (t : Text) : Option Nat :=
  if runLength mark t == 3 || (mark == '-' && runLength '.' t == 3) then
    let spaces := runLength ' ' (t.drop 3)
    (lineEnd? (t.drop (3 + spaces))).map fun _ => 3 + spaces
  else none

def hasClosingMetadata (mark : Char) : Nat → Text → Bool
  | 0, _ => false
  | fuel + 1, t =>
    (closingMetadata? mark t).isSome ||
      (!t.isEmpty && hasClosingMetadata mark fuel (t.drop (lineLength t)))

/-- The start of a metadata block: three dashes or pluses alone on a line, then a line that is
neither blank nor the end of the block, and the end somewhere below. -/
def metadata? (t : Text) : Option Char :=
  match t with
  | c :: _ =>
    let first := t.take (lineLength t)
    let below := t.drop (lineLength t)
    if (c == '-' || c == '+') && runLength c t == 3 && (first.drop 3).all isAsciiBlank &&
        (blankLine? below).isNone && (closingMetadata? c below).isNone &&
        hasClosingMetadata c below.length (below.drop (lineLength below)) then
      some c
    else none
  | [] => none

/-- The marker of a list item: its last character, its number, and the width of the indentation
of the item's lines. -/
structure ListMarker where
  mark : Char
  number : Nat
  width : Nat

/-- The columns of white space after a marker count as indentation when there are up to four; when
the rest of the line is blank, none do. -/
def finishMarker (mark : Char) (number width : Nat) (m : Margin) : ListMarker × Margin :=
  if (blankLine? m.rest).isSome then (⟨mark, number, width⟩, m)
  else
    let (spaces, after) := m.indentUpTo 4
    if spaces < 4 then (⟨mark, number, width + spaces⟩, after) else (⟨mark, number, width⟩, m)

/-- Reads the marker of a list item that stands `indent` columns in. -/
def listMarker? (indent : Nat) (m : Margin) : Option (ListMarker × Margin) :=
  match m.rest with
  | [] => none
  | c :: cs =>
    if c = '-' || c = '+' || c = '*' then
      if (breakLine? (c :: cs)).isSome then none
      else after? c 0 (indent + 2) 1
    else if c.isDigit then
      let digits := ((c :: cs).take 9).takeWhile Char.isDigit
      match (c :: cs).drop digits.length with
      | d :: _ =>
        if d = '.' || d = ')' then
          after? d (number digits) (indent + 2 + digits.length) (digits.length + 1)
        else none
      | [] => none
    else none
where
  /-- The number that decimal digits denote. -/
  number (digits : Text) : Nat :=
    digits.foldl (fun n c => 10 * n + (c.toNat - '0'.toNat)) 0
  /-- The place after a marker of some characters, which a space or the line end must follow. -/
  after? (mark : Char) (number width length : Nat) : Option (ListMarker × Margin) :=
    let m : Margin := ⟨m.cursor.skip length, m.column + length, m.owed⟩
    let (found, inside) := m.indent 1
    if found || inside.atLineEnd then some (finishMarker mark number width inside) else none

/-- Whether a list item that starts a line may interrupt a paragraph: not with a number other than
one, and not when nothing but blank lines follows on two lines. -/
def interruptsAsItem (insideAll : Bool) (t : Text) : Bool :=
  match t with
  | [] => false
  | c :: cs =>
    if c = '-' || c = '+' || c = '*' then ends cs && (!insideAll || !isEmptyItem cs)
    else if c.isDigit then
      let digits := (t.take 9).takeWhile Char.isDigit
      match t.drop digits.length with
      | d :: rest =>
        (d == '.' || d == ')') && ends rest &&
          (!insideAll || (listMarker?.number digits == 1 && !isEmptyItem rest))
      | [] => false
    else false
where
  /-- A space, a tab or the line end must follow a marker. -/
  ends : Text → Bool
    | [] => true
    | c :: _ => c == ' ' || c == '\t' || c == '\n' || c == '\r'
  /-- Whether the rest of the line and the next line are blank. -/
  isEmptyItem (t : Text) : Bool :=
    match blankLine? t with
    | some n => (blankLine? (t.drop n)).isSome
    | none => false

/-- The columns of a table rule that ends here, which must have had a pipe and a dash. -/
def ruleEnd (started pipe anyDash : Bool) (columns length : Nat) : Option (Nat × Nat) :=
  if pipe && anyDash then some (if started then columns + 1 else columns, length) else none

/-- Reads a table rule character by character; its columns and the length of the line. Each column
before a pipe has a dash. -/
def ruleFrom : (dash started pipe anyDash : Bool) → (columns length : Nat) → Text →
    Option (Nat × Nat)
  | _, started, pipe, anyDash, columns, length, [] => ruleEnd started pipe anyDash columns length
  | dash, started, pipe, anyDash, columns, length, c :: cs =>
    match lineEnd? (c :: cs) with
    | some n => ruleEnd started pipe anyDash columns (length + n)
    | none =>
      if c = ' ' then ruleFrom dash started pipe anyDash columns (length + 1) cs
      else if c = ':' then ruleFrom dash true pipe anyDash columns (length + 1) cs
      else if c = '-' then ruleFrom true true pipe true columns (length + 1) cs
      else if c = '|' && dash then ruleFrom false false true anyDash (columns + 1) (length + 1) cs
      else none

/-- The rule below the head of a table, such as `|---|:-:|`: the number of columns and the length
of the line with its ending. -/
def tableRule? (t : Text) : Option (Nat × Nat) :=
  let (columns, m) := (Margin.mk ⟨0, t⟩ 0 0).indentUpTo 4
  if 3 < columns || m.rest.isEmpty then none
  else
    let start := t.length - m.rest.length
    match m.rest with
    | '|' :: cs => (ruleFrom false false true false 0 0 cs).map fun r => (r.1, start + 1 + r.2)
    | cs => (ruleFrom false false false false 0 0 cs).map fun r => (r.1, start + r.2)

/-- The number of columns of a table head with some pipes: pipes at the ends of the line do not
divide columns. -/
def headColumns (line : Text) (pipes : Nat) (afterLastPipe : Text) : Nat :=
  let pipes := if (dropGap line).head? == some '|' then pipes - 1 else pipes
  if (blankLine? afterLastPipe).isSome then pipes else pipes + 1

end Cloak.Markdown
