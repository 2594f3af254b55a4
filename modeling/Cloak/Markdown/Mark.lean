import Cloak.Markdown.Entity
import Cloak.Markdown.Marker

namespace Cloak.Markdown

inductive MarkKind where
  /-- A run of backticks, the first of them after a backslash or not. -/
  | ticks (count : Nat) (escaped : Bool)
  /-- A dollar: whether it may open and close math, and the braces it stands in. -/
  | dollar (opens closes : Bool) (group : Nat)
  | angle
  | bracket (image : Bool)
  /-- A closing bracket; whether the brackets before it may still be a reference on their own. -/
  | close (reference : Bool)
deriving DecidableEq, Repr

/-- A mark: what it is, its byte offsets, and the text after it. -/
structure Mark where
  kind : MarkKind
  start : Nat
  stop : Nat
  rest : Text

/-- The braces that are open, the innermost first, each known by a number below 256. Deep nesting is
only counted. -/
structure Braces where
  stack : List Nat := []
  next : Nat := 0

namespace Braces

def depthLimit : Nat := 25

/-- The number of what is outside all braces. -/
def outside : Nat := 255

/-- The number of the braces a dollar stands in. -/
def group (b : Braces) : Nat × Braces :=
  if depthLimit < b.stack.length then (b.next % 256, b)
  else
    match b.stack with
    | [] => (outside, { b with stack := [outside] })
    | g :: _ => (g, b)

def push (b : Braces) : Braces :=
  if b.stack.length = depthLimit then ⟨b.next % 256 :: b.stack, depthLimit⟩
  else if depthLimit < b.stack.length then { b with next := b.next + 1 }
  else
    let base := if b.stack.isEmpty then [outside] else b.stack
    ⟨b.next % 256 :: base, b.next + 1⟩

/-- After a closing brace; one that closes nothing changes what is outside. -/
def pop (b : Braces) : Braces :=
  match b.stack with
  | [_] => ⟨[b.next % 256], b.next + 1⟩
  | stack =>
    if depthLimit < stack.length && depthLimit < b.next then { b with next := b.next - 1 }
    else { b with stack := stack.drop 1 }

end Braces

/-- Whether a line may be the head of a table, and whether it is a row of one. -/
inductive TableMode where
  | none | head | row
deriving DecidableEq, Repr

/-- A table found below a line: its columns and where its rows start. -/
structure TableStart where
  columns : Nat
  body : Cursor

/-- The marks of a line in reverse, the braces after it, and where it ends. -/
structure LineScan where
  marks : List Mark
  braces : Braces
  stop : Cursor
  table : Option TableStart := .none

/-- What is known of a line while it is read. -/
structure LineState where
  marks : List Mark := []
  braces : Braces
  /-- Characters that belong to what was read before. -/
  skip : Nat := 0
  /-- The character before, if it is on the line. -/
  previous : Option Char := .none
  /-- The number of backslashes directly before. -/
  slashes : Nat := 0
  pipes : Nat := 0
  afterPipe : Text := []

namespace LineState

def mark (s : LineState) (kind : MarkKind) (length : Nat) (offset : Nat) (t : Text) : LineState :=
  { s with
    marks := ⟨kind, offset, offset + Text.size (t.take length), t.drop length⟩ :: s.marks
    skip := length - 1 }

def blankAhead : Text → Bool
  | [] => true
  | c :: _ => isSpace c

/-- After a backslash: it escapes punctuation; backticks after it are marked as escaped. In a row
of a table it does not escape the backslash of an escaped pipe. -/
def backslash (s : LineState) (mode : TableMode) (offset : Nat) (cs : Text) : LineState :=
  match cs with
  | '`' :: ds =>
    let count := 1 + runLength '`' ds
    { s.mark (.ticks count true) count (offset + 1) cs with skip := count }
  | '\\' :: '|' :: _ => { s with skip := if mode = .row then 2 else 1 }
  | c :: _ => if isPunctuation c then { s with skip := 1 } else s
  | [] => s

def char (s : LineState) (mode : TableMode) (offset : Nat) (c : Char) (cs : Text) : LineState :=
  let t := c :: cs
  if c = '\\' then s.backslash mode offset cs
  else if c = '`' then
    let count := 1 + runLength '`' cs
    s.mark (.ticks count false) count offset t
  else if c = '$' then
    let closes :=
      match s.previous with
      | some p => !isSpace p
      | .none => false
    let (group, braces) := s.braces.group
    { s.mark (.dollar (!blankAhead cs) closes group) 1 offset t with braces := braces }
  else if c = '\x7b' then { s with braces := s.braces.push }
  else if c = '\x7d' then { s with braces := s.braces.pop }
  else if c = '<' then if cs.head? = some '\\' then s else s.mark .angle 1 offset t
  else if c = '!' then if cs.head? = some '[' then s.mark (.bracket true) 2 offset t else s
  else if c = '[' then s.mark (.bracket false) 1 offset t
  else if c = ']' then s.mark (.close true) 1 offset t
  else if c = '&' then
    match reference? t with
    | some (length, _) => { s with skip := length - 1 }
    | .none => s
  else if c = '|' && s.previous != some '\\' then
    { s with pipes := s.pipes + 1, afterPipe := cs }
  else s

def step (s : LineState) (c : Char) : LineState :=
  { s with previous := some c, slashes := if c = '\\' then s.slashes + 1 else 0 }

end LineState

/-- The table that starts with a line of some pipes, if a rule with as many columns is below it in
the same containers. -/
def tableBelow? (spine : Spine) (line : Text) (pipes : Nat) (afterPipe : Text) (below : Cursor) :
    Option TableStart :=
  let (inside, m) := spine.enter below
  if pipes = 0 || !inside then none
  else
    match tableRule? m.rest with
    | some (columns, length) =>
      if columns = headColumns line pipes afterPipe then some ⟨columns, m.cursor.skip length⟩
      else none
    | none => none

/-- Reads a line from a place on, up to and with its ending; in a row of a table up to the next pipe
or the ending. -/
def scanLineFrom (spine : Spine) (mode : TableMode) (line : Text) :
    LineState → Nat → Text → LineScan
  | s, offset, [] => ⟨s.marks, s.braces, ⟨offset, []⟩, none⟩
  | s, offset, c :: cs =>
    if 0 < s.skip then
      scanLineFrom spine mode line ({ s with skip := s.skip - 1 }.step c) (offset + c.utf8Size) cs
    else
      match lineEnd? (c :: cs) with
      | some n =>
        let here : Cursor := ⟨offset, c :: cs⟩
        if mode = .row then ⟨s.marks, s.braces, here, none⟩
        else
          let below := here.skip n
          let broken := s.slashes % 2 = 1 && !below.atEnd
          let table :=
            if mode = .head && !broken then tableBelow? spine line s.pipes s.afterPipe below
            else none
          ⟨s.marks, s.braces, below, table⟩
      | none =>
        if mode = .row && c = '|' && s.previous != some '\\' then
          ⟨s.marks, s.braces, ⟨offset, c :: cs⟩, none⟩
        else
          scanLineFrom spine mode line ((s.char mode offset c cs).step c) (offset + c.utf8Size) cs

def scanLine (spine : Spine) (mode : TableMode) (braces : Braces) (c : Cursor) : LineScan :=
  scanLineFrom spine mode c.rest { braces := braces } c.offset c.rest

end Cloak.Markdown
