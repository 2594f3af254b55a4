import Cloak.Markdown.Html
import Cloak.Markdown.Link
import Cloak.Markdown.Mark

namespace Cloak.Markdown

/-- Reads the label of a footnote definition after `[^`, on one line and with a colon after it. -/
def footnoteLabel? (t : Text) : Option (Text × Text) := do
  let (label, rest) ← Link.label? (fun _ => none) (← Text.literal? ['[', '^'] t)
  return (label, ← Text.literal? [':'] rest)

/-- Whether a line, without what its containers want, ends a paragraph and the rows of a table.
`insideAll` tells that the line is in all containers of the paragraph. -/
def interruptsRow (insideAll : Bool) (t : Text) : Bool :=
  (lineEnd? t).isSome || (breakLine? t).isSome || (heading? t).isSome || (fence? t).isSome ||
    t.head? == some '>' || interruptsAsItem insideAll t ||
    (match t with
      | '<' :: cs => (Html.blockEnd? cs).isSome || Html.startsBlockElement cs
      | _ => false) ||
    (footnoteLabel? t).isSome

/-- Pipes of a line that no backslash precedes, the text after the last of them, and the text of
the next line; none if there is no line ending. -/
def pipesOf : (pipes : Nat) → (afterPipe : Text) → (escaped : Bool) → Text →
    Option (Nat × Text × Text)
  | _, _, _, [] => none
  | pipes, afterPipe, escaped, c :: cs =>
    match lineEnd? (c :: cs) with
    | some n => some (pipes, afterPipe, (c :: cs).drop n)
    | none =>
      if c = '\\' then pipesOf pipes afterPipe true cs
      else if c = '|' && !escaped then pipesOf (pipes + 1) cs false cs
      else pipesOf pipes afterPipe false cs

/-- Whether a line starts a table that may interrupt a paragraph: it begins with a pipe. -/
def startsTable (spine : Spine) (t : Text) : Bool :=
  match t with
  | '|' :: _ =>
    match pipesOf 0 [] false t with
    | some (pipes, afterPipe, below) =>
      (tableBelow? spine t pipes afterPipe ⟨0, below⟩).isSome
    | none => false
  | _ => false

/-- Whether a line, without what its containers want, interrupts a paragraph. -/
def interrupts (spine : Spine) (insideAll : Bool) (t : Text) : Bool :=
  interruptsRow insideAll t || startsTable spine t

/-- What follows the start of a line on which a definition goes on, if it may. -/
def continuation? (spine : Spine) (t : Text) : Option Text :=
  let (insideAll, m) := spine.enter ⟨0, t⟩
  let (deep, m) := m.indent 4
  if !deep && (interrupts spine insideAll m.rest || (underline? m.rest).isSome) then none
  else some m.rest

namespace Definition

/-- Drops white space with at most one line ending; whether there was one. -/
def space? (spine : Spine) (t : Text) : Option (Bool × Text) :=
  let t := dropGap t
  match lineEnd? t with
  | none => some (false, t)
  | some n =>
    (continuation? spine (t.drop n)).bind fun rest =>
      let rest := dropGap rest
      if (lineEnd? rest).isSome then none else some (true, rest)

def titleFrom? (spine : Spine) (closing : Char) : Nat → Text → Option Text
  | 0, _ => none
  | fuel + 1, t =>
    match t with
    | [] => none
    | '\n' :: cs => (continuation? spine cs).bind (titleFrom? spine closing fuel)
    | '\\' :: _ :: cs => titleFrom? spine closing fuel cs
    | c :: cs => if c = closing then some cs else titleFrom? spine closing fuel cs

def title? (spine : Spine) (t : Text) : Option Text :=
  match t with
  | '"' :: cs => titleFrom? spine '"' (t.length + 1) cs
  | '\'' :: cs => titleFrom? spine '\'' (t.length + 1) cs
  | '(' :: cs => titleFrom? spine ')' (t.length + 1) cs
  | _ => none

/-- Drops the destination and the title of a reference. A title that is none, on a line of its own,
does not belong to the definition. -/
def body? (spine : Spine) (t : Text) : Option Text := do
  let (_, before) ← space? spine t
  let after ← Link.destination? 1 before
  if after.length = before.length then none
  else
    match space? spine after with
    | none => some after
    | some (broken, spaced) =>
      let bare := if broken then some after else none
      if spaced.length = after.length && !broken then none
      else
        match title? spine spaced with
        | some rest => if (blankLine? rest).isSome then some rest else bare
        | none => bare

def reference? (spine : Spine) (t : Text) : Option (Text × Text) := do
  let inside ← Text.literal? ['['] t
  let onBreak := fun below =>
    (continuation? spine below).map fun rest => below.length - rest.length
  let (label, rest) ← Link.label? onBreak inside
  return (label, ← body? spine (← Text.literal? [':'] rest))

end Definition

end Cloak.Markdown
