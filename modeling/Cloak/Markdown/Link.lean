import Cloak.Markdown.Cursor
import Cloak.Text.Blank
import Cloak.Text.CaseFold

namespace Cloak.Markdown

namespace Link

def labelLimit : Nat := 1000

/-- Drops white space with at most one line ending in a label; `none` at a second one or where a
line may not end. `onBreak` tells what a new line starts with. -/
def labelSpace (onBreak : Text → Option Nat) : Nat → (seen : Bool) → Text → Option Text
  | 0, _, _ => none
  | fuel + 1, seen, t =>
    match t with
    | [] => some []
    | c :: cs =>
      if !isSpace c then some t
      else
        match lineEnd? t with
        | some n =>
          if seen then none
          else
            (onBreak (t.drop n)).bind fun skip => labelSpace onBreak fuel true (t.drop (n + skip))
        | none => labelSpace onBreak fuel seen cs

/-- Reads a label up to its closing bracket; `label` has been read, in reverse, and `count`
characters. White space counts as one space. -/
def labelFrom (onBreak : Text → Option Nat) : Nat → (label : Text) → (count : Nat) → Text →
    Option (Text × Text)
  | 0, _, _, _ => none
  | fuel + 1, label, count, t =>
    if labelLimit ≤ count then none
    else
      match t with
      | [] => none
      | '[' :: _ => none
      | ']' :: cs => if label.all isSpace then none else some (label.reverse, cs)
      | ['\\'] => none
      | '\\' :: c :: cs => labelFrom onBreak fuel (c :: '\\' :: label) (count + 2) cs
      | c :: cs =>
        if isSpace c then
          (labelSpace onBreak (t.length + 1) false t).bind fun rest =>
            labelFrom onBreak fuel (' ' :: label) (count + (t.length - rest.length)) rest
        else labelFrom onBreak fuel (c :: label) (count + 1) cs

/-- Reads a label after its opening bracket; what follows is the text after the closing one. -/
def label? (onBreak : Text → Option Nat) (t : Text) : Option (Text × Text) :=
  labelFrom onBreak (t.length + 1) [] 0 t

def sameLabel (a b : Text) : Bool :=
  Text.fold a == Text.fold b

/-- Drops a destination in angle brackets, after the opening one. -/
def pointedDestination? : Text → Option Text
  | [] => none
  | '\n' :: _ => none
  | '\r' :: _ => none
  | '<' :: _ => none
  | '>' :: cs => some cs
  | '\\' :: c :: cs =>
    if isPunctuation c then pointedDestination? cs else pointedDestination? (c :: cs)
  | _ :: cs => pointedDestination? cs

/-- Drops a destination without angle brackets, in which parentheses nest at most `limit` deep
inside one another. -/
def bareDestination? (limit : Nat) : (nest : Nat) → Text → Option Text
  | nest, [] => if nest = 0 then some [] else none
  | nest, '\\' :: c :: cs =>
    if isPunctuation c then bareDestination? limit nest cs
    else bareDestination? limit nest (c :: cs)
  | nest, c :: cs =>
    if c.toNat ≤ 0x20 then (if nest = 0 then some (c :: cs) else none)
    else if c = '(' then (if limit < nest then none else bareDestination? limit (nest + 1) cs)
    else if c = ')' then
      if nest = 0 then some (c :: cs) else bareDestination? limit (nest - 1) cs
    else bareDestination? limit nest cs

def destination? (limit : Nat) (t : Text) : Option Text :=
  match t with
  | '<' :: cs => pointedDestination? cs
  | cs => bareDestination? limit 0 cs

/-- Drops white space with at most one line ending, after which `onBreak` characters belong to
containers. -/
def separator (onBreak : Text → Nat) (t : Text) : Text :=
  let t := dropGap t
  match lineEnd? t with
  | some n =>
    let t := t.drop n
    dropGap (t.drop (onBreak t))
  | none => t

def titleFrom? (opening closing : Char) : Text → Option Text
  | [] => none
  | '\\' :: c :: cs =>
    if isPunctuation c then titleFrom? opening closing cs
    else titleFrom? opening closing (c :: cs)
  | c :: cs =>
    if c = closing then some cs
    else if c = opening then none
    else titleFrom? opening closing cs

def title? : Text → Option Text
  | '"' :: cs => titleFrom? '"' '"' cs
  | '\'' :: cs => titleFrom? '\'' '\'' cs
  | '(' :: cs => titleFrom? '(' ')' cs
  | _ => none

def nestingLimit : Nat := 32

/-- What follows a destination and perhaps a title in parentheses, after a link text. -/
def target? (onBreak : Text → Nat) (t : Text) : Option Text := do
  let inside ← Text.literal? ['('] t
  let rest ← destination? nestingLimit (separator onBreak inside)
  let spaced := separator onBreak rest
  let rest :=
    match title? spaced with
    | some rest => separator onBreak rest
    | none => spaced
  Text.literal? [')'] rest

def isSchemeChar (c : Char) : Bool :=
  c.isAlphanum || c == '.' || c == '-' || c == '+'

def address? (t : Text) : Option Text :=
  match t with
  | c :: _ =>
    let scheme := t.takeWhile isSchemeChar
    match t.drop scheme.length with
    | ':' :: cs =>
      if c.isAlpha && 2 ≤ scheme.length && scheme.length ≤ 32 then
        match cs.dropWhile fun c => !(c == '>' || c == '<' || c.toNat ≤ 0x20) with
        | '>' :: rest => some rest
        | _ => none
      else none
    | _ => none
  | [] => none

def isMailChar (c : Char) : Bool :=
  c.isAlphanum || ".!#$%&'*+/=?^_`\x7b|\x7d~-".toList.contains c

/-- Drops the labels of a domain up to a `>`, and that. -/
def domain? : Nat → Text → Option Text
  | 0, _ => none
  | fuel + 1, t =>
    let label := t.takeWhile fun c => c.isAlphanum || c == '-'
    if label.isEmpty || 63 < label.length || label.head? == some '-' ||
        label.getLast? == some '-' then
      none
    else
      match t.drop label.length with
      | '.' :: cs => domain? fuel cs
      | '>' :: cs => some cs
      | _ => none

def mail? (t : Text) : Option Text :=
  let name := t.takeWhile isMailChar
  match t.drop name.length with
  | '@' :: cs => if name.isEmpty then none else domain? (cs.length + 1) cs
  | _ => none

/-- What follows the address in angle brackets after the `<` at the head of a text. -/
def auto? (t : Text) : Option Text :=
  match address? t with
  | some rest => some rest
  | none => mail? t

end Link

end Cloak.Markdown
