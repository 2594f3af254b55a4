import Cloak.Markdown.Event
import Cloak.Node

namespace Cloak

def dropLineEnd (t : Text) : Text :=
  match t.reverse with
  | '\n' :: '\r' :: rest => rest.reverse
  | '\n' :: rest => rest.reverse
  | _ => t

def joined (document : Text) (body : List Span) : Text :=
  body.flatMap fun s => s.text document

def withoutLineEnds (document : Text) (s : Span) : Span :=
  let text := (s.text document).trimEndBy fun c => c == '\n' || c == '\r'
  ⟨s.start, s.start + Text.size text⟩

def splitInfo (info : Text) : Option Text × Option Text :=
  let info := info.trim
  if info.isEmpty then (none, none)
  else
    let lang := info.takeWhile fun c => !isBlank c
    let rest := Text.trim (info.drop lang.length)
    (some lang, if rest.isEmpty then none else some rest)

/-- Indented code starts where its line starts, if only white space stands before it. -/
def indentedStart (document : Text) (start : Nat) : Nat :=
  let head := (document.before? start).getD []
  let indentation := (head.reverse.takeWhile (· != '\n')).reverse
  if Text.allBlank indentation then start - Text.size indentation else start

/-- A block of code or metadata that has started, with the ranges of its texts so far. -/
structure OpenBlock where
  kind : NodeKind
  span : Span
  texts : List Span
deriving DecidableEq, Repr

namespace OpenBlock

def opened (document : Text) (kind : BlockKind) (s : Span) : OpenBlock :=
  match kind with
  | .code (some info) => ⟨.code (splitInfo info).1 (splitInfo info).2, s, []⟩
  | .code none => ⟨.code none none, ⟨indentedStart document s.start, s.stop⟩, []⟩
  | .metadata dashes => ⟨.frontmatter (if dashes then .yaml else .toml), s, []⟩

def add (b : OpenBlock) (s : Span) : OpenBlock :=
  { b with texts := b.texts ++ [s] }

end OpenBlock

/-- Metadata between dashes that starts with a brace is JSON. -/
def NodeKind.ofValue (kind : NodeKind) (value : Text) : NodeKind :=
  if kind = .frontmatter .yaml ∧ (value.trimStartBy isBlank).head? = some '\x7b' then
    .frontmatter .json
  else kind

def OpenBlock.close (document : Text) (b : OpenBlock) : Node :=
  let value := dropLineEnd (joined document b.texts)
  ⟨b.kind.ofValue value, withoutLineEnds document b.span, value⟩

/-- A text with each line ending as a space; a carriage return alone is none. -/
def endsToSpaces : Text → Text
  | [] => []
  | '\r' :: '\n' :: cs => ' ' :: endsToSpaces cs
  | c :: cs => (if c = '\n' then ' ' else c) :: endsToSpaces cs

/-- The content of a code span between its backticks: line endings are spaces, and of a content
that is not all spaces one space falls off each end if there is one at both. -/
def codeSpanValue (raw : Text) : Text :=
  let ticks := (raw.takeWhile (· == '`')).length
  let inner := endsToSpaces ((raw.slice? ticks (Text.size raw - ticks)).getD [])
  match inner with
  | ' ' :: rest =>
    if rest.getLast? = some ' ' && !inner.all (· == ' ') then rest.dropLast else inner
  | _ => inner

def mathNode (document : Text) (doubleDollar : Bool) (s : Span) : Node :=
  let width := if doubleDollar then 2 else 1
  ⟨.math doubleDollar, s, document.slice (s.start + width) (s.stop - width)⟩

/-- The nodes of what Markdown tells while a block is open or none is. A block that starts takes the
place of an open one, and a text outside of a block is passed over. -/
def nodesFrom (document : Text) : Option OpenBlock → List MarkdownEvent → List Node
  | _, [] => []
  | block?, e :: es =>
    match e.kind with
    | .blockStart kind => nodesFrom document (some (.opened document kind e.span)) es
    | .text => nodesFrom document (block?.map fun b => b.add e.span) es
    | .blockEnd => (block?.map (OpenBlock.close document)).toList ++ nodesFrom document none es
    | .code => ⟨.inlineCode, e.span, codeSpanValue (e.span.text document)⟩ ::
        nodesFrom document block? es
    | .math display => mathNode document display e.span :: nodesFrom document block? es
    | .html => ⟨.html, e.span, []⟩ :: nodesFrom document block? es
    | .other => nodesFrom document block? es

def markdownNodes (document : Text) (events : List MarkdownEvent) : List Node :=
  nodesFrom document none events

end Cloak
