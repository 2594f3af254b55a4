import Cloak.Markdown.Inline

namespace Cloak

/-- A block whose texts Markdown tells one by one. -/
inductive BlockKind where
  /-- Code, with the info string if it is fenced. -/
  | code (info : Option Text)
  /-- Metadata between lines of dashes or pluses. -/
  | metadata (dashes : Bool)
deriving DecidableEq, Repr

/-- What Markdown tells of a document on the way through it. -/
inductive MarkdownKind where
  | blockStart (kind : BlockKind)
  /-- A text, in a block of code or metadata or outside of one. -/
  | text
  /-- A block of code or metadata ends. -/
  | blockEnd
  | code
  | math (display : Bool)
  /-- An HTML block starts, or HTML stands in a line. -/
  | html
  /-- Anything else, such as the start of a paragraph. -/
  | other
deriving DecidableEq, Repr

/-- What Markdown tells, and the range that it tells it of. -/
structure MarkdownEvent where
  kind : MarkdownKind
  span : Span
deriving DecidableEq, Repr

namespace Markdown

def InlineKind.kind : InlineKind → MarkdownKind
  | code => .code
  | math display => .math display
  | html => .html

def blockEvents (kind : BlockKind) (span : Span) (texts : List Span) : List MarkdownEvent :=
  ⟨.blockStart kind, span⟩ :: (texts.map fun s => ⟨.text, s⟩) ++ [⟨.blockEnd, span⟩]

def Leaf.events (o : Outline) : Leaf → List MarkdownEvent
  | code info span body => blockEvents (.code info) span body
  | metadata mark span body => blockEvents (.metadata (mark == '-')) span body
  | html span => [⟨.html, span⟩]
  | prose content => (inlinePieces o content).map fun p => ⟨p.1.kind, p.2⟩

/-- The code, math, metadata and HTML of a document, in ascending order. -/
def events (document : Text) : List MarkdownEvent :=
  let o := outline document
  o.leaves.reverse.flatMap (Leaf.events o)

end Markdown

end Cloak
