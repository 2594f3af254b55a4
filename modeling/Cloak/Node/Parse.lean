import Cloak.Node.Expression
import Cloak.Node.Fence
import Cloak.Node.Markdown
import Cloak.Node.Mask
import Cloak.Node.Unclosed

namespace Cloak

/-- A document with the ranges hidden from its readers, and the math fences found in it. -/
structure Masked where
  text : Text
  fences : List Span

/-- Hides some ranges of a document, and the math fences found outside them. -/
def hideOpaque (document : Text) (opaqueSpans : List Span) : Masked :=
  let masked := mask document opaqueSpans
  let fences := mathFences masked
  ⟨if fences.isEmpty then masked else mask document (opaqueSpans ++ fences), fences⟩

def sortNodes (nodes : List Node) : List Node :=
  stableSort (fun a b => decide (a.span.start ≤ b.span.start)) nodes

/-- The nodes other than expressions: math fences, then what `events` says of the masked
document. -/
def structureNodes (document : Text) (masked : Masked) (events : Text → List MarkdownEvent) :
    List Node :=
  masked.fences.map (fenceNode document) ++ markdownNodes document (events masked.text)

def parseWith (events : Text → List MarkdownEvent) (document : Text) (opaqueSpans : List Span)
    (verbatimTags : List Text) : Except EscapeError (List Node) :=
  let masked := hideOpaque document opaqueSpans
  let nodes := structureNodes document masked events
  match unclosed? document masked.text verbatimTags opaqueSpans nodes with
  | some error => .error error
  | none =>
    let shields := (sortNodes nodes).map Node.span
    .ok (sortNodes (nodes ++ expressions document masked.text shields))

/-- The nodes of a document in ascending order. Readers do not see the ranges in `opaqueSpans`; an
opening tag of a verbatim element outside them that is not closed is an error. -/
def parse (document : Text) (opaqueSpans : List Span) (verbatimTags : List Text) :
    Except EscapeError (List Node) :=
  parseWith Markdown.events document opaqueSpans verbatimTags

end Cloak
