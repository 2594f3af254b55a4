import Cloak.Snippet

namespace Cloak

inductive NodeKind where
  /-- Fenced or indented code. -/
  | code (lang info : Option Text)
  | inlineCode
  | math (doubleDollar : Bool)
  /-- An interpolation in braces. -/
  | expression
  | frontmatter (kind : FrontmatterKind)
  /-- Raw HTML, in which braces are left alone. -/
  | html
deriving DecidableEq, Repr

/-- A node: what it is, where it is, and its text without delimiters, empty for HTML. -/
structure Node where
  kind : NodeKind
  span : Span
  value : Text
deriving DecidableEq, Repr

/-- Nodes whose text is not read any further. -/
def Node.isLiteral (n : Node) : Bool :=
  match n.kind with
  | .code .. | .inlineCode | .math _ | .frontmatter _ => true
  | .expression | .html => false

end Cloak
