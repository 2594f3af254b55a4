import Cloak.Element.Attribute
import Cloak.Pad
import Cloak.Span

namespace Cloak

inductive SnippetType where
  | code | math | frontmatter | svelte | mustacheTag | verbatim
deriving DecidableEq, Repr

def SnippetType.name : SnippetType → String
  | code => "code"
  | math => "math"
  | frontmatter => "frontmatter"
  | svelte => "svelte"
  | mustacheTag => "mustacheTag"
  | verbatim => "verbatim"

inductive FrontmatterKind where
  | yaml | toml | json
deriving DecidableEq, Repr

def FrontmatterKind.name : FrontmatterKind → String
  | yaml => "yaml"
  | toml => "toml"
  | json => "json"

structure CodeOptions where
  inline : Bool
  lang : Option Text := none
  info : Option Text := none
deriving DecidableEq, Repr

/-- What is known of a verbatim element besides its body. -/
structure VerbatimOptions where
  tag : Text
  attributes : Attributes
  selfClosing : Bool
  outer : Text
  /-- The 1-based line of the body in the document. -/
  line : Nat
  inline : Bool
deriving DecidableEq, Repr

inductive ProcessorOptions where
  | code (options : CodeOptions)
  | math (inline : Bool)
  | frontmatter (kind : FrontmatterKind)
  | verbatim (options : VerbatimOptions)
deriving DecidableEq, Repr

structure Processable where
  content : Text
  options : ProcessorOptions
deriving DecidableEq, Repr

/-- A region of a document that is to be hidden. -/
structure Snippet where
  type : SnippetType
  span : Span
  /-- The text of the region, if it is in bounds and on character boundaries. -/
  outer? : Option Text
  processable : Option Processable
  padding : Option Padding
  dropParagraph : Bool
deriving DecidableEq, Repr

namespace Snippet

def outer (s : Snippet) : Text :=
  s.outer?.getD []

/-- A region that is restored as it was. -/
def passthrough (type : SnippetType) (document : Text) (span : Span) (padding : Option Padding)
    (dropParagraph : Bool) : Snippet where
  type := type
  span := span
  outer? := span.text? document
  processable := none
  padding := padding
  dropParagraph := dropParagraph

/-- A region whose content goes to a backend. -/
def forBackend (type : SnippetType) (document : Text) (span : Span) (content : Text)
    (options : ProcessorOptions) (padding : Padding) (dropParagraph : Bool) : Snippet :=
  { passthrough type document span (some padding) dropParagraph with
    processable := some ⟨content, options⟩ }

end Snippet

end Cloak
