import Cloak.Config
import Cloak.Element.Tag
import Cloak.Error
import Cloak.Restore

namespace Cloak

/-- The functions that set each kind of content. -/
structure Backend where
  code : Text → CodeOptions → Except ProcessError Text
  math : Text → (inline : Bool) → Except ProcessError Text
  frontmatter : Text → FrontmatterKind → Except ProcessError Text
  /-- Compiles the body of a verbatim element. -/
  tex : Text → VerbatimOptions → Except ProcessError Text

def Backend.passthrough : Backend where
  code content _ := .ok content
  math content _ := .ok content
  frontmatter content _ := .ok content
  tex content _ := .ok content

/-- The texts that stand for the characters of markup in HTML, and those characters. -/
def htmlEntities : List (Text × Char) :=
  [("&amp;".toList, '&'), ("&lt;".toList, '<'), ("&gt;".toList, '>'), ("&quot;".toList, '"')]

/-- A text in which a browser finds no markup. -/
def escapeHtml (t : Text) : Except Text Text :=
  .ok (t.flatMap fun c => ((htmlEntities.find? fun e => e.2 == c).map Prod.fst).getD [c])

def braceChar (c : Char) : Text :=
  if c = '\x7b' then "&lbrace;".toList
  else if c = '\x7d' then "&rbrace;".toList
  else [c]

/-- A text in which a template finds no braces. -/
def hideBraces (t : Text) : Text :=
  t.flatMap braceChar

/-- An element with its body escaped as HTML and then without braces; one that closes itself is
kept. The function that escapes HTML may fail with a message. -/
def neutralElement (escapeHtml : Text → Except Text Text) (content : Text)
    (options : VerbatimOptions) : Except ProcessError Text :=
  if options.selfClosing then .ok options.outer
  else
    match escapeHtml content with
    | .error message => .error (.backend "escape".toList message)
    | .ok body =>
      .ok ((options.outer.before? ((Element.openingLength? options.outer).getD 0)).getD [] ++
        hideBraces body ++ "</".toList ++ options.tag ++ ['>'])

def Config.verbatimKind (config : Config) (tag : Text) : VerbatimKind :=
  match Dict.find? config.verbatim tag with
  | some environment => environment.kind
  | none => .noop

def VerbatimOptions.asCode (options : VerbatimOptions) : CodeOptions where
  inline := options.inline
  lang := (Dict.find? options.attributes "lang".toList).map AttributeValue.toText

/-- What becomes of a snippet, given a function that escapes HTML; one without content is kept. -/
def Backend.processWith (escapeHtml : Text → Except Text Text) (backend : Backend) (config : Config)
    (s : Snippet) : Except ProcessError Text :=
  match s.processable with
  | none => .ok s.outer
  | some ⟨content, .code options⟩ => backend.code content options
  | some ⟨content, .math inline⟩ => backend.math content inline
  | some ⟨content, .frontmatter kind⟩ => backend.frontmatter content kind
  | some ⟨content, .verbatim options⟩ =>
    match config.verbatimKind options.tag with
    | .code => backend.code content options.asCode
    | .tex => backend.tex content options
    | .escape => neutralElement escapeHtml content options
    | .noop => .ok s.outer

def Backend.process (backend : Backend) (config : Config) (s : Snippet) :
    Except ProcessError Text :=
  backend.processWith escapeHtml config s

/-- The text of a snippet that cannot be processed is kept. -/
def Backend.processOrKeep (escapeHtml : Text → Except Text Text) (backend : Backend)
    (config : Config) (s : Snippet) : Text :=
  match backend.processWith escapeHtml config s with
  | .ok t => t
  | .error _ => s.outer

def Backend.processAllWith (escapeHtml : Text → Except Text Text) (backend : Backend)
    (config : Config) (snippets : List (SnippetId × Snippet)) : List (SnippetId × Processed) :=
  snippets.map fun (id, s) =>
    (id, ⟨backend.processOrKeep escapeHtml config s, s.dropParagraph⟩)

def Backend.processAll (backend : Backend) (config : Config)
    (snippets : List (SnippetId × Snippet)) : List (SnippetId × Processed) :=
  backend.processAllWith escapeHtml config snippets

end Cloak
