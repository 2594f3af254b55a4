import Cloak.Draft
import Cloak.Node.Parse
import Cloak.Snippet.Container
import Cloak.Snippet.Delimited
import Cloak.Snippet.Verbatim

namespace Cloak

/-- The name that stands for a snippet: 32 lower-case hexadecimal digits. -/
abbrev SnippetId := Text

structure Escaped where
  document : Text
  snippets : List (SnippetId × Snippet)

/-- Puts padded names in the place of snippets, the first of which gets the name of the given
number. -/
def placeNames (newId : Nat → SnippetId) (draft : Draft) : Nat → List Snippet →
    Except EscapeError Escaped
  | _, [] => .ok ⟨draft.finish.getD draft.source, []⟩
  | number, s :: rest => do
    let id := newId number
    let draft ← draft.overwrite s.span (padText id s.padding)
    let escaped ← placeNames newId draft (number + 1) rest
    return { escaped with snippets := (id, s) :: escaped.snippets }

/-- Puts padded names in the place of the outermost of some snippets. -/
def hideSnippets (newId : Nat → SnippetId) (document : Text) (snippets : List Snippet) :
    Except EscapeError Escaped :=
  placeNames newId ⟨document, []⟩ 0 (outermost Snippet.span snippets)

/-- All candidates for hiding in a document whose colons are escaped, given the Markdown structure
of a text: from its nodes, its containers, its math between escaped brackets and its verbatim
elements. -/
def candidatesWith (events : Text → List MarkdownEvent) (document : Text) (config : Config) :
    Except EscapeError (List Snippet) := do
  let containers := Container.elements document
  let verbatims := Verbatim.elements document config
  let nodes ← parseWith events document (containers ++ verbatims) config.verbatimTags
  return Snippet.ofNodes document config nodes ++ Container.snippets document containers ++
    DelimitedMath.snippets document config.math ++ Verbatim.snippets document config verbatims

def candidates (document : Text) (config : Config) : Except EscapeError (List Snippet) :=
  candidatesWith Markdown.events document config

/-- Hides the snippets of a document, given the Markdown structure of a text. One that cannot be
read keeps all but its colons. -/
def escapeWith (events : Text → List MarkdownEvent) (newId : Nat → SnippetId) (document : Text)
    (config : Config) : Escaped :=
  let document := Colon.escape document
  match (candidatesWith events document config).bind (hideSnippets newId document) with
  | .ok escaped => escaped
  | .error _ => ⟨document, []⟩

def escape (newId : Nat → SnippetId) (document : Text) (config : Config) : Escaped :=
  escapeWith Markdown.events newId document config

end Cloak
