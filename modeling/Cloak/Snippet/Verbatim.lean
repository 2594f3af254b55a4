import Cloak.Config
import Cloak.Element.Matcher
import Cloak.Element.Tag

namespace Cloak.Verbatim

def elements (document : Text) (config : Config) : List Span :=
  ElementForm.selfClosingOrPaired.find config.verbatimTags document

def inlineName : Text :=
  "inline".toList

def isInline (element : Element) (environment : VerbatimEnvironment) : Bool :=
  match (element.attributes.find? inlineName).or (environment.defaults.find? inlineName) with
  | some value => value.isTrue
  | none => false

def isSeparator (c : Char) : Bool :=
  c == ' ' || c == '\n'

def dropLeadingSeparator : Text → Text
  | [] => []
  | c :: cs => if isSeparator c then cs else c :: cs

def dropTrailingSeparator : Text → Text
  | [] => []
  | [c] => if isSeparator c then [] else [c]
  | c :: cs => c :: dropTrailingSeparator cs

/-- The content of an element: one separator falls off each end of a body in a line. -/
def content (element : Element) (inline : Bool) : Text :=
  if inline then dropTrailingSeparator (dropLeadingSeparator element.inner) else element.inner

/-- The 1-based line of the content: that of its last occurrence before the end of the element. -/
def contentLine (document : Text) (span : Span) (content : Text) : Nat :=
  let head := (document.before? span.stop).getD []
  let start := (head.lastOffset? content).getD span.start
  1 + ((document.before? start).getD []).count '\n'

/-- The snippet of an element, if it can be read and has an environment. -/
def snippet? (document : Text) (config : Config) (span : Span) : Option Snippet := do
  let outer := span.text document
  let element ← Element.parse? outer
  let environment ← Dict.find? config.verbatim element.tag
  let inline := isInline element environment
  let content := content element inline
  let options : VerbatimOptions := {
    tag := element.tag
    attributes := Dict.merge environment.defaults element.attributes
    selfClosing := element.selfClosing
    outer := outer
    line := contentLine document span content
    inline := inline }
  return .forBackend .verbatim document span content (.verbatim options)
    (.both (.newlines (if inline then 0 else 2))) (!inline)

def snippets (document : Text) (config : Config) (elements : List Span) : List Snippet :=
  elements.filterMap (snippet? document config)

end Cloak.Verbatim
