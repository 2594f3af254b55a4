import Cloak.Element.Matcher
import Cloak.Snippet
import Cloak.Text.Word

namespace Cloak.Colon

/-- Stands for the colon while a document is escaped. -/
def placeholder : Text :=
  "-weaver-colon-".toList

/-- The namespace of special elements. -/
def scope : Text :=
  "svelte".toList

/-- The special elements, by their names after the colon. -/
def names : List Text :=
  ["self", "component", "element", "fragment", "window", "document", "body", "options",
    "head"].map String.toList

def escapedName (name : Text) : Text :=
  scope ++ placeholder ++ name

def name? (t : Text) : Option Text :=
  names.find? fun name =>
    match Text.literal? name t with
    | some [] => true
    | some (c :: _) => !isWordChar c
    | none => false

/-- Reads the start of an opening or closing tag in the namespace, up to the colon. -/
def scope? (t : Text) : Option (Text × Text) :=
  let opening := '<' :: scope
  let closing := '<' :: '/' :: scope
  match Text.literal? closing t with
  | some (':' :: rest) => some (closing, rest)
  | _ =>
    match Text.literal? opening t with
    | some (':' :: rest) => some (opening, rest)
    | _ => none

/-- Reads the start of a tag of a special element, and writes it with the placeholder. -/
def tag? (t : Text) : Option (Nat × Text) := do
  let (head, rest) ← scope? t
  let name ← name? rest
  return (head.length + 1 + name.length, head ++ placeholder ++ name)

def escape (document : Text) : Text :=
  document.replaceAll tag?

def unescape (document : Text) : Text :=
  document.replaceWord placeholder [':']

/-- The colons to report of one special element: the first in its text and, unless the text ends
in `/>`, the last if that is another. -/
def offsetsIn (element : Text) : List Nat :=
  match element.offsetOf? (· == ':'), element.lastOffsetOf? (· == ':') with
  | some first, some last =>
    if "/>".toList.isSuffixOf element || last = first then [first] else [first, last]
  | _, _ => []

def elements (document : Text) : List Span :=
  ElementForm.selfClosingOrPaired.find (names.map fun name => scope ++ ':' :: name) document

/-- One snippet for each tag-name colon of the special elements of a document. -/
def snippets (document : Text) : List Snippet :=
  (elements document).flatMap fun element =>
    (offsetsIn (element.text document)).map fun n =>
      let start := element.start + n
      Snippet.passthrough .svelte document ⟨start, start + 1⟩ (some .none) false

end Cloak.Colon
