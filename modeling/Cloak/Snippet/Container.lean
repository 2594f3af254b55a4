import Cloak.Colon
import Cloak.Element.Matcher
import Cloak.Sorting

namespace Cloak.Container

/-- Elements that always have an opening and a close tag. -/
def pairedNames : List Text :=
  ["script", "style"].map String.toList

/-- Special elements by their names in an escaped document. -/
def specialNames : List Text :=
  (["window", "document", "body", "options"].map String.toList).map Colon.escapedName

def elements (document : Text) : List Span :=
  stableSort (fun a b => decide (a.start ≤ b.start))
    (ElementForm.paired.find pairedNames document ++
      ElementForm.selfClosingOrPaired.find specialNames document)

/-- A container is kept as it is, two lines away from its surroundings. -/
def snippet (document : Text) (element : Span) : Snippet :=
  .passthrough .svelte document element (some (.both (.newlines 2))) true

def snippets (document : Text) (elements : List Span) : List Snippet :=
  elements.map (snippet document)

end Cloak.Container
