import Cloak.Element.Tag
import Cloak.Error
import Cloak.Node

namespace Cloak

namespace Unclosed

/-- Reads the start of a tag with one of some names: the name and the character after it. -/
def openTag? (names : List Text) (t : Text) : Option (Nat × Text) :=
  names.findSome? fun name =>
    match Text.literal? ('<' :: name) t with
    | some (c :: _) =>
      if isBlank c || c == '>' || c == '/' then some (name.length + 2, name) else none
    | _ => none

def comment? (t : Text) : Option (Nat × Unit) := do
  let rest ← Text.afterFirst? "-->".toList (← Text.literal? "<!--".toList t)
  return (t.length - rest.length, ())

def isSelfClosing (document : Text) (offset : Nat) : Bool :=
  match Element.splitOpening? ((document.from? offset).getD []) with
  | some (opening, _) => "/>".toList.isSuffixOf opening
  | none => false

def inSome (spans : List Span) (offset : Nat) : Bool :=
  spans.any fun s => s.holds offset

end Unclosed

/-- The first opening tag with one of some names that is in no hidden range, comment or literal node
and does not close itself. -/
def unclosed? (document masked : Text) (names : List Text) (opaqueSpans : List Span)
    (nodes : List Node) : Option EscapeError :=
  if names.isEmpty then none
  else
    let comments := (masked.allMatches Unclosed.comment?).map Found.span
    let literals := (nodes.filter Node.isLiteral).map Node.span
    (document.allMatches (Unclosed.openTag? names)).findSome? fun found =>
      let offset := found.span.start
      if Unclosed.inSome opaqueSpans offset || Unclosed.inSome comments offset ||
          Unclosed.inSome literals offset || Unclosed.isSelfClosing document offset then
        none
      else some (.unclosedElement found.value offset (1 + Text.size found.value))

end Cloak
