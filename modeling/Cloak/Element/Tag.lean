import Cloak.Element.Attribute
import Cloak.Text.Word

namespace Cloak

structure Element where
  tag : Text
  attributes : Attributes
  inner : Text
  selfClosing : Bool
deriving DecidableEq, Repr

namespace Element

/-- Splits a text after the first `>` that is outside quotes and braces. -/
def splitOpeningFrom (quote : Option Char) (depth : Nat) : Text → Option (Text × Text)
  | [] => none
  | c :: cs =>
    if quote.isNone && depth == 0 && c == '>' then some ([c], cs)
    else
      let next : Option Char × Nat :=
        match quote with
        | some q => (if c = q then none else some q, depth)
        | none =>
          if c = '"' || c = '\'' then (some c, depth)
          else if c = '{' then (none, depth + 1)
          else if c = '}' then (none, depth - 1)
          else (none, depth)
      (splitOpeningFrom next.1 next.2 cs).map fun parts => (c :: parts.1, parts.2)

/-- The opening tag at the head of a text, with its `>`, and the rest. -/
def splitOpening? (t : Text) : Option (Text × Text) :=
  splitOpeningFrom none 0 t

def openingLength? (t : Text) : Option Nat :=
  (splitOpening? t).map fun parts => Text.size parts.1

def isNameChar (c : Char) : Bool :=
  isWordChar c || c == ':' || c == '.' || c == '-'

/-- The tag name after the `<` at the head of a text; it starts with an ASCII letter. -/
def name? : Text → Option Text
  | '<' :: c :: cs => if c.isAlpha then some (c :: cs.takeWhile isNameChar) else none
  | _ => none

/-- What stands before the last `</`, or everything. -/
def beforeLastClose (t : Text) : Text :=
  match Text.lastOffset? t "</".toList with
  | some n => (t.before? n).getD t
  | none => t

/-- The characters dropped from the end of the attributes. -/
def isAttributesEnd (c : Char) : Bool :=
  c == ' ' || c == '/' || c == '\t' || c == '\n'

/-- Splits an element into its parts; there are none if the text does not start with an opening
tag. -/
def parse? (outer : Text) : Option Element := do
  let name ← name? outer
  let (opening, rest) ← splitOpening? outer
  let head := opening.dropLast
  let selfClosing := rest.isEmpty && (Text.trimEndBy isBlank head).getLast? == some '/'
  let source := Text.trimEndBy isAttributesEnd (head.drop (name.length + 1))
  return {
    tag := name
    attributes := Attributes.ofText source
    inner := if selfClosing then [] else beforeLastClose rest
    selfClosing }

end Element

end Cloak
