import Cloak.Text.Blank
import Cloak.Text.Search

namespace Cloak

/-- How elements may be written. -/
inductive ElementForm where
  | paired
  | selfClosingOrPaired
deriving DecidableEq, Repr

namespace ElementForm

/-- Reads attributes up to the first `>` outside quotes and braces. Told apart are a tag that ends
in `/>` and one that does not; a brace that closes nothing ends the reading. -/
def attributesFrom? (closer : Option Char) (slash : Bool) : Text → Option (Bool × Text)
  | [] => none
  | c :: cs =>
    match closer with
    | some q => attributesFrom? (if c = q then none else some q) false cs
    | none =>
      if c = '>' then some (slash, cs)
      else if c = '}' then none
      else if c = '"' || c = '\'' then attributesFrom? (some c) false cs
      else if c = '{' then attributesFrom? (some '}') false cs
      else attributesFrom? none (c == '/') cs

/-- Reads the optional attributes after a tag name, which start with white space. -/
def attributes? : Text → Option (Bool × Text)
  | [] => none
  | c :: cs =>
    if c = '>' then some (false, cs)
    else if isBlank c then attributesFrom? none false cs
    else none

def closeTag? (name : Text) (t : Text) : Option Text := do
  let rest ← Text.literal? ('<' :: '/' :: name) t
  match rest.dropWhile isBlank with
  | '>' :: cs => some cs
  | _ => none

/-- What follows the nearest close tag of a name. -/
def afterClose? (name : Text) : Text → Option Text
  | [] => none
  | c :: cs =>
    match closeTag? name (c :: cs) with
    | some rest => some rest
    | none => afterClose? name cs

/-- What follows an element of a name at the head of a text. -/
def element? (form : ElementForm) (name : Text) (t : Text) : Option Text := do
  let rest ← Text.literal? ('<' :: name) t
  if form = selfClosingOrPaired && "/>".toList.isPrefixOf rest then
    return rest.drop 2
  let (slash, rest) ← attributes? rest
  if form = selfClosingOrPaired && slash then
    return rest
  afterClose? name rest

/-- The number of characters of an element with one of some names, the first name that fits. -/
def anyElement? (form : ElementForm) (names : List Text) (t : Text) : Option (Nat × Text) :=
  names.findSome? fun name => (element? form name t).map fun rest => (t.length - rest.length, name)

/-- The elements of a text, in ascending order and disjoint. -/
def find (form : ElementForm) (names : List Text) (t : Text) : List Span :=
  (t.allMatches (anyElement? form names)).map Found.span

/-- As `find`, but there must be a name to look for. -/
def find? (form : ElementForm) (names : List Text) (t : Text) : Option (List Span) :=
  if names.isEmpty then none else some (find form names t)

end ElementForm

end Cloak
