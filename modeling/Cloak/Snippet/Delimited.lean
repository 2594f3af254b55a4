import Cloak.Snippet.Node
import Cloak.Span.Outermost

namespace Cloak

inductive MathDelimiter where
  | brackets
  | parentheses
deriving DecidableEq, Repr

namespace MathDelimiter

def isEnabled (settings : MathSettings) : MathDelimiter → Bool
  | brackets => settings.escapedSquareBrackets
  | parentheses => settings.escapedParentheses

/-- The delimiter that a character after a backslash makes, and whether it opens. -/
def ofChar? (c : Char) : Option (MathDelimiter × Bool) :=
  if c = '[' then some (brackets, true)
  else if c = ']' then some (brackets, false)
  else if c = '(' then some (parentheses, true)
  else if c = ')' then some (parentheses, false)
  else none

end MathDelimiter

structure DelimitedMath where
  delimiter : MathDelimiter
  span : Span
deriving DecidableEq, Repr

namespace DelimitedMath

/-- The delimiters that are open, with their offsets, the last opened first. -/
abbrev Opened := List (MathDelimiter × Nat)

/-- What a delimiter at an offset does to the open ones, and the pair that it closes. A closing
delimiter that does not fit the last open one does nothing. -/
def step (opened : Opened) (offset : Nat) (delimiter : MathDelimiter) (opening : Bool) :
    Opened × Option DelimitedMath :=
  if opening then ((delimiter, offset) :: opened, none)
  else
    match opened with
    | (top, start) :: rest =>
      if top = delimiter then (rest, some ⟨delimiter, ⟨start, offset + 2⟩⟩) else (opened, none)
    | [] => (opened, none)

/-- The pairs of delimiters in a text that starts at an offset, in the order in which they close. -/
def pairsFrom (settings : MathSettings) (opened : Opened) (offset : Nat) :
    Text → List DelimitedMath
  | '\\' :: c :: cs =>
    match MathDelimiter.ofChar? c with
    | some (delimiter, opening) =>
      if delimiter.isEnabled settings then
        let (opened, found) := step opened offset delimiter opening
        found.toList ++ pairsFrom settings opened (offset + 2) cs
      else pairsFrom settings opened (offset + 2) cs
    | none => pairsFrom settings opened (offset + 1 + c.utf8Size) cs
  | c :: cs => pairsFrom settings opened (offset + c.utf8Size) cs
  | [] => []

/-- The balanced pairs of delimiters in a document, nested ones included. -/
def pairs (settings : MathSettings) (document : Text) : List DelimitedMath :=
  pairsFrom settings [] 0 document

/-- The snippet of math between delimiters; brackets make it display math. -/
def snippet (document : Text) (m : DelimitedMath) : Snippet :=
  Snippet.ofMath document m.span (m.delimiter == .brackets)
    (document.slice (m.span.start + 2) (m.span.stop - 2))

def snippets (document : Text) (settings : MathSettings) : List Snippet :=
  (outermost DelimitedMath.span (pairs settings document)).map (snippet document)

end DelimitedMath

end Cloak
