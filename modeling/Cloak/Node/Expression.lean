import Cloak.Node
import Cloak.Text.Blank

namespace Cloak

namespace Expression

/-- Whether a line of white space and its line feed stand at the head of a text. -/
def blankLineAhead (t : Text) : Bool :=
  (t.dropWhile fun c => isAsciiBlank c && c != '\n').head? == some '\n'

/-- The number of bytes up to the brace that closes a brace, from the text after it on, `depth`
braces being open inside. Strings in quotes are skipped, in which a backslash hides the next
character; a line feed before a blank line ends the search. -/
def closingFrom (quote : Option Char) (hidden : Bool) (depth : Nat) (count : Nat) :
    Text → Option Nat
  | [] => none
  | c :: cs =>
    let count' := count + c.utf8Size
    if hidden then closingFrom quote false depth count' cs
    else if c = '\n' && blankLineAhead cs then none
    else
      match quote with
      | some q =>
        if c = '\\' then closingFrom quote true depth count' cs
        else closingFrom (if c = q then none else quote) false depth count' cs
      | none =>
        if c = '"' || c = '\'' || c = '`' then closingFrom (some c) false depth count' cs
        else if c = '\x7b' then closingFrom none false (depth + 1) count' cs
        else if c = '\x7d' then
          if depth = 0 then some count else closingFrom none false (depth - 1) count' cs
        else closingFrom none false depth count' cs

/-- The range of the balanced braces that start at an offset, the text from the opening brace on
being given. -/
def braces? (offset : Nat) : Text → Option Span
  | '\x7b' :: cs => (closingFrom none false 0 0 cs).map fun n => ⟨offset, offset + 1 + n + 1⟩
  | _ => none

/-- The end of the first of some ranges that an offset lies in or after the start of, once those
that end there or before are dropped. -/
def shieldEnd? (offset : Nat) : List Span → Option Nat × List Span
  | [] => (none, [])
  | s :: ss =>
    if s.stop ≤ offset then shieldEnd? offset ss
    else (if s.start ≤ offset then some s.stop else none, s :: ss)

/-- The ranges of the balanced braces outside some ranges, which ascend by their starts. Up to
`reached` everything is settled; a backslash hides the character after it. -/
def scan (shields : List Span) (reached : Nat) (hidden : Bool) (offset : Nat) : Text → List Span
  | [] => []
  | c :: cs =>
    let next := offset + c.utf8Size
    if offset < reached then scan shields reached false next cs
    else if hidden then scan shields reached false next cs
    else
      match shieldEnd? offset shields with
      | (some stop, shields) => scan shields stop false next cs
      | (none, shields) =>
        if c = '\\' then scan shields reached true next cs
        else
          match braces? offset (c :: cs) with
          | some span => span :: scan shields span.stop false next cs
          | none => scan shields reached false next cs

end Expression

/-- The nodes of the balanced braces of a masked document outside some ranges; their text is that of
the real document. -/
def expressions (document masked : Text) (shields : List Span) : List Node :=
  (Expression.scan shields 0 false 0 masked).map fun s =>
    ⟨.expression, s, document.slice (s.start + 1) (s.stop - 1)⟩

end Cloak
