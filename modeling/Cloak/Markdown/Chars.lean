import Cloak.Text.Search

namespace Cloak.Markdown

/-- White space of ASCII, line endings included. -/
def isSpace (c : Char) : Bool :=
  (9 ≤ c.toNat && c.toNat ≤ 13) || c == ' '

/-- White space of ASCII without line endings. -/
def isGap (c : Char) : Bool :=
  c == ' ' || c == '\t' || c == '\x0b' || c == '\x0c'

def isPunctuation (c : Char) : Bool :=
  let n := c.toNat
  (33 ≤ n && n ≤ 47) || (58 ≤ n && n ≤ 64) || (91 ≤ n && n ≤ 96) || (123 ≤ n && n ≤ 126)

def runLength (c : Char) (t : Text) : Nat :=
  (t.takeWhile (· == c)).length

/-- The length of the line ending at the head of a text; the end of the text is one of length
zero. -/
def lineEnd? : Text → Option Nat
  | [] => some 0
  | '\n' :: _ => some 1
  | '\r' :: '\n' :: _ => some 2
  | '\r' :: _ => some 1
  | _ => none

/-- The length of the rest of a line if it is blank, its ending included. -/
def blankLine? (t : Text) : Option Nat :=
  let gap := (t.takeWhile isGap).length
  (lineEnd? (t.drop gap)).map (gap + ·)

/-- The length of the rest of a line up to its line feed, that included. -/
def lineLength : Text → Nat
  | [] => 0
  | c :: cs => if c = '\n' then 1 else lineLength cs + 1

def dropGap (t : Text) : Text :=
  t.dropWhile isGap

end Cloak.Markdown
