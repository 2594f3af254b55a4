import Cloak.Text

namespace Cloak

/-- The characters with the Unicode property White_Space. -/
def isBlank (c : Char) : Bool :=
  let n := c.toNat
  (9 ≤ n && n ≤ 13) || n == 0x20 || n == 0x85 || n == 0xA0 || n == 0x1680 ||
    (0x2000 ≤ n && n ≤ 0x200A) || n == 0x2028 || n == 0x2029 || n == 0x202F ||
    n == 0x205F || n == 0x3000

/-- The ASCII white space that may stand in a blank line: no vertical tab. -/
def isAsciiBlank (c : Char) : Bool :=
  c == ' ' || c == '\t' || c == '\n' || c == '\x0c' || c == '\r'

namespace Text

def trimStartBy (p : Char → Bool) (t : Text) : Text :=
  t.dropWhile p

def trimEndBy (p : Char → Bool) : Text → Text
  | [] => []
  | c :: cs =>
    match trimEndBy p cs with
    | [] => if p c then [] else [c]
    | d :: ds => c :: d :: ds

def trim (t : Text) : Text :=
  trimEndBy isBlank (trimStartBy isBlank t)

def allBlank (t : Text) : Bool :=
  t.all isBlank

/-- Drops one white space character, or one line ending of two, from the front. -/
def trimOneStart : Text → Text
  | '\r' :: '\n' :: cs => cs
  | c :: cs => if isBlank c then cs else c :: cs
  | [] => []

/-- Drops one white space character, or one line ending of two, from the end. -/
def trimOneEnd : Text → Text
  | [] => []
  | ['\r', '\n'] => []
  | [c] => if isBlank c then [] else [c]
  | c :: cs => c :: trimOneEnd cs

/-- Drops at most one white space character from each end; `\r\n` counts as one. -/
def trimOne (t : Text) : Text :=
  trimOneEnd (trimOneStart t)

end Text

end Cloak
