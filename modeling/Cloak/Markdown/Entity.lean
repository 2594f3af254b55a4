import Cloak.Markdown.Chars
import Cloak.Markdown.EntityTable

namespace Cloak.Markdown

def hexDigit? (c : Char) : Option Nat :=
  if c.isDigit then some (c.toNat - '0'.toNat)
  else if 'a' ≤ c && c ≤ 'f' then some (c.toNat - 'a'.toNat + 10)
  else if 'A' ≤ c && c ≤ 'F' then some (c.toNat - 'A'.toNat + 10)
  else none

def hexValue (t : Text) : Nat :=
  t.foldl (fun n c => 16 * n + (hexDigit? c).getD 0) 0

def decimalValue (t : Text) : Nat :=
  t.foldl (fun n c => 10 * n + (c.toNat - '0'.toNat)) 0

/-- The character of a code point; the replacement character stands for zero and for what is no
character. -/
def charOfCode (n : Nat) : Char :=
  if n = 0 || !n.isValidChar then '\ufffd' else Char.ofNat n

def splitAtChar (sep : Char) : Text → List Text
  | [] => [[]]
  | c :: cs =>
    if c = sep then [] :: splitAtChar sep cs
    else
      match splitAtChar sep cs with
      | [] => [[c]]
      | l :: ls => (c :: l) :: ls

/-- The text that a line of the table gives for a name. -/
def entityIn? (name : Text) (line : String) : Option Text :=
  (splitAtChar ' ' line.toList).findSome? fun entry =>
    match Text.literal? (name ++ [':']) entry with
    | some codes => some ((splitAtChar '+' codes).map fun code => Char.ofNat (hexValue code))
    | none => none

def entity? (name : Text) : Option Text :=
  entityLines.findSome? (entityIn? name)

def numericReference? (digits : Text) (value : Nat) (before : Nat) (rest : Text) :
    Option (Nat × Text) :=
  match digits, rest with
  | [], _ => none
  | _, ';' :: _ => some (before + digits.length + 1, [charOfCode value])
  | _, _ => none

def reference? : Text → Option (Nat × Text)
  | '&' :: '#' :: cs =>
    match cs with
    | 'x' :: ds | 'X' :: ds =>
      let digits := (ds.take 6).takeWhile fun c => (hexDigit? c).isSome
      numericReference? digits (hexValue digits) 3 (ds.drop digits.length)
    | _ =>
      let digits := (cs.take 7).takeWhile Char.isDigit
      numericReference? digits (decimalValue digits) 2 (cs.drop digits.length)
  | '&' :: cs =>
    let name := cs.takeWhile Char.isAlphanum
    match cs.drop name.length with
    | ';' :: _ => (entity? name).map fun value => (name.length + 2, value)
    | _ => none
  | _ => none

/-- Reads a backslash escape, a character reference, or a carriage return, which is dropped. -/
def escape? : Text → Option (Nat × Text)
  | '\\' :: c :: _ => if isPunctuation c then some (2, [c]) else none
  | '\r' :: _ => some (1, [])
  | t => reference? t

def unescape (t : Text) : Text :=
  t.replaceAll escape?

end Cloak.Markdown
