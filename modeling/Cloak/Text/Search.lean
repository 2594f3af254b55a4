import Cloak.Span

namespace Cloak

/-- A match in a text: where it is and what was read there. -/
structure Found (α : Type) where
  span : Span
  value : α

namespace Text

/-- The matches of `read`, which tells how many characters it takes at the head of a text.
The first `skip` characters belong to an earlier match. -/
def matchesFrom (read : Text → Option (Nat × α)) : Nat → Nat → Text → List (Found α)
  | _, _, [] => []
  | skip + 1, offset, c :: cs => matchesFrom read skip (offset + c.utf8Size) cs
  | 0, offset, c :: cs =>
    match read (c :: cs) with
    | some (length, value) =>
      ⟨⟨offset, offset + size ((c :: cs).take length)⟩, value⟩ ::
        matchesFrom read (length - 1) (offset + c.utf8Size) cs
    | none => matchesFrom read 0 (offset + c.utf8Size) cs

def allMatches (read : Text → Option (Nat × α)) (t : Text) : List (Found α) :=
  matchesFrom read 0 0 t

/-- The text with every match of `read` replaced; the first `skip` characters are dropped. -/
def replaceFrom (read : Text → Option (Nat × Text)) : Nat → Text → Text
  | _, [] => []
  | skip + 1, _ :: cs => replaceFrom read skip cs
  | 0, c :: cs =>
    match read (c :: cs) with
    | some (length, replacement) => replacement ++ replaceFrom read (length - 1) cs
    | none => c :: replaceFrom read 0 cs

def replaceAll (read : Text → Option (Nat × Text)) (t : Text) : Text :=
  replaceFrom read 0 t

def literal? (word : Text) (t : Text) : Option Text :=
  if word.isPrefixOf t then some (t.drop word.length) else none

def replaceWord (t word replacement : Text) : Text :=
  replaceAll (fun s => (literal? word s).map fun _ => (word.length, replacement)) t

/-- What follows the first occurrence of a word. -/
def afterFirst? (word : Text) : Text → Option Text
  | [] => literal? word []
  | c :: cs =>
    match literal? word (c :: cs) with
    | some rest => some rest
    | none => afterFirst? word cs

def contains (t word : Text) : Bool :=
  (afterFirst? word t).isSome

/-- The byte offset of the last occurrence of a word at or after `offset`, else `best`. -/
def lastOffsetFrom (word : Text) (offset : Nat) (best : Option Nat) : Text → Option Nat
  | [] => if word.isPrefixOf [] then some offset else best
  | c :: cs =>
    lastOffsetFrom word (offset + c.utf8Size)
      (if word.isPrefixOf (c :: cs) then some offset else best) cs

/-- The byte offset of the last occurrence of a word; the empty word occurs at the end. -/
def lastOffset? (t word : Text) : Option Nat :=
  lastOffsetFrom word 0 none t

/-- The byte offset of the first character that satisfies a predicate. -/
def offsetOf? (p : Char → Bool) : Text → Option Nat
  | [] => none
  | c :: cs => if p c then some 0 else (offsetOf? p cs).map (c.utf8Size + ·)

/-- The byte offset of the last character that satisfies a predicate. -/
def lastOffsetOf? (p : Char → Bool) : Text → Option Nat
  | [] => none
  | c :: cs =>
    match lastOffsetOf? p cs with
    | some n => some (c.utf8Size + n)
    | none => if p c then some 0 else none

end Text

end Cloak
