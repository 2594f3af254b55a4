import Cloak.Escape
import Cloak.Text.Search

namespace Cloak

structure Processed where
  text : Text
  dropParagraph : Bool
deriving DecidableEq, Repr

/-- Processed snippets by their names; of two with one name the later counts. -/
abbrev Processed.Names := List (SnippetId × Processed)

namespace Restore

def idLength : Nat :=
  32

def isHexDigit (c : Char) : Bool :=
  ('0' ≤ c && c ≤ '9') || ('a' ≤ c && c ≤ 'f')

def lookup? (names : Processed.Names) (id : Text) : Option Processed :=
  (names.reverse.find? fun entry => entry.1 == id).map Prod.snd

/-- Reads digits that are long enough to hold a name. -/
def run? (t : Text) : Option (Text × Text) :=
  let run := t.takeWhile isHexDigit
  if idLength ≤ run.length then some (run, t.drop run.length) else none

/-- Puts texts in the place of the known names in a run of digits, the leftmost first. -/
def replaceNames (names : Processed.Names) (run : Text) : Text :=
  run.replaceAll fun t =>
    if idLength ≤ t.length then
      (lookup? names (t.take idLength)).map fun p => (idLength, p.text)
    else none

/-- Reads a paragraph that holds a run and white space alone: what stands before the run, the run,
what stands after it, and the rest. -/
def paragraph? (t : Text) : Option (Text × Text × Text × Text) := do
  let start ← Text.literal? "<p>".toList t
  let (run, rest) ← run? (start.dropWhile isBlank)
  let rest' ← Text.literal? "</p>".toList (rest.dropWhile isBlank)
  let head := t.take (t.length - run.length - rest.length)
  return (head, run, rest.take (rest.length - rest'.length), rest')

/-- Reads a paragraph or a bare run, and gives what takes its place. A paragraph around exactly one
known name goes with the name if the snippet asks for that. -/
def replacement? (names : Processed.Names) (t : Text) : Option (Nat × Text) :=
  match paragraph? t with
  | some (head, run, tail, rest) =>
    let length := t.length - rest.length
    match lookup? names run with
    | some p =>
      if p.dropParagraph then some (length, p.text)
      else some (length, head ++ replaceNames names run ++ tail)
    | none => some (length, head ++ replaceNames names run ++ tail)
  | none => (run? t).map fun (run, _) => (run.length, replaceNames names run)

end Restore

def restoreSnippets (document : Text) (names : Processed.Names) : Text :=
  if names.isEmpty then document else document.replaceAll (Restore.replacement? names)

/-- The document with processed snippets in the place of their names, and with its colons. -/
def restore (document : Text) (names : Processed.Names) : Text :=
  Colon.unescape (restoreSnippets document names)

end Cloak
