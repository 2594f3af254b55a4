import Cloak.Decimal.Read
import Cloak.Decimal.Shortest
import Cloak.Dict
import Cloak.Text.Blank
import Cloak.Text.Search

namespace Cloak

inductive AttributeValue where
  | flag (value : Bool)
  | number (value : Binary)
  | text (value : Text)
deriving DecidableEq, Repr

namespace AttributeValue

/-- Only the flag `true`, not a text that says so. -/
def isTrue : AttributeValue → Bool
  | flag b => b
  | _ => false

def toText : AttributeValue → Text
  | flag b => if b then "true".toList else "false".toList
  | number x => x.toText
  | text t => t

/-- The value that the text of an attribute stands for: a flag, a finite number, or the text. -/
def ofText (raw : Text) : AttributeValue :=
  if raw = "true".toList then flag true
  else if raw = "false".toList then flag false
  else
    match (Numeral.read? raw).bind Numeral.toBinary? with
    | some x => number x
    | none => text raw

end AttributeValue

abbrev Attributes := Dict AttributeValue

namespace Attributes

def isNameChar (c : Char) : Bool :=
  !(isBlank c || c == '=' || c == '/' || c == '>' || c == '"' || c == '\'' || c == '{' || c == '}')

def isBareChar (c : Char) : Bool :=
  !(isBlank c || c == '"' || c == '\'' || c == '=' || c == '<' || c == '>' || c == '`')

/-- Reads up to a closing character and drops it. -/
def upTo? (close : Char) : Text → Option (Text × Text)
  | [] => none
  | c :: cs =>
    if c = close then some ([], cs)
    else (upTo? close cs).map fun parts => (c :: parts.1, parts.2)

def bare? (t : Text) : Option (Text × Text) :=
  let value := t.takeWhile isBareChar
  if value.isEmpty then none else some (value, t.dropWhile isBareChar)

/-- Reads a value: in double or single quotes, in braces, or bare. A brace that is never closed
starts a bare value. -/
def value? : Text → Option (Text × Text)
  | '"' :: cs => upTo? '"' cs
  | '\'' :: cs => upTo? '\'' cs
  | '{' :: cs =>
    match upTo? '}' cs with
    | some parts => some parts
    | none => bare? ('{' :: cs)
  | cs => bare? cs

def assigned? (t : Text) : Option (Text × Text) :=
  match t.dropWhile isBlank with
  | '=' :: cs => value? (cs.dropWhile isBlank)
  | _ => none

/-- Reads a name, with its value or standing alone for `true`. -/
def entry? (t : Text) : Option (Nat × (Text × AttributeValue)) :=
  let name := t.takeWhile isNameChar
  let rest := t.dropWhile isNameChar
  if name.isEmpty then none
  else
    match assigned? rest with
    | some (raw, rest) => some (t.length - rest.length, (name, .ofText raw))
    | none => some (name.length, (name, .flag true))

/-- A name that is left over from a spread such as `...rest`. -/
def isSpread (name : Text) : Bool :=
  "...".toList.isPrefixOf name

/-- The attributes written in the text between the name and the end of an opening tag. -/
def ofText (t : Text) : Attributes :=
  Dict.ofList <|
    ((t.allMatches entry?).map Found.value).filter fun entry => !isSpread entry.1

end Attributes

end Cloak
