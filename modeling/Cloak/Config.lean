import Cloak.Snippet
import Cloak.Text.Word

namespace Cloak

inductive VerbatimKind where
  /-- Set as code in the language of the `lang` attribute. -/
  | code
  /-- Compiled as a TeX document. -/
  | tex
  /-- Escaped for HTML and kept. -/
  | escape
  /-- Kept as it is. -/
  | noop
deriving DecidableEq, Repr

def VerbatimKind.name : VerbatimKind → String
  | code => "code"
  | tex => "tex"
  | escape => "escape"
  | noop => "noop"

/-- The rules for the elements of one tag name. -/
structure VerbatimEnvironment where
  kind : VerbatimKind := .noop
  defaults : Attributes := []
deriving DecidableEq, Repr

namespace VerbatimEnvironment

/-- The attributes that elements of a kind have unless they say otherwise. -/
def ofKind (kind : VerbatimKind) : VerbatimEnvironment where
  kind := kind
  defaults :=
    match kind with
    | .code | .tex => [("inline".toList, .flag false)]
    | .escape => [("inline".toList, .flag true)]
    | .noop => []

def withAttribute (e : VerbatimEnvironment) (name : Text) (value : AttributeValue) :
    VerbatimEnvironment :=
  { e with defaults := Dict.insert name value e.defaults }

end VerbatimEnvironment

/-- When `$$…$$` is display math. -/
inductive DoubleDollarDisplay where
  | always
  /-- When the dollars open and close their lines. -/
  | newline
  /-- When, besides, the content starts and ends with a line ending. -/
  | fenced
deriving DecidableEq, Repr

def DoubleDollarDisplay.name : DoubleDollarDisplay → String
  | always => "always"
  | newline => "newline"
  | fenced => "fenced"

structure MathSettings where
  singleDollar : Bool := true
  escapedParentheses : Bool := true
  escapedSquareBrackets : Bool := true
  display : DoubleDollarDisplay := .fenced
deriving DecidableEq, Repr

/-- Whether braces may belong to a directive, and who decides. -/
structure DirectiveSettings where
  enabled : Bool := false
  /-- Decides in place of the built-in rule, from document, range and content of the braces. -/
  absorbing : Option (Text → Span → Text → Bool) := none

structure Config where
  verbatim : Dict VerbatimEnvironment := []
  math : MathSettings := {}
  directives : DirectiveSettings := {}

/-- The tag names of verbatim elements, in ascending order. -/
def Config.verbatimTags (c : Config) : List Text :=
  Dict.keys c.verbatim

namespace DirectiveSettings

def colons? (t : Text) : Option Text :=
  let n := (t.takeWhile (· == ':')).length
  if 1 ≤ n && n ≤ 3 then some (t.drop n) else none

/-- A label in square brackets that ends a line. -/
def isLabel : Text → Bool
  | '[' :: cs =>
    match cs.dropWhile (fun c => c != ']' && c != '\n') with
    | [']'] => true
    | _ => false
  | _ => false

/-- Colons, a name and at most a label. -/
def isDirective (t : Text) : Bool :=
  match colons? t with
  | some (c :: cs) =>
    let rest := cs.dropWhile fun c => isWordChar c || c == '-'
    c.isAlpha && (rest.isEmpty || isLabel rest)
  | _ => false

/-- Whether a line ends with a directive that neither a colon nor a word character precedes. `free`
tells that nothing of the kind precedes the given rest of the line. -/
def endsWithDirective (free : Bool) : Text → Bool
  | [] => false
  | c :: cs =>
    (free && isDirective (c :: cs)) || endsWithDirective (!(c == ':' || isWordChar c)) cs

/-- Whether the braces at a range stand directly after the name of a directive on their line. -/
def followsName (document : Text) (span : Span) : Bool :=
  match document.before? span.start with
  | some head => endsWithDirective true (head.reverse.takeWhile (· != '\n')).reverse
  | none => false

/-- Whether the braces at a range belong to a directive; never when directives are off. -/
def absorbs (d : DirectiveSettings) (document : Text) (span : Span) (inner : Text) : Bool :=
  d.enabled &&
    match d.absorbing with
    | some decide => decide document span inner
    | none => followsName document span

end DirectiveSettings

end Cloak
