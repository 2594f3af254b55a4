import Cloak.Config
import Cloak.Node
import Cloak.Pad.Block

namespace Cloak

/-- The words after `#` or `/` that make braces a control tag. -/
def blockWords : List Text :=
  ["if", "each", "await", "key"].map String.toList

/-- The words after `:` that make braces a control tag. -/
def branchWords : List Text :=
  ["else", "then", "catch"].map String.toList

def startsWithAny (words : List Text) (t : Text) : Bool :=
  words.any fun word => word.isPrefixOf t

/-- Whether the content of braces is a control tag, such as `#if ready` or `@const x = 1`. The tag
`@html` puts out text and is none. -/
def isControlTag (inner : Text) : Bool :=
  match inner.dropWhile isBlank with
  | '#' :: rest => startsWithAny blockWords rest
  | '/' :: rest => startsWithAny blockWords rest
  | ':' :: rest => startsWithAny branchWords rest
  | '@' :: rest => !"html".toList.isPrefixOf rest
  | _ => false

/-- Whether a range is all but white space of the lines it is on. -/
def ownsLines (document : Text) (span : Span) : Bool :=
  (document.lineBefore span.start).trim.isEmpty && (document.lineAfter span.stop).trim.isEmpty

def isFenced (value : Text) : Bool :=
  ("\n".toList.isPrefixOf value || "\r\n".toList.isPrefixOf value) &&
    "\n".toList.isSuffixOf value

def DoubleDollarDisplay.accepts (rule : DoubleDollarDisplay) (document : Text) (span : Span)
    (value : Text) : Bool :=
  match rule with
  | always => true
  | newline => ownsLines document span
  | fenced => ownsLines document span && isFenced value

namespace Snippet

/-- Math with its content, two lines away from its surroundings if it is display math. -/
def ofMath (document : Text) (span : Span) (display : Bool) (value : Text) : Snippet :=
  forBackend .math document span value.trimOne (.math (!display))
    (.both (.newlines (if display then 2 else 0))) display

/-- The snippet of braces: none if a directive absorbs them. -/
def ofExpression? (document : Text) (directives : DirectiveSettings) (span : Span)
    (inner : Text) : Option Snippet :=
  if isControlTag inner then
    some (passthrough .svelte document span (some (logicPadding document span)) true)
  else if directives.absorbs document span inner then none
  else some (passthrough .mustacheTag document span (some .none) false)

def ofNode? (document : Text) (config : Config) (n : Node) : Option Snippet :=
  match n.kind with
  | .inlineCode =>
    some (forBackend .code document n.span n.value (.code { inline := true }) .none false)
  | .code lang info =>
    some (forBackend .code document n.span n.value (.code ⟨false, lang, info⟩)
      (blockPadding document n.span) true)
  | .math doubleDollar =>
    if !doubleDollar && !config.math.singleDollar then none
    else
      some (ofMath document n.span
        (doubleDollar && config.math.display.accepts document n.span n.value) n.value)
  | .expression => ofExpression? document config.directives n.span n.value
  | .frontmatter kind =>
    some (forBackend .frontmatter document n.span n.value (.frontmatter kind)
      (blockPadding document n.span) true)
  | .html => none

def ofNodes (document : Text) (config : Config) (nodes : List Node) : List Snippet :=
  nodes.filterMap (ofNode? document config)

end Snippet

end Cloak
