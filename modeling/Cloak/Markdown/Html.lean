import Cloak.Markdown.Chars

namespace Cloak.Markdown

/-- What stands after the start of a line that continues a block; no text if no line may
continue. -/
abbrev LineBreak := Option (Text → Text)

namespace Html

/-- Drops white space and line endings; `none` where a line may not end. Each step drops a
character, so the length of the text is fuel enough. -/
def skipSpace (onBreak : LineBreak) : Nat → Text → Option Text
  | 0, _ => none
  | fuel + 1, t =>
    match t with
    | [] => some []
    | c :: cs =>
      if !isSpace c then some t
      else
        match lineEnd? t with
        | some n => onBreak.bind fun next => skipSpace onBreak fuel (next (t.drop n))
        | none => skipSpace onBreak fuel cs

def isAttributeChar (c : Char) : Bool :=
  c.isAlphanum || c == '_' || c == '.' || c == ':' || c == '-'

def attributeName? : Text → Option Text
  | c :: cs =>
    if c.isAlpha || c == '_' || c == ':' then some (cs.dropWhile isAttributeChar) else none
  | [] => none

def isBareValueChar (c : Char) : Bool :=
  !(c == '\'' || c == '"' || c == ' ' || c == '=' || c == '>' || c == '<' || c == '`' ||
    c == '\n' || c == '\r')

def quotedValue? (onBreak : LineBreak) (quote : Char) : Nat → Text → Option Text
  | 0, _ => none
  | fuel + 1, t =>
    match t with
    | [] => none
    | c :: cs =>
      if c = quote then some cs
      else
        match lineEnd? t with
        | some n => onBreak.bind fun next => quotedValue? onBreak quote fuel (next (t.drop n))
        | none => quotedValue? onBreak quote fuel cs

def attributeValue? (onBreak : LineBreak) (t : Text) : Option Text :=
  match t with
  | [] => none
  | c :: cs =>
    if c = '"' || c = '\'' then quotedValue? onBreak c (t.length + 1) cs
    else if isBareValueChar c then some (cs.dropWhile isBareValueChar)
    else none

/-- Drops an attribute: a name, and a value after an equals sign. -/
def attribute? (onBreak : LineBreak) (t : Text) : Option Text := do
  let named ← attributeName? t
  let spaced ← skipSpace onBreak (named.length + 1) named
  match spaced with
  | '=' :: cs => attributeValue? onBreak (← skipSpace onBreak (cs.length + 1) cs)
  | _ => some named

/-- Drops white space inside a tag; `none` at the end of the text or where a line may not end. -/
def insideSpace (onBreak : LineBreak) : Nat → Text → Option Text
  | 0, _ => none
  | fuel + 1, t =>
    let t := dropGap t
    match lineEnd? t with
    | some 0 => none
    | some n => onBreak.bind fun next => insideSpace onBreak fuel (next (t.drop n))
    | none => some t

/-- Drops attributes, each after white space, up to a slash or the end of the tag. -/
def attributes? (onBreak : LineBreak) : Nat → Text → Option Text
  | 0, _ => none
  | fuel + 1, t => do
    let spaced ← insideSpace onBreak (t.length + 1) t
    match spaced with
    | '/' :: _ | '>' :: _ => some spaced
    | _ =>
      if spaced.length = t.length then none
      else attributes? onBreak fuel (← attribute? onBreak spaced)

def isTagChar (c : Char) : Bool :=
  c.isAlphanum || c == '-'

def close? : Text → Option Text
  | '>' :: cs => some cs
  | _ => none

def tag? (onBreak : LineBreak) (t : Text) : Option Text :=
  match t with
  | '/' :: c :: cs => if c.isAlpha then close? (dropGap (cs.dropWhile isTagChar)) else none
  | c :: cs =>
    if c.isAlpha then do
      let rest := cs.dropWhile isTagChar
      let rest ← attributes? onBreak (rest.length + 1) rest
      match dropGap rest with
      | '/' :: rest => close? rest
      | rest => close? rest
    else none
  | [] => none

/-- What follows the comment, declaration, CDATA section, processing instruction or tag after the
`<` at the head of a text. -/
def inline? (onBreak : LineBreak) (t : Text) : Option Text :=
  match t with
  | '!' :: '-' :: '-' :: cs => Text.afterFirst? "-->".toList ('-' :: '-' :: cs)
  | '!' :: '[' :: cs => do
    Text.afterFirst? "]]>".toList (← Text.literal? "CDATA[".toList cs)
  | '!' :: c :: cs => if c.isAlpha then Text.afterFirst? ['>'] cs else none
  | '?' :: cs => Text.afterFirst? "?>".toList cs
  | _ => tag? onBreak t

def lower (t : Text) : Text :=
  t.map Char.toLower

/-- Elements whose start tag starts a block that lasts to their end tag. -/
def rawElements : List Text :=
  ["pre", "style", "script", "textarea"].map String.toList

/-- Elements whose tags start a block that lasts to a blank line. -/
def blockElements : List Text :=
  ["address", "article", "aside", "base", "basefont", "blockquote", "body", "caption", "center",
    "col", "colgroup", "dd", "details", "dialog", "dir", "div", "dl", "dt", "fieldset",
    "figcaption", "figure", "footer", "form", "frame", "frameset", "h1", "h2", "h3", "h4", "h5",
    "h6", "head", "header", "hr", "html", "iframe", "legend", "li", "link", "main", "menu",
    "menuitem", "nav", "noframes", "ol", "optgroup", "option", "p", "param", "search", "section",
    "summary", "table", "tbody", "td", "tfoot", "th", "thead", "title", "tr", "track",
    "ul"].map String.toList

/-- The end tag of the raw element that starts after the `<` at the head of a text. -/
def rawEnd? (t : Text) : Option Text :=
  rawElements.findSome? fun name =>
    match Text.literal? name (lower (t.take name.length)) with
    | none => none
    | some _ =>
      let ends :=
        match t.drop name.length with
        | [] => true
        | c :: _ => isSpace c || c == '>'
      if ends then some ('<' :: '/' :: name ++ ['>']) else none

/-- What ends the block that starts after the `<` at the head of a text and lasts to a fixed
text. -/
def blockEnd? (t : Text) : Option Text :=
  match rawEnd? t with
  | some close => some close
  | none =>
    match t with
    | '!' :: '-' :: '-' :: _ => some "-->".toList
    | '?' :: _ => some "?>".toList
    | '!' :: c :: _ =>
      if (Text.literal? "![CDATA[".toList t).isSome then some "]]>".toList
      else if c.isAlpha then some ">".toList
      else none
    | _ => none

/-- Whether the tag of a block element starts after the `<` at the head of a text. -/
def startsBlockElement (t : Text) : Bool :=
  let t :=
    match t with
    | '/' :: cs => cs
    | cs => cs
  let name := t.takeWhile Char.isAlphanum
  let ends :=
    match t.drop name.length with
    | [] => true
    | '/' :: '>' :: _ => true
    | c :: _ => c == ' ' || c == '\t' || c == '\r' || c == '\n' || c == '>'
  ends && blockElements.contains (lower name)

/-- Whether a whole tag of any element, alone on its line, starts after the `<` at the head of a
text. -/
def isLoneTag (t : Text) : Bool :=
  match tag? none t with
  | some rest => (blankLine? rest).isSome
  | none => false

end Html

end Cloak.Markdown
