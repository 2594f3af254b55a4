import Cloak.Markdown.Leaf

namespace Cloak.Markdown

/-- What is known of a document while its blocks are read. -/
structure Outline where
  /-- The containers that are open. -/
  spine : Spine := []
  /-- Whether the innermost item has had no content. -/
  emptyItem : Bool := false
  /-- Whether the last line was blank. -/
  blankBefore : Bool := false
  /-- The labels of link references. -/
  references : List Text := []
  /-- The labels of footnotes. -/
  footnotes : List Text := []
  /-- The leaves so far, in reverse. -/
  leaves : List Leaf := []

namespace Outline

def add (o : Outline) (leaves : List Leaf) : Outline :=
  { o with leaves := leaves.reverse ++ o.leaves }

def push (o : Outline) (c : Container) : Outline :=
  { o with spine := o.spine ++ [c] }

/-- Closes all but the `n` outermost containers. -/
def keep (o : Outline) (n : Nat) : Outline :=
  let closesTight := (o.spine.drop n).any fun c => c matches .list _ true
  { o with spine := o.spine.take n, emptyItem := o.emptyItem && !closesTight }

def pop (o : Outline) : Outline :=
  o.keep (o.spine.length - 1)

/-- Closes an item that had no content before a blank line. -/
def finishEmptyItem (o : Outline) : Outline :=
  let o :=
    match o.spine.getLast? with
    | some (.item _) => if o.emptyItem && o.blankBefore then o.pop else o
    | _ => o
  { o with emptyItem := false }

/-- Notes that a blank line stands in the item that is the innermost container. -/
def loosen (o : Outline) : Outline :=
  match o.spine.reverse with
  | c :: .list mark _ :: outer => { o with spine := (c :: .list mark false :: outer).reverse }
  | _ => o

/-- Closes a list that is the innermost container, which no item of it is left to be. -/
def finishList (o : Outline) : Outline :=
  let o := o.finishEmptyItem
  let o :=
    match o.spine.getLast? with
    | some (.list ..) => o.pop
    | _ => o
  if o.blankBefore then { o.loosen with blankBefore := false } else o

/-- Goes on with the innermost container if it is a list of such items, or opens one. -/
def continueList (o : Outline) (mark : Char) : Outline :=
  let o := o.finishEmptyItem
  let tight? :=
    match o.spine.getLast? with
    | some (.list other tight) => if other = mark then some tight else none
    | _ => none
  match tight? with
  | some tight =>
    let list := Container.list mark (tight && !o.blankBefore)
    { o with spine := o.spine.dropLast ++ [list], blankBefore := false }
  | none =>
    let o := if o.spine.isEmpty then o else o.finishList
    { o.push (.list mark true) with blankBefore := false }

def blankLine (o : Outline) : Outline :=
  match o.spine.getLast? with
  | some .quote => o
  | some (.item _) =>
    if o.emptyItem then
      { o with spine := o.spine.dropLast ++ [.item 0], blankBefore := true }
    else { o with blankBefore := true }
  | _ => { o with blankBefore := true }

end Outline

def alerts : List Text :=
  ["[!note]", "[!tip]", "[!important]", "[!warning]", "[!caution]"].map String.toList

/-- The place after the line that marks a quote as an alert. -/
def alert? (m : Margin) : Option Cursor :=
  alerts.findSome? fun mark =>
    match Text.literal? mark (Html.lower (m.rest.take mark.length)) with
    | some _ =>
      (blankLine? (m.rest.drop mark.length)).map fun n => m.cursor.skip (mark.length + n)
    | none => none

/-- Where the containers of a line end: the line goes on with a leaf, or is done. -/
inductive Opened where
  | leaf (m : Margin)
  | done (c : Cursor)

def openContainers : Nat → Outline → Margin → Outline × Opened
  | 0, o, m => (o, .leaf m)
  | fuel + 1, o, m =>
    let (indent, inside) := m.indentUpTo 4
    if 4 ≤ indent then (o, .leaf m)
    else
      match footnoteLabel? inside.rest with
      | some (label, rest) =>
        let o := o.finishList
        let o := if o.spine.getLast? = some .footnote then o.pop else o
        let o := { o.push .footnote with footnotes := label :: o.footnotes }
        openContainers fuel o ⟨inside.cursor.moveTo (dropGap rest), 0, 0⟩
      | none =>
        match listMarker? indent inside with
        | some (marker, after) =>
          let o := (o.continueList marker.mark).push (.item marker.width)
          match blankLine? after.rest with
          | some n => ({ o with emptyItem := true }, .done (after.cursor.skip n))
          | none => openContainers fuel o after
        | none =>
          match inside.quoteMarker? with
          | some after =>
            let o := o.finishList.push .quote
            match alert? after with
            | some next =>
              let (insideAll, m) := o.spine.enter next
              let (deep, m) := m.indent 4
              if !deep && interrupts o.spine insideAll m.rest then (o, .done next)
              else (o, .leaf m.skipIndent)
            | none => openContainers fuel o after
          | none => (o, .leaf m)

/-- Reads definitions of link references, and the paragraph after them. -/
def definitionsFrom : Nat → Outline → Cursor → Outline × Cursor
  | 0, o, c => (o, c)
  | fuel + 1, o, c =>
    match Definition.reference? o.spine c.rest with
    | some (label, rest) =>
      let o := { o with references := label :: o.references }
      let next := (c.moveTo rest).skipBlankLine
      let (insideAll, m) := o.spine.enter next
      let (deep, m) := m.indent 4
      if !deep && interrupts o.spine insideAll m.rest then (o, next)
      else definitionsFrom fuel o m.skipIndent.cursor
    | none =>
      let (leaves, next) := paragraph o.spine c
      (o.add leaves, next)

/-- Reads a leaf at a place where its line goes on. -/
def readLeaf (o : Outline) (m : Margin) : Outline × Cursor :=
  match blankLine? m.rest with
  | some n => (o.blankLine, m.cursor.skip n)
  | none =>
    let (indent, m) := m.indentUpTo 4
    let c := m.cursor
    let o := o.finishList
    let one := fun (read : Leaf × Cursor) => (o.add [read.1], read.2)
    if indent = 4 then
      let (leaf, blank, after) := indentedCode o.spine c
      ({ o.add [leaf] with blankBefore := blank }, after)
    else
      match if indent = 0 then metadata? c.rest else none with
      | some mark => one (metadataBlock o.spine mark c)
      | none =>
        match htmlBlock? o.spine c with
        | some read => one read
        | none =>
          match breakLine? c.rest with
          | some n => (o, c.skip n)
          | none =>
            match heading? c.rest with
            | some level =>
              let (leaves, after) := headingLine o.spine level c
              (o.add leaves, after)
            | none =>
              match fence? c.rest with
              | some (mark, length) => one (fencedCode o.spine indent mark length c)
              | none => definitionsFrom (c.rest.length + 1) o c

def readBlock (o : Outline) (c : Cursor) : Outline × Cursor :=
  let (n, m) := Container.follow o.spine ⟨c, 0, 0⟩
  match openContainers (c.rest.length + 1) (o.keep n) m with
  | (o, .done next) => (o, next)
  | (o, .leaf m) => readLeaf o m

def readBlocks : Nat → Outline → Cursor → Outline
  | 0, o, _ => o
  | fuel + 1, o, c =>
    if c.atEnd then o
    else
      let (o, next) := readBlock o c
      readBlocks fuel o next

def outline (document : Text) : Outline :=
  readBlocks (document.length + 1) {} ⟨0, document⟩

end Cloak.Markdown
