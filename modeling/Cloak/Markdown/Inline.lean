import Cloak.Markdown.Block

namespace Cloak.Markdown

/-- What inline content may hold that matters: code, math and HTML. -/
inductive InlineKind where
  | code
  | math (display : Bool)
  | html
deriving DecidableEq, Repr

/-- An opening bracket that a link may start with. -/
structure Opening where
  image : Bool
  /-- Brackets around a link are no link. -/
  active : Bool := true
  stop : Nat
  rest : Text
  /-- The number of pieces found before it. -/
  found : Nat

structure InlineState where
  /-- Marks that end up to here belong to what was found. -/
  reached : Nat := 0
  openings : List Opening := []
  /-- The starts of closing brackets that end the label of a reference that was none. -/
  spent : List Nat := []
  /-- What was found, in reverse. -/
  found : List (InlineKind × Span) := []

/-- What inline content is read with: its containers, its end, and the definitions of the
document. -/
structure InlineContext where
  spine : Spine
  stop : Nat
  references : List Text
  footnotes : List Text

namespace InlineContext

def after (x : InlineContext) (m : Mark) : Text :=
  (Text.before? m.rest (x.stop - m.stop)).getD m.rest

def offsetOf (x : InlineContext) (rest : Text) : Nat :=
  x.stop - Text.size rest

def skipLength (x : InlineContext) (t : Text) : Nat :=
  x.spine.skipLength t

def isReference (x : InlineContext) (label : Text) : Bool :=
  x.references.any (Link.sameLabel label)

def isFootnote (x : InlineContext) (label : Text) : Bool :=
  x.footnotes.any (Link.sameLabel label)

end InlineContext

/-- The run of backticks that closes code of some backticks. -/
def codeCloser? (count : Nat) (ms : List Mark) : Option Mark :=
  ms.find? fun m =>
    match m.kind with
    | .ticks n _ => n == count
    | _ => false

def dollarAt? (offset : Nat) : List Mark → Option Mark
  | m :: _ =>
    if m.kind matches .dollar .. then if m.start = offset then some m else none else none
  | [] => none

/-- The first dollar in some braces, and what follows it. -/
def firstDollar? (group : Nat) : List Mark → Option (Mark × List Mark)
  | [] => none
  | m :: ms =>
    match m.kind with
    | .dollar _ _ g => if g = group then some (m, ms) else firstDollar? group ms
    | _ => firstDollar? group ms

/-- The math that a dollar opens: display math between two pairs of dollars, or inline math. The
next dollar in the same braces must close it. -/
def math? (m : Mark) (group : Nat) (ms : List Mark) : Option (Bool × Span) :=
  match dollarAt? m.stop ms with
  | some _ =>
    match firstDollar? group (ms.drop 1) with
    | some (d, rest) =>
      (dollarAt? d.stop rest).map fun last => (true, ⟨m.start, last.stop⟩)
    | none => none
  | none =>
    match firstDollar? group ms with
    | some (d, _) =>
      match d.kind with
      | .dollar _ closes _ => if closes then some (false, ⟨m.start, d.stop⟩) else none
      | _ => none
    | none => none

/-- A label in brackets: of a footnote, or of a link reference. -/
inductive Label where
  | footnote (label : Text)
  | link (label : Text)

def InlineContext.label? (x : InlineContext) (t : Text) : Option (Label × Text) :=
  let asLink := (Link.label? (fun s => some (x.skipLength s)) t).map fun r => (Label.link r.1, r.2)
  match t with
  | '^' :: cs =>
    if cs.head? = some ']' then asLink
    else
      match Link.label? (fun _ => none) cs with
      | some (label, rest) => some (.footnote label, rest)
      | none => asLink
  | _ => asLink

/-- What stands after a closing bracket that no destination follows. -/
inductive ReferenceForm where
  /-- A label of a reference, with its end. -/
  | full (label : Text) (stop : Nat)
  /-- Two brackets without a label, with their end. -/
  | collapsed (stop : Nat)
  | shortcut

def InlineContext.referenceForm (x : InlineContext) (m : Mark) : ReferenceForm :=
  match x.after m with
  | '[' :: ']' :: _ => .collapsed (m.stop + 2)
  | '[' :: cs =>
    match x.label? cs with
    | some (.link label, rest) => .full label (x.offsetOf rest)
    | _ => .shortcut
  | _ => .shortcut

namespace InlineState

def add (s : InlineState) (kind : InlineKind) (span : Span) : InlineState :=
  { s with found := (kind, span) :: s.found, reached := span.stop }

/-- Makes a link that ends at an offset; no brackets around it are a link any more. -/
def link (s : InlineState) (o : Opening) (stop : Nat) : InlineState :=
  let openings :=
    if o.image then s.openings
    else s.openings.map fun p => if p.image then p else { p with active := false }
  { s with openings := openings, reached := stop }

/-- After a `<`: an address or HTML may follow. -/
def angle (s : InlineState) (x : InlineContext) (m : Mark) : InlineState :=
  let t := x.after m
  match Link.auto? t with
  | some rest => { s with reached := x.offsetOf rest }
  | none =>
    match Html.inline? (some fun below => below.drop (x.skipLength below)) t with
    | some rest => s.add .html ⟨m.start, x.offsetOf rest⟩
    | none => s

/-- After brackets that no destination follows: a footnote, whose text is dropped, or a reference.
`stop` is the end of the reference. -/
def labelled (s : InlineState) (x : InlineContext) (o : Opening) (m : Mark) (label : Option Label)
    (stop : Nat) : InlineState :=
  match label with
  | some (.footnote name) =>
    if x.isFootnote name then
      { s with
        found := s.found.drop (s.found.length - o.found)
        openings := []
        reached := m.stop }
    else s
  | some (.link name) => if x.isReference name then s.link o stop else s
  | none => s

/-- The label between the brackets themselves. -/
def ownLabel? (x : InlineContext) (o : Opening) (m : Mark) : Option Label :=
  match (Text.before? o.rest (m.stop - o.stop)).bind x.label? with
  | some (label, []) => some label
  | _ => none

def close (s : InlineState) (x : InlineContext) (m : Mark) (mayRefer : Bool) : InlineState :=
  match s.openings with
  | [] => s
  | o :: openings =>
    let s := { s with openings := openings }
    if !o.image && !o.active then s
    else
      match Link.target? x.skipLength (x.after m) with
      | some rest => s.link o (x.offsetOf rest)
      | none =>
        match x.referenceForm m with
        | .full label stop =>
          { s with spent := (stop - 1) :: s.spent }.labelled x o m (some (.link label)) stop
        | .collapsed stop =>
          if mayRefer then s.labelled x o m (ownLabel? x o m) stop else s
        | .shortcut =>
          if mayRefer then s.labelled x o m (ownLabel? x o m) m.stop else s

/-- After a mark that belongs to nothing found before; the marks after it may close it. -/
def step (s : InlineState) (x : InlineContext) (m : Mark) (ms : List Mark) : InlineState :=
  match m.kind with
  | .ticks count escaped =>
    let hidden := if escaped then 1 else 0
    if count = hidden then s
    else
      match codeCloser? (count - hidden) ms with
      | some closer => s.add .code ⟨m.start + hidden, closer.stop⟩
      | none => s
  | .dollar opens _ group =>
    match if opens then math? m group ms else none with
    | some (display, span) => s.add (.math display) span
    | none => s
  | .angle => s.angle x m
  | .bracket image =>
    { s with openings := ⟨image, true, m.stop, m.rest, s.found.length⟩ :: s.openings }
  | .close reference => s.close x m (reference && !s.spent.contains m.start)

end InlineState

def readMarks (x : InlineContext) : InlineState → List Mark → InlineState
  | s, [] => s
  | s, m :: ms => readMarks x (if m.stop ≤ s.reached then s else s.step x m ms) ms

/-- The code, math and HTML in inline content, in the order of their starts. -/
def inlinePieces (o : Outline) (p : Prose) : List (InlineKind × Span) :=
  let x : InlineContext := ⟨p.spine, p.stop, o.references, o.footnotes⟩
  (readMarks x {} p.marks).found.reverse

end Cloak.Markdown
