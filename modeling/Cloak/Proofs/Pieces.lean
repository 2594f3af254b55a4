import Cloak.Node.Markdown

namespace Cloak

structure MarkdownBlock where
  kind : BlockKind
  span : Span
  texts : List Span
deriving DecidableEq, Repr

/-- What one node is read from. -/
inductive MarkdownPiece where
  | block (b : MarkdownBlock)
  | code (s : Span)
  | math (display : Bool) (s : Span)
  | html (s : Span)
deriving DecidableEq, Repr

namespace MarkdownBlock

def add (b : MarkdownBlock) (s : Span) : MarkdownBlock :=
  { b with texts := b.texts ++ [s] }

def opened (document : Text) (b : MarkdownBlock) : OpenBlock :=
  { OpenBlock.opened document b.kind b.span with texts := b.texts }

theorem opened_add (document : Text) (b : MarkdownBlock) (s : Span) :
    (b.add s).opened document = (b.opened document).add s := rfl

theorem opened_start (document : Text) (kind : BlockKind) (s : Span) :
    opened document ⟨kind, s, []⟩ = OpenBlock.opened document kind s := by
  cases kind with
  | code info =>
    cases info with
    | none => rfl
    | some info => rfl
  | metadata dashes => rfl

theorem kind_close (document : Text) (b : MarkdownBlock) :
    (∃ lang info, ((b.opened document).close document).kind = .code lang info) ∨
      ∃ kind, ((b.opened document).close document).kind = .frontmatter kind := by
  change (∃ lang info, NodeKind.ofValue (OpenBlock.opened document b.kind b.span).kind _ = _) ∨
    ∃ kind, NodeKind.ofValue (OpenBlock.opened document b.kind b.span).kind _ = _
  rw [NodeKind.ofValue]
  split
  · exact .inr ⟨_, rfl⟩
  · cases b.kind with
    | code info => cases info <;> exact .inl ⟨_, _, rfl⟩
    | metadata dashes => exact .inr ⟨_, rfl⟩

end MarkdownBlock

namespace MarkdownPiece

def head : MarkdownPiece → MarkdownEvent
  | block b => ⟨.blockStart b.kind, b.span⟩
  | code s => ⟨.code, s⟩
  | math display s => ⟨.math display, s⟩
  | html s => ⟨.html, s⟩

def texts : MarkdownPiece → List Span
  | block b => b.texts
  | code _ | math _ _ | html _ => []

def node (document : Text) : MarkdownPiece → Node
  | block b => (b.opened document).close document
  | code s => ⟨.inlineCode, s, codeSpanValue (s.text document)⟩
  | math display s => mathNode document display s
  | html s => ⟨.html, s, []⟩

end MarkdownPiece

/-- Events put together to what one node each is read from, while a block is open or none is. -/
def piecesFrom : Option MarkdownBlock → List MarkdownEvent → List MarkdownPiece
  | _, [] => []
  | block?, e :: es =>
    match e.kind with
    | .blockStart kind => piecesFrom (some ⟨kind, e.span, []⟩) es
    | .text => piecesFrom (block?.map fun b => b.add e.span) es
    | .blockEnd => (block?.map .block).toList ++ piecesFrom none es
    | .code => .code e.span :: piecesFrom block? es
    | .math display => .math display e.span :: piecesFrom block? es
    | .html => .html e.span :: piecesFrom block? es
    | .other => piecesFrom block? es

def pieces (events : List MarkdownEvent) : List MarkdownPiece :=
  piecesFrom none events

theorem nodesFrom_eq_map (document : Text) (block? : Option MarkdownBlock)
    (es : List MarkdownEvent) :
    nodesFrom document (block?.map (MarkdownBlock.opened document)) es =
      (piecesFrom block? es).map (MarkdownPiece.node document) := by
  induction es generalizing block? with
  | nil => rfl
  | cons e es ih =>
    obtain ⟨kind, s⟩ := e
    cases kind with
    | blockStart kind =>
      have hstart := ih (some ⟨kind, s, []⟩)
      rw [Option.map_some, MarkdownBlock.opened_start] at hstart
      exact hstart
    | text =>
      have htext := ih (block?.map fun b => b.add s)
      rw [Option.map_map] at htext
      rw [piecesFrom, ← htext, nodesFrom, Option.map_map]
      rfl
    | blockEnd =>
      rw [nodesFrom, piecesFrom, List.map_append, ← ih none]
      cases block? with
      | none => rfl
      | some b => rfl
    | code => exact congrArg _ (ih block?)
    | math display => exact congrArg _ (ih block?)
    | html => exact congrArg _ (ih block?)
    | other => exact ih block?

/-- The nodes of Markdown are those of its pieces, one of each. -/
theorem markdownNodes_eq_map (document : Text) (es : List MarkdownEvent) :
    markdownNodes document es = (pieces es).map (MarkdownPiece.node document) :=
  nodesFrom_eq_map document none es

theorem piecesFrom_texts_append (b : MarkdownBlock) (texts : List Span) (es : List MarkdownEvent) :
    piecesFrom (some b) ((texts.map fun s => ⟨.text, s⟩) ++ es) =
      piecesFrom (some { b with texts := b.texts ++ texts }) es := by
  induction texts generalizing b with
  | nil => rw [List.append_nil, List.map_nil, List.nil_append]
  | cons s texts ih =>
    have hadd := ih (b.add s)
    rw [MarkdownBlock.add, List.append_assoc] at hadd
    exact hadd

theorem pieces_blockEvents_append (kind : BlockKind) (span : Span) (texts : List Span)
    (es : List MarkdownEvent) :
    pieces (Markdown.blockEvents kind span texts ++ es) =
      .block ⟨kind, span, texts⟩ :: pieces es := by
  change piecesFrom (some ⟨kind, span, []⟩) ((texts.map fun s => ⟨.text, s⟩) ++ _ ++ es) = _
  rw [List.append_assoc, piecesFrom_texts_append]
  rfl

/-- A piece starts with an event of a list and has its texts from there. -/
def MarkdownPiece.IsFrom (es : List MarkdownEvent) (p : MarkdownPiece) : Prop :=
  p.head ∈ es ∧ ∀ s ∈ p.texts, ⟨.text, s⟩ ∈ es

theorem isFrom_of_mem_piecesFrom {all es : List MarkdownEvent} (hes : ∀ e ∈ es, e ∈ all)
    {block? : Option MarkdownBlock} (hopen : ∀ b ∈ block?, (MarkdownPiece.block b).IsFrom all)
    {p : MarkdownPiece} (h : p ∈ piecesFrom block? es) : p.IsFrom all := by
  induction es generalizing block? with
  | nil => cases h
  | cons e es ih =>
    obtain ⟨he, hrest⟩ := List.forall_mem_cons.1 hes
    have single {q : MarkdownPiece} (hq : q.head = e) (hnone : q.texts = [])
        (h : p ∈ q :: piecesFrom block? es) : p.IsFrom all := by
      rcases List.mem_cons.1 h with rfl | h
      · refine ⟨hq ▸ he, ?_⟩
        rw [hnone]
        exact List.forall_mem_nil _
      · exact ih hrest hopen h
    obtain ⟨kind, s⟩ := e
    cases kind with
    | blockStart kind =>
      apply ih hrest _ h
      rintro b ⟨⟩
      exact ⟨he, List.forall_mem_nil _⟩
    | text =>
      apply ih hrest _ h
      intro b hb
      obtain ⟨b', hb', rfl⟩ := Option.map_eq_some_iff.1 hb
      obtain ⟨hhead, htexts⟩ := hopen b' hb'
      exact ⟨hhead, List.forall_mem_append.2 ⟨htexts, List.forall_mem_singleton.2 he⟩⟩
    | blockEnd =>
      rcases List.mem_append.1 h with h | h
      · obtain ⟨b, hb, rfl⟩ := Option.map_eq_some_iff.1 (Option.mem_toList.1 h)
        exact hopen b hb
      · exact ih hrest (fun _ hb => (Option.not_mem_none _ hb).elim) h
    | code => exact single rfl rfl h
    | math display => exact single rfl rfl h
    | html => exact single rfl rfl h
    | other => exact ih hrest hopen h

theorem isFrom_of_mem_pieces {es : List MarkdownEvent} {p : MarkdownPiece} (h : p ∈ pieces es) :
    p.IsFrom es :=
  isFrom_of_mem_piecesFrom (fun _ he => he) (fun _ hb => (Option.not_mem_none _ hb).elim) h

end Cloak
