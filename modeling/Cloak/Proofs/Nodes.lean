import Cloak.Proofs.Bodies
import Cloak.Proofs.LineEnds
import Cloak.Proofs.Placing

namespace Cloak

open Unclosed (inSome)

/-- A range that is in bounds and on character boundaries has at least one byte. -/
structure Span.Holds (s : Span) (document : Text) : Prop where
  nonempty : s.start < s.stop
  fitsIn : s.FitsIn document

instance (s : Span) (document : Text) : Decidable (s.Holds document) :=
  decidable_of_iff (s.start < s.stop ∧ s.FitsIn document) ⟨fun h => ⟨h.1, h.2⟩, fun h => ⟨h.1, h.2⟩⟩

def brace : Text :=
  ['\x7b']

def unbrace : Text :=
  ['\x7d']

theorem isVisible_braces : ∀ word ∈ [brace, unbrace], word ≠ [] ∧ ∀ c ∈ word, IsVisible c := by
  simp [brace, unbrace, IsVisible]

theorem Span.EnclosedBy.holds {opening closing t : Text} {s : Span}
    (h : s.EnclosedBy opening closing t) (hne : opening ≠ []) : s.Holds t := by
  have hpos := Text.size_pos hne
  have hapart := h.apart
  exact ⟨by omega, h.fitsIn⟩

/-- Both ends of a range are outside some ranges. -/
def Span.EndsOutside (s : Span) (spans : List Span) : Prop :=
  ¬ inSome spans s.start ∧ ¬ inSome spans (s.stop - 1)

/-- A range between visible delimiters of a masked document is between them in the document, and its
ends are not hidden. -/
theorem enclosedBy_of_mask {document opening closing : Text} {spans : List Span} {s : Span}
    (hf : ∀ s ∈ spans, s.FitsIn document)
    (hv : ∀ word ∈ [opening, closing], word ≠ [] ∧ ∀ c ∈ word, IsVisible c)
    (h : s.EnclosedBy opening closing (mask document spans)) :
    s.EnclosedBy opening closing document ∧ s.EndsOutside (outermost id spans) := by
  obtain ⟨⟨hne, hopening⟩, hv⟩ := List.forall_mem_cons.1 hv
  obtain ⟨⟨hne', hclosing⟩, -⟩ := List.forall_mem_cons.1 hv
  obtain ⟨hopens, hstart⟩ := wordAt_of_mask hf hopening hne h.opens
  obtain ⟨hcloses, hstop⟩ := wordAt_of_mask hf hclosing hne' h.closes
  have hpos := Text.size_pos hne
  have hpos' := Text.size_pos hne'
  have hapart := h.apart
  exact ⟨⟨hopens, hcloses, hapart⟩, hstart _ (by omega) (by omega), hstop _ (by omega) (by omega)⟩

section

variable {document : Text} {opaqueSpans : List Span}

theorem hideOpaque_text (document : Text) (opaqueSpans : List Span) :
    (hideOpaque document opaqueSpans).text =
      mask document (opaqueSpans ++ (hideOpaque document opaqueSpans).fences) := by
  rw [hideOpaque]
  simp only
  split
  · rename_i hnil
    rw [List.isEmpty_iff.1 hnil, List.append_nil]
  · rfl

theorem enclosedBy_of_mem_fences (hf : ∀ s ∈ opaqueSpans, s.FitsIn document) {s : Span}
    (hs : s ∈ (hideOpaque document opaqueSpans).fences) :
    s.EnclosedBy dollars dollars document ∧ s.EndsOutside (outermost id opaqueSpans) :=
  enclosedBy_of_mask hf (by simp [dollars, IsVisible]) (Fence.enclosedBy_of_mem_mathFences hs)

theorem endsOutside_of_mem_fences (hf : ∀ s ∈ opaqueSpans, s.FitsIn document) {s : Span}
    (hs : s ∈ (hideOpaque document opaqueSpans).fences) :
    s.start < s.stop ∧ s.EndsOutside (outermost id opaqueSpans) := by
  obtain ⟨henclosed, hout⟩ := enclosedBy_of_mem_fences hf hs
  exact ⟨(henclosed.holds (List.cons_ne_nil _ _)).nonempty, hout⟩

theorem fitsIn_of_mem_hidden (hf : ∀ s ∈ opaqueSpans, s.FitsIn document) :
    ∀ s ∈ opaqueSpans ++ (hideOpaque document opaqueSpans).fences, s.FitsIn document := by
  intro s hs
  rcases List.mem_append.1 hs with hs | hs
  · exact hf s hs
  · exact (enclosedBy_of_mem_fences hf hs).1.fitsIn

theorem scan_hidden_spec (hf : ∀ s ∈ opaqueSpans, s.FitsIn document) {shields : List Span}
    {s : Span}
    (hs : s ∈ Expression.scan shields 0 false 0 (hideOpaque document opaqueSpans).text) :
    s.EnclosedBy brace unbrace document ∧
      s.EndsOutside (outermost id (opaqueSpans ++ (hideOpaque document opaqueSpans).fences)) := by
  have h := Expression.enclosedBy_of_mem_scan (Text.restAt_zero _) hs
  rw [hideOpaque_text] at h
  exact enclosedBy_of_mask (fitsIn_of_mem_hidden hf) isVisible_braces h

theorem enclosedBy_of_mem_scan_hidden (hf : ∀ s ∈ opaqueSpans, s.FitsIn document)
    {shields : List Span} {s : Span}
    (hs : s ∈ Expression.scan shields 0 false 0 (hideOpaque document opaqueSpans).text) :
    s.EnclosedBy brace unbrace document :=
  (scan_hidden_spec hf hs).1

end

namespace MarkdownEvent

def isBlockStart (e : MarkdownEvent) : Bool :=
  match e.kind with
  | .blockStart _ => true
  | .text | .blockEnd | .code | .math _ | .html | .other => false

def startsNode (e : MarkdownEvent) : Bool :=
  match e.kind with
  | .blockStart _ | .code | .math _ | .html => true
  | .text | .blockEnd | .other => false

/-- What is relied on of an event: its range is in bounds and on character boundaries, it is not
empty if a node starts with it, and no block starts with a line ending. -/
structure WellPlaced (document : Text) (e : MarkdownEvent) : Prop where
  fitsIn : e.span.FitsIn document
  nonempty : e.startsNode → e.span.start < e.span.stop
  not_lineEndAt : e.isBlockStart → ¬ document.LineEndAt e.span.start

instance (document : Text) (e : MarkdownEvent) : Decidable (e.WellPlaced document) :=
  decidable_of_iff (e.span.FitsIn document ∧ (e.startsNode → e.span.start < e.span.stop) ∧
      (e.isBlockStart → ¬ document.LineEndAt e.span.start))
    ⟨fun ⟨h, hne, hn⟩ => ⟨h, hne, hn⟩, fun ⟨h, hne, hn⟩ => ⟨h, hne, hn⟩⟩

end MarkdownEvent

theorem MarkdownPiece.startsNode_head (p : MarkdownPiece) : p.head.startsNode := by
  cases p <;> rfl

theorem holds_withoutLineEnds {document : Text} {s : Span} (h : s.FitsIn document) {i : Nat}
    (hi : s.start ≤ i) (hlt : i < s.stop) (hend : ¬ document.LineEndAt i) :
    (withoutLineEnds document s).Holds document := by
  obtain ⟨n, hn, hb, htrim⟩ := exists_withoutLineEnds h
  rw [hn]
  have hle : ¬ n ≤ i := fun hle => hend (htrim.lineEndAt i hle hlt)
  have hstart : s.start < n := by omega
  exact ⟨hstart, Span.fitsIn_of_isBoundary (Nat.le_of_lt hstart) h.isBoundary_start hb⟩

theorem indentedStart_spec {document : Text} {start : Nat} (hb : document.isBoundary start) :
    document.isBoundary (indentedStart document start) ∧ indentedStart document start ≤ start := by
  obtain ⟨hline, -, hstarts⟩ := lineStart_spec hb
  rw [indentedStart_eq]
  split
  · exact ⟨hline, hstarts.le⟩
  · exact ⟨hb, Nat.le_refl _⟩

theorem fitsIn_indentedStart {document : Text} {s : Span} (h : s.FitsIn document) :
    (⟨indentedStart document s.start, s.stop⟩ : Span).FitsIn document := by
  obtain ⟨hstart, hle⟩ := indentedStart_spec h.isBoundary_start
  exact Span.fitsIn_of_isBoundary (Nat.le_trans hle h.start_le) hstart h.isBoundary_stop

theorem OpenBlock.stop_opened (document : Text) (kind : BlockKind) (s : Span) :
    (opened document kind s).span.stop = s.stop := by
  cases kind with
  | code info => cases info <;> rfl
  | metadata dashes => rfl

theorem OpenBlock.texts_opened (document : Text) (kind : BlockKind) (s : Span) :
    (opened document kind s).texts = [] := by
  cases kind with
  | code info => cases info <;> rfl
  | metadata dashes => rfl

theorem OpenBlock.fitsIn_opened {document : Text} (kind : BlockKind) {s : Span}
    (h : s.FitsIn document) :
    (opened document kind s).span.FitsIn document ∧
      (opened document kind s).span.start ≤ s.start := by
  cases kind with
  | code info =>
    cases info with
    | some info => exact ⟨h, Nat.le_refl _⟩
    | none => exact ⟨fitsIn_indentedStart h, (indentedStart_spec h.isBoundary_start).2⟩
  | metadata dashes => exact ⟨h, Nat.le_refl _⟩

theorem MarkdownPiece.holds_node {document : Text} {p : MarkdownPiece}
    (h : p.head.WellPlaced document) : (p.node document).span.Holds document := by
  obtain ⟨hfit, hne, hend⟩ := h
  have hne := hne p.startsNode_head
  cases p with
  | block b =>
    obtain ⟨hwhole, hle⟩ := OpenBlock.fitsIn_opened b.kind hfit
    have hlt := Nat.lt_of_lt_of_eq hne (OpenBlock.stop_opened document b.kind b.span).symm
    exact holds_withoutLineEnds hwhole hle hlt (hend rfl)
  | code s => exact ⟨hne, hfit⟩
  | math display s => exact ⟨hne, hfit⟩
  | html s => exact ⟨hne, hfit⟩

end Cloak
