import Mathlib.Data.List.Forall2
import Cloak.Proofs.Nodes

namespace Cloak

open Unclosed (inSome)

section

variable {spans fences : List Span}

theorem outermost_stop_le (hle : ∀ s ∈ spans, s.start ≤ s.stop) {a b : Span}
    (ha : a ∈ outermost id spans) (hb : b ∈ outermost id spans) (hlt : a.start < b.start) :
    a.stop ≤ b.start :=
  (outermost_consecutive id spans).stop_le (fun s hs => hle s (mem_of_mem_outermost hs)) ha hb hlt

theorem start_le_of_mem_append (hle : ∀ s ∈ spans, s.start ≤ s.stop)
    (hends : ∀ f ∈ fences, f.start < f.stop ∧ f.EndsOutside (outermost id spans)) :
    ∀ s ∈ spans ++ fences, s.start ≤ s.stop := by
  intro s hs
  rcases List.mem_append.1 hs with hs | hs
  · exact hle s hs
  · exact Nat.le_of_lt (hends s hs).1

/-- What is kept of some ranges stays covered when others join them whose ends are outside: none of
the ranges that are kept then ends inside. -/
theorem covered_of_append (hle : ∀ s ∈ spans, s.start ≤ s.stop)
    (hends : ∀ f ∈ fences, f.start < f.stop ∧ f.EndsOutside (outermost id spans)) {k : Span}
    (hk : k ∈ outermost id spans) (hne : k.start < k.stop) :
    ∃ g ∈ outermost id (spans ++ fences), g.start ≤ k.start ∧ k.stop ≤ g.stop := by
  have hle' := start_le_of_mem_append hle hends
  induction hn : k.start using Nat.strongRecOn generalizing k with
  | ind n ih =>
    subst hn
    have hmem : k ∈ spans ++ fences := List.mem_append_left fences (mem_of_mem_outermost hk)
    obtain ⟨g, hg, hstart, hin, hstop⟩ := @outermost_covers _ id _ _ hmem hne
    simp only [id] at hstart hin hstop
    rcases hstop with hstop | ⟨hbefore, hcut⟩
    · exact ⟨g, hg, hstart, hstop⟩
    · exfalso
      rcases List.mem_append.1 (mem_of_mem_outermost hg) with hspan | hfence
      · -- a range that starts before `k` and is not kept starts in a kept range before `k`, and the
        -- range that covers that one clashes with it
        have hne' : g.start < g.stop := Nat.lt_trans hbefore hin
        obtain ⟨k', hk', hstart', hin', hstop'⟩ := @outermost_covers _ id _ _ hspan hne'
        simp only [id] at hstart' hin' hstop'
        have hapart := outermost_stop_le hle hk' hk (by omega)
        have hcut' : k'.start < g.start ∧ k'.stop < g.stop := by omega
        obtain ⟨g', hg', hstart'', hstop''⟩ := ih k'.start (by omega) hk' (by omega) rfl
        have hclash := outermost_stop_le hle' hg' hg (by omega)
        omega
      · obtain ⟨hpos, -, hout⟩ := hends g hfence
        exact hout (inSome_iff.2 ⟨k, hk, Span.holds_iff.2 ⟨by omega, by omega⟩⟩)

end

/-- Two documents of one length have the same bytes outside what is kept of some ranges, and their
line endings are at the same offsets. -/
structure AgreeOutside (spans : List Span) (d d' : Text) : Prop where
  size_eq : d.size = d'.size
  byte_eq : ∀ i < d.size, ¬ inSome (outermost id spans) i → d.bytes[i]? = d'.bytes[i]?
  feed_iff : ∀ i < d.size, d.bytes[i]? = some 10 ↔ d'.bytes[i]? = some 10
  return_iff : ∀ i < d.size, d.bytes[i]? = some 13 ↔ d'.bytes[i]? = some 13

instance (spans : List Span) (d d' : Text) : Decidable (AgreeOutside spans d d') :=
  decidable_of_iff
    (d.size = d'.size ∧
      (∀ i < d.size, ¬ inSome (outermost id spans) i → d.bytes[i]? = d'.bytes[i]?) ∧
      (∀ i < d.size, d.bytes[i]? = some 10 ↔ d'.bytes[i]? = some 10) ∧
      ∀ i < d.size, d.bytes[i]? = some 13 ↔ d'.bytes[i]? = some 13)
    ⟨fun ⟨hs, hb, hf, hr⟩ => ⟨hs, hb, hf, hr⟩, fun ⟨hs, hb, hf, hr⟩ => ⟨hs, hb, hf, hr⟩⟩

namespace AgreeOutside

variable {spans : List Span} {d d' : Text}

theorem none_behind (h : AgreeOutside spans d d') {i : Nat} (hi : ¬ i < d.size) :
    d.bytes[i]? = none ∧ d'.bytes[i]? = none := by
  have hsize := h.size_eq
  constructor
  · rw [List.getElem?_eq_none_iff, Text.length_bytes]
    omega
  · rw [List.getElem?_eq_none_iff, Text.length_bytes]
    omega

theorem getElem?_eq (h : AgreeOutside spans d d') {i : Nat}
    (hi : ¬ inSome (outermost id spans) i) : d.bytes[i]? = d'.bytes[i]? := by
  by_cases hlt : i < d.size
  · exact h.byte_eq i hlt hi
  · rw [(h.none_behind hlt).1, (h.none_behind hlt).2]

theorem feed_iff' (h : AgreeOutside spans d d') (i : Nat) :
    d.bytes[i]? = some 10 ↔ d'.bytes[i]? = some 10 := by
  by_cases hlt : i < d.size
  · exact h.feed_iff i hlt
  · rw [(h.none_behind hlt).1, (h.none_behind hlt).2]

theorem lineEndAt_iff (h : AgreeOutside spans d d') (i : Nat) :
    d.LineEndAt i ↔ d'.LineEndAt i := by
  by_cases hlt : i < d.size
  · exact or_congr (h.feed_iff i hlt) (h.return_iff i hlt)
  · rw [Text.LineEndAt, Text.LineEndAt, (h.none_behind hlt).1, (h.none_behind hlt).2]

theorem getElem?_eq_of_lineEndAt (h : AgreeOutside spans d d') {i : Nat} (hi : d.LineEndAt i) :
    d.bytes[i]? = d'.bytes[i]? := by
  have hlt : i < d.size := by
    obtain ⟨b, hb, -⟩ := Text.lineEndAt_iff.1 hi
    have hlength := (List.getElem?_eq_some_iff.1 hb).1
    rw [Text.length_bytes] at hlength
    exact hlength
  rcases hi with hi | hi
  · rw [hi, (h.feed_iff i hlt).1 hi]
  · rw [hi, (h.return_iff i hlt).1 hi]

theorem map_blotByte_eq (h : AgreeOutside spans d d') (i : Nat) :
    d.bytes[i]?.map blotByte = d'.bytes[i]?.map blotByte := by
  by_cases hlt : i < d.size
  · have hlength : i < d.bytes.length := by
      rw [Text.length_bytes]
      exact hlt
    have hlength' : i < d'.bytes.length := by
      rw [Text.length_bytes, ← h.size_eq]
      exact hlt
    have hfeed := h.feed_iff i hlt
    rw [List.getElem?_eq_getElem hlength, List.getElem?_eq_getElem hlength'] at hfeed ⊢
    rw [Option.some_inj, Option.some_inj] at hfeed
    rw [Option.map_some, Option.map_some, blotByte, blotByte]
    simp only [hfeed]
  · rw [(h.none_behind hlt).1, (h.none_behind hlt).2]

theorem mask_eq (h : AgreeOutside spans d d') {hidden : List Span}
    (hf : ∀ s ∈ hidden, s.FitsIn d) (hf' : ∀ s ∈ hidden, s.FitsIn d')
    (hcover : ∀ i, inSome (outermost id spans) i → inSome (outermost id hidden) i) :
    mask d hidden = mask d' hidden := by
  apply Text.bytes_inj
  apply List.ext_getElem?
  intro i
  rw [getElem?_bytes_mask hf, getElem?_bytes_mask hf']
  by_cases hin : inSome (outermost id hidden) i
  · have hblot : maskByte (outermost id hidden) i = blotByte := funext fun _ => if_pos hin
    rw [hblot]
    exact h.map_blotByte_eq i
  · rw [maskByte_of_not_inSome hin, Option.map_id, id, id]
    exact h.getElem?_eq fun hspan => hin (hcover i hspan)

theorem hideOpaque_eq (h : AgreeOutside spans d d') (hf : ∀ s ∈ spans, s.FitsIn d)
    (hf' : ∀ s ∈ spans, s.FitsIn d') : hideOpaque d spans = hideOpaque d' spans := by
  have hmask : mask d spans = mask d' spans := h.mask_eq hf hf' fun _ hi => hi
  have hfences : (hideOpaque d spans).fences = (hideOpaque d' spans).fences :=
    congrArg mathFences hmask
  have htext : (hideOpaque d spans).text = (hideOpaque d' spans).text := by
    have hhidden := fitsIn_of_mem_hidden hf
    have hhidden' := fitsIn_of_mem_hidden hf'
    rw [← hfences] at hhidden'
    rw [hideOpaque_text, hideOpaque_text, ← hfences]
    refine h.mask_eq hhidden hhidden' ?_
    intro i hi
    obtain ⟨k, hk, hold⟩ := inSome_iff.1 hi
    obtain ⟨hlo, hhi⟩ := Span.holds_iff.1 hold
    obtain ⟨g, hg, hstart, hstop⟩ :=
      covered_of_append (fun s hs => (hf s hs).start_le)
        (fun f hmem => endsOutside_of_mem_fences hf hmem) hk (by omega)
    exact inSome_iff.2 ⟨g, hg, Span.holds_iff.2 ⟨by omega, by omega⟩⟩
  cases hm : hideOpaque d spans
  cases hm' : hideOpaque d' spans
  rw [hm, hm'] at hfences htext
  cases hfences
  cases htext
  rfl

end AgreeOutside

def Span.Apart (a b : Span) : Prop :=
  min a.stop b.stop ≤ max a.start b.start

instance (a b : Span) : Decidable (a.Apart b) :=
  inferInstanceAs (Decidable (_ ≤ _))

theorem not_inSome_outermost {spans : List Span} {r : Span} (h : ∀ s ∈ spans, s.Apart r) {i : Nat}
    (hi : r.holds i) : ¬ inSome (outermost id spans) i := by
  intro hin
  obtain ⟨s, hs, hold⟩ := inSome_iff.1 hin
  have hapart := h s (mem_of_mem_outermost hs)
  rw [Span.holds_iff] at hi hold
  simp only [Span.Apart] at hapart
  omega

theorem slice_eq_of_bytes {d d' : Text} {r : Span} (hf : r.FitsIn d) (hf' : r.FitsIn d')
    (hb : ∀ i, r.start ≤ i → i < r.stop → d.bytes[i]? = d'.bytes[i]?) {start stop : Nat}
    (hstart : r.start ≤ start) (hstop : stop ≤ r.stop) :
    d.slice start stop = d'.slice start stop := by
  have htext := hf.text?_eq
  rw [Span.text_eq_of_bytes hf hf' hb] at htext
  rw [Text.slice, Text.slice, Span.slice?_eq_of_text? htext hf'.text?_eq hstart hstop]

/-- The kind of a node, frontmatter in braces counted as any other between dashes. -/
def NodeKind.braceless : NodeKind → NodeKind
  | .frontmatter .json => .frontmatter .yaml
  | kind => kind

/-- Two nodes are at one range and of one kind, and have one value if no hidden range has a byte of
theirs. -/
structure Node.Alike (spans : List Span) (n n' : Node) : Prop where
  span_eq : n.span = n'.span
  kind_eq : n.kind.braceless = n'.kind.braceless
  value_eq : (∀ s ∈ spans, s.Apart n.span) → n.value = n'.value

def MarkdownEvent.isIndented (e : MarkdownEvent) : Bool :=
  match e.kind with
  | .blockStart (.code none) => true
  | _ => false

/-- What stands before indented code on its line is not hidden. -/
def MarkdownEvent.HeadInSight (spans : List Span) (document : Text) (e : MarkdownEvent) : Prop :=
  e.isIndented → ∀ s ∈ spans, s.Apart ⟨lineStart document e.span.start, e.span.start⟩

instance (spans : List Span) (document : Text) (e : MarkdownEvent) :
    Decidable (e.HeadInSight spans document) :=
  inferInstanceAs (Decidable (_ → _))

/-- What is relied on of an event in two documents. -/
def MarkdownEvent.InSight (spans : List Span) (d d' : Text) (e : MarkdownEvent) : Prop :=
  e.span.FitsIn d ∧ e.span.FitsIn d' ∧ e.HeadInSight spans d

instance (spans : List Span) (d d' : Text) (e : MarkdownEvent) :
    Decidable (e.InSight spans d d') :=
  inferInstanceAs (Decidable (_ ∧ _))

/-- Two readings succeed, with nodes that are alike one by one. -/
def ReadAlike (spans : List Span) (r r' : Except EscapeError (List Node)) : Prop :=
  ∃ ns ns', r = .ok ns ∧ r' = .ok ns' ∧ List.Forall₂ (Node.Alike spans) ns ns'

section

variable {spans : List Span} {d d' : Text}

theorem AgreeOutside.getElem?_eq_of_apart (h : AgreeOutside spans d d') {r : Span}
    (hapart : ∀ s ∈ spans, s.Apart r) {i : Nat} (hlo : r.start ≤ i) (hhi : i < r.stop) :
    d.bytes[i]? = d'.bytes[i]? :=
  h.getElem?_eq (not_inSome_outermost hapart (Span.holds_iff.2 ⟨hlo, hhi⟩))

theorem alike_of_slice (h : AgreeOutside spans d d') (kind : NodeKind) {r : Span}
    (hf : r.FitsIn d) (hf' : r.FitsIn d') (before behind : Nat) (f : Text → Text) :
    Node.Alike spans ⟨kind, r, f (d.slice (r.start + before) (r.stop - behind))⟩
      ⟨kind, r, f (d'.slice (r.start + before) (r.stop - behind))⟩ := by
  refine ⟨rfl, rfl, ?_⟩
  intro hapart
  refine congrArg f (slice_eq_of_bytes hf hf' ?_ (Nat.le_add_right _ _) (Nat.sub_le _ _))
  intro i hlo hhi
  exact h.getElem?_eq_of_apart hapart hlo hhi

theorem alike_of_body (h : AgreeOutside spans d d') {kind kind' : NodeKind}
    (hkind : kind.braceless = kind'.braceless) {r : Span} (hf : r.FitsIn d) (hf' : r.FitsIn d')
    {body : List Span} (hbody : ∀ s ∈ body, s.FitsIn d ∧ s.FitsIn d' ∧ r.contains s) :
    Node.Alike spans ⟨kind, withoutLineEnds d r, dropLineEnd (joined d body)⟩
      ⟨kind', withoutLineEnds d' r, dropLineEnd (joined d' body)⟩ := by
  obtain ⟨n, hn, -, htrim⟩ := exists_withoutLineEnds hf
  obtain ⟨n', hn', -, htrim'⟩ := exists_withoutLineEnds hf'
  obtain rfl := htrim.eq htrim' h.lineEndAt_iff
  rw [hn, hn']
  refine ⟨rfl, hkind, ?_⟩
  intro hapart
  have hbytes (i : Nat) (hlo : r.start ≤ i) (hhi : i < r.stop) : d.bytes[i]? = d'.bytes[i]? := by
    by_cases hi : i < n
    · exact h.getElem?_eq_of_apart hapart hlo hi
    · exact h.getElem?_eq_of_lineEndAt (htrim.lineEndAt i (Nat.le_of_not_lt hi) hhi)
  have hjoined : joined d body = joined d' body := by
    rw [joined, joined, List.flatMap, List.flatMap]
    congr 1
    apply List.map_congr_left
    intro s hs
    obtain ⟨hfit, hfit', hin⟩ := hbody s hs
    simp only [Span.contains, Bool.and_eq_true, decide_eq_true_eq] at hin
    refine Span.text_eq_of_bytes hfit hfit' ?_
    intro i hlo hhi
    exact hbytes i (by omega) (by omega)
  exact congrArg dropLineEnd hjoined

theorem indentedStart_congr (h : AgreeOutside spans d d') {start : Nat} (hb : d.isBoundary start)
    (hb' : d'.isBoundary start) (hapart : ∀ s ∈ spans, s.Apart ⟨lineStart d start, start⟩) :
    indentedStart d start = indentedStart d' start := by
  obtain ⟨hline, hhead, hstarts⟩ := lineStart_spec hb
  obtain ⟨hline', hhead', hstarts'⟩ := lineStart_spec hb'
  have heq : lineStart d start = lineStart d' start := hstarts.eq hstarts' h.feed_iff'
  rw [← heq] at hline' hhead'
  have htext := Span.text_eq_of_bytes (s := ⟨lineStart d start, start⟩)
    (Span.fitsIn_of_isBoundary hstarts.le hline hb)
    (Span.fitsIn_of_isBoundary hstarts.le hline' hb')
    (fun i hlo hhi => h.getElem?_eq_of_apart hapart hlo hhi)
  rw [hhead, hhead'] at htext
  rw [indentedStart_eq, indentedStart_eq, htext, heq]

theorem NodeKind.braceless_ofValue (kind : NodeKind) (value : Text) :
    (kind.ofValue value).braceless = kind.braceless := by
  rw [ofValue]
  split
  · rename_i h
    rw [h.1]
    rfl
  · rfl

theorem OpenBlock.kind_opened (d d' : Text) (kind : BlockKind) (r : Span) :
    (opened d kind r).kind = (opened d' kind r).kind := by
  cases kind with
  | code info => cases info <;> rfl
  | metadata dashes => rfl

theorem OpenBlock.span_opened_congr (h : AgreeOutside spans d d') {kind : BlockKind} {r : Span}
    (hin : (⟨.blockStart kind, r⟩ : MarkdownEvent).InSight spans d d') :
    (opened d kind r).span = (opened d' kind r).span := by
  obtain ⟨hf, hf', hhead⟩ := hin
  cases kind with
  | code info =>
    cases info with
    | some info => rfl
    | none =>
      have hstart := indentedStart_congr h hf.isBoundary_start hf'.isBoundary_start (hhead rfl)
      exact congrArg (Span.mk · r.stop) hstart
  | metadata dashes => rfl

theorem MarkdownPiece.alike_node (h : AgreeOutside spans d d') {p : MarkdownPiece}
    (hin : p.head.InSight spans d d')
    (htexts : ∀ s ∈ p.texts, s.FitsIn d ∧ s.FitsIn d' ∧ p.head.span.contains s) :
    (p.node d).Alike spans (p.node d') := by
  have hf := hin.1
  have hf' := hin.2.1
  cases p with
  | block b =>
    obtain ⟨hwhole, hle⟩ := OpenBlock.fitsIn_opened b.kind hf
    have hwhole' := (OpenBlock.fitsIn_opened b.kind hf').1
    have hspan : (b.opened d).span = (b.opened d').span := OpenBlock.span_opened_congr h hin
    have hstop : (b.opened d).span.stop = b.span.stop := OpenBlock.stop_opened d b.kind b.span
    rw [node, node, OpenBlock.close, OpenBlock.close, ← hspan]
    refine alike_of_body h ?_ hwhole (hspan ▸ hwhole') ?_
    · rw [NodeKind.braceless_ofValue, NodeKind.braceless_ofValue]
      exact congrArg NodeKind.braceless (OpenBlock.kind_opened d d' b.kind b.span)
    · intro s hs
      obtain ⟨hfit, hfit', hcontains⟩ := htexts s hs
      refine ⟨hfit, hfit', ?_⟩
      simp only [Span.contains, Bool.and_eq_true, decide_eq_true_eq] at hcontains ⊢
      exact ⟨Nat.le_trans hle hcontains.1, Nat.le_trans hcontains.2 (Nat.le_of_eq hstop.symm)⟩
  | code s => exact alike_of_slice h .inlineCode hf hf' 0 0 codeSpanValue
  | math display s => exact alike_of_slice h (.math display) hf hf' _ _ id
  | html s => exact ⟨rfl, rfl, fun _ => rfl⟩

theorem alike_structureNodes (h : AgreeOutside spans d d') (hf : ∀ s ∈ spans, s.FitsIn d)
    (hf' : ∀ s ∈ spans, s.FitsIn d') {events : Text → List MarkdownEvent}
    (he : ∀ e ∈ events (hideOpaque d spans).text, e.InSight spans d d')
    (htexts : ∀ p ∈ pieces (events (hideOpaque d spans).text), ∀ s ∈ p.texts,
      p.head.span.contains s) :
    List.Forall₂ (Node.Alike spans) (structureNodes d (hideOpaque d spans) events)
      (structureNodes d' (hideOpaque d spans) events) := by
  have hmasked := h.hideOpaque_eq hf hf'
  refine List.rel_append ?_ ?_
  · refine List.forall₂_map_left_iff.2 (List.forall₂_map_right_iff.2 (List.forall₂_same.2 ?_))
    intro f hmem
    have hfit := (enclosedBy_of_mem_fences hf hmem).1.fitsIn
    rw [hmasked] at hmem
    exact alike_of_slice h (.math true) hfit (enclosedBy_of_mem_fences hf' hmem).1.fitsIn 2 2 id
  · rw [markdownNodes_eq_map, markdownNodes_eq_map]
    refine List.forall₂_map_left_iff.2 (List.forall₂_map_right_iff.2 (List.forall₂_same.2 ?_))
    intro p hmem
    obtain ⟨hhead, htext⟩ := isFrom_of_mem_pieces hmem
    refine MarkdownPiece.alike_node h (he _ hhead) ?_
    intro s hs
    obtain ⟨hfit, hfit', -⟩ := he _ (htext s hs)
    exact ⟨hfit, hfit', htexts p hmem s hs⟩

theorem alike_expressions (h : AgreeOutside spans d d') (hf : ∀ s ∈ spans, s.FitsIn d)
    (hf' : ∀ s ∈ spans, s.FitsIn d') (shields : List Span) :
    List.Forall₂ (Node.Alike spans) (expressions d (hideOpaque d spans).text shields)
      (expressions d' (hideOpaque d spans).text shields) := by
  have hmasked := h.hideOpaque_eq hf hf'
  refine List.forall₂_map_left_iff.2 (List.forall₂_map_right_iff.2 (List.forall₂_same.2 ?_))
  intro s hs
  have hfit := (enclosedBy_of_mem_scan_hidden hf hs).fitsIn
  rw [hmasked] at hs
  exact alike_of_slice h .expression hfit (enclosedBy_of_mem_scan_hidden hf' hs).fitsIn 1 1 id

theorem forall₂_insertInOrder {R : α → α → Prop} {le : α → α → Bool}
    (hle : ∀ a a' b b', R a a' → R b b' → le a b = le a' b') {a a' : α} (ha : R a a')
    {as as' : List α} (h : List.Forall₂ R as as') :
    List.Forall₂ R (insertInOrder le a as) (insertInOrder le a' as') := by
  induction h with
  | nil => exact .cons ha .nil
  | cons hb hbs ih =>
    rw [insertInOrder, insertInOrder, hle _ _ _ _ ha hb]
    split
    · exact .cons ha (.cons hb hbs)
    · exact .cons hb ih

theorem forall₂_stableSort {R : α → α → Prop} {le : α → α → Bool}
    (hle : ∀ a a' b b', R a a' → R b b' → le a b = le a' b') {as as' : List α}
    (h : List.Forall₂ R as as') : List.Forall₂ R (stableSort le as) (stableSort le as') := by
  induction h with
  | nil => exact .nil
  | cons ha _ ih => exact forall₂_insertInOrder hle ha ih

theorem alike_sortNodes {ns ns' : List Node} (h : List.Forall₂ (Node.Alike spans) ns ns') :
    List.Forall₂ (Node.Alike spans) (sortNodes ns) (sortNodes ns') := by
  refine forall₂_stableSort ?_ h
  intro a a' b b' ha hb
  rw [ha.span_eq, hb.span_eq]

theorem map_span_eq {ns ns' : List Node} (h : List.Forall₂ (Node.Alike spans) ns ns') :
    ns.map Node.span = ns'.map Node.span := by
  induction h with
  | nil => rfl
  | cons ha _ ih => rw [List.map_cons, List.map_cons, ha.span_eq, ih]

/-- Documents whose structure is alike are read alike. -/
theorem readAlike_of_structure (h : AgreeOutside spans d d') (hf : ∀ s ∈ spans, s.FitsIn d)
    (hf' : ∀ s ∈ spans, s.FitsIn d') {events : Text → List MarkdownEvent}
    (hstructure : List.Forall₂ (Node.Alike spans) (structureNodes d (hideOpaque d spans) events)
      (structureNodes d' (hideOpaque d spans) events)) :
    ReadAlike spans (parseWith events d spans []) (parseWith events d' spans []) := by
  have hsorted := alike_sortNodes hstructure
  refine ⟨_, _, rfl, rfl, alike_sortNodes ?_⟩
  rw [← h.hideOpaque_eq hf hf', ← map_span_eq hsorted]
  exact List.rel_append hstructure (alike_expressions h hf hf' _)

/-- What is inside hidden ranges cannot influence how the rest of a document is read: two documents
that agree outside them, with their line endings at the same places, are read into nodes at the same
ranges and of the same kinds, and of the same values where nothing is hidden. Of what tells the
structure of Markdown it is relied on that the texts of a block are in the range of the block. -/
theorem parse_ignores_hidden (h : AgreeOutside spans d d')
    (hf : ∀ s ∈ spans, s.FitsIn d ∧ s.FitsIn d') {events : Text → List MarkdownEvent}
    (he : ∀ e ∈ events (hideOpaque d spans).text, e.InSight spans d d')
    (htexts : ∀ p ∈ pieces (events (hideOpaque d spans).text), ∀ s ∈ p.texts,
      p.head.span.contains s) :
    ReadAlike spans (parseWith events d spans []) (parseWith events d' spans []) := by
  have hfit : ∀ s ∈ spans, s.FitsIn d := fun s hs => (hf s hs).1
  have hfit' : ∀ s ∈ spans, s.FitsIn d' := fun s hs => (hf s hs).2
  exact readAlike_of_structure h hfit hfit' (alike_structureNodes h hfit hfit' he htexts)

/-- Hidden metadata looks like JSON in one document and opens code in the other. -/
theorem parse_ignores_hidden_metadata :
    let spans : List Span := [⟨4, 8⟩]
    let d := "---\n\x7bé\x7d\n---\n\n    i\n\n`c` \x7bx\x7d".toList
    let d' := "---\n`\x7b$`\n---\n\n    i\n\n`c` \x7bx\x7d".toList
    let text := (hideOpaque d spans).text
    let node : FrontmatterKind → Text → Node := fun kind value =>
      ⟨.frontmatter kind, ⟨0, 12⟩, value⟩
    let others : List Node := [⟨.code none none, ⟨14, 19⟩, ['i']⟩, ⟨.inlineCode, ⟨21, 24⟩, ['c']⟩,
      ⟨.expression, ⟨25, 28⟩, ['x']⟩]
    AgreeOutside spans d d' ∧ (∀ s ∈ spans, s.FitsIn d ∧ s.FitsIn d') ∧
      (∀ e ∈ Markdown.events text, e.InSight spans d d') ∧
      (∀ p ∈ pieces (Markdown.events text), ∀ s ∈ p.texts, p.head.span.contains s) ∧
      parse d spans [] = .ok (node .json "\x7bé\x7d".toList :: others) ∧
      parse d' spans [] = .ok (node .yaml "`\x7b$`".toList :: others) ∧
      List.Forall₂ (Node.Alike spans) (node .json "\x7bé\x7d".toList :: others)
        (node .yaml "`\x7b$`".toList :: others) := by
  intro spans d d' text node others
  have h : AgreeOutside spans d d' := by decide +kernel
  have hf : ∀ s ∈ spans, s.FitsIn d ∧ s.FitsIn d' := by decide +kernel
  have he : ∀ e ∈ Markdown.events text, e.InSight spans d d' := by decide +kernel
  have htexts : ∀ p ∈ pieces (Markdown.events text), ∀ s ∈ p.texts, p.head.span.contains s :=
    fun _ => Markdown.contains_of_mem_texts
  obtain ⟨ns, ns', hns, hns', halike⟩ := parse_ignores_hidden h hf he htexts
  have hread : (parseWith Markdown.events d spans []).toOption =
      some (node .json "\x7bé\x7d".toList :: others) := by decide +kernel
  have hread' : (parseWith Markdown.events d' spans []).toOption =
      some (node .yaml "`\x7b$`".toList :: others) := by decide +kernel
  rw [hns] at hread
  rw [hns'] at hread'
  obtain rfl := Option.some.inj hread
  obtain rfl := Option.some.inj hread'
  exact ⟨h, hf, he, htexts, hns, hns', halike⟩

/-- The Markdown that is read here keeps the texts of a block in its range. -/
theorem readAlike_parse (h : AgreeOutside spans d d') (hf : ∀ s ∈ spans, s.FitsIn d)
    (hf' : ∀ s ∈ spans, s.FitsIn d')
    (he : ∀ e ∈ Markdown.events (hideOpaque d spans).text, e.InSight spans d d') :
    ReadAlike spans (parse d spans []) (parse d' spans []) :=
  readAlike_of_structure h hf hf'
    (alike_structureNodes h hf hf' he fun _ => Markdown.contains_of_mem_texts)

end

end Cloak
