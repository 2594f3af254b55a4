import Cloak.Proofs.Balance
import Cloak.Proofs.Positions
import Cloak.Proofs.Reading
import Mathlib.Data.List.Basic

namespace Cloak

namespace Text

theorem slice?_zero (t : Text) (n : Nat) : t.slice? 0 n = t.before? n := by
  rw [slice?, if_pos (Nat.zero_le n), from?, splitAt?_zero]
  rfl

theorem slice?_size (t : Text) (n : Nat) : t.slice? n t.size = t.from? n := by
  cases hs : t.splitAt? n with
  | none =>
    have hnone : t.from? n = none := by
      rw [from?, hs, Option.map_none]
    rw [slice?, hnone, Option.bind_none, ite_self]
  | some parts =>
    obtain ⟨a, b⟩ := parts
    obtain ⟨rfl, rfl⟩ := splitAt?_eq_some_iff.1 hs
    have hslice := slice?_append a b []
    rw [List.append_nil, ← size_append] at hslice
    rw [hslice, from?_append]

/-- Two texts hold the same word at each of some ranges. -/
def AgreeOn (spans : List Span) (t t' : Text) : Prop :=
  ∀ s ∈ spans, ∃ w, s.text? t = some w ∧ s.text? t' = some w

variable {t t' : Text} {s : Span} {rs ss : List Span} {n : Nat}

theorem agreeOn_cons : AgreeOn (s :: ss) t t' ↔
    (∃ w, s.text? t = some w ∧ s.text? t' = some w) ∧ AgreeOn ss t t' :=
  List.forall_mem_cons

theorem agreeOn_append : AgreeOn (rs ++ ss) t t' ↔ AgreeOn rs t t' ∧ AgreeOn ss t t' :=
  List.forall_mem_append

namespace AgreeOn

theorem singleton (h : AgreeOn ss t t') (hs : s ∈ ss) : AgreeOn [s] t t' :=
  List.forall_mem_singleton.2 (h s hs)

theorem slice_eq (h : AgreeOn ss t t') (hs : s ∈ ss) {start stop : Nat} (hstart : s.start ≤ start)
    (hstop : stop ≤ s.stop) : t.slice start stop = t'.slice start stop := by
  obtain ⟨w, hw, hw'⟩ := h s hs
  rw [slice, slice, Span.slice?_eq_of_text? hw hw' hstart hstop]

theorem text_eq (h : AgreeOn ss t t') (hs : s ∈ ss) : s.text t = s.text t' :=
  h.slice_eq hs (Nat.le_refl _) (Nat.le_refl _)

theorem slice_inside_eq (h : AgreeOn ss t t') {width : Nat} (hs : s.inside width ∈ ss) :
    t.slice (s.start + width) (s.stop - width) = t'.slice (s.start + width) (s.stop - width) :=
  h.text_eq hs

theorem text?_eq (h : AgreeOn ss t t') (hs : s ∈ ss) : s.text? t = s.text? t' := by
  obtain ⟨w, hw, hw'⟩ := h s hs
  rw [hw, hw']

theorem before?_eq (h : AgreeOn ss t t') (hs : ⟨0, n⟩ ∈ ss) : t.before? n = t'.before? n := by
  rw [← slice?_zero, ← slice?_zero]
  exact h.text?_eq hs

theorem from?_eq (h : AgreeOn ss t t') (hsize : t.size = t'.size) (hs : ⟨n, t.size⟩ ∈ ss) :
    t.from? n = t'.from? n := by
  rw [← slice?_size, ← slice?_size, ← hsize]
  exact h.text?_eq hs

end AgreeOn

end Text

open Text (AgreeOn agreeOn_cons agreeOn_append)

variable {d d' : Text}

section Parse

theorem maskFrom_congr (hsize : d.size = d'.size) {reached : Nat} {spans : List Span}
    (hspans : AgreeOn spans d d') (hgaps : AgreeOn (gapsFrom d.size id reached spans) d d') :
    maskFrom d reached spans = maskFrom d' reached spans := by
  induction spans generalizing reached with
  | nil => rw [maskFrom, maskFrom, hgaps.from?_eq hsize List.mem_cons_self]
  | cons s ss ih =>
    have hgap := hgaps.text_eq List.mem_cons_self
    have hrest := ih (agreeOn_cons.1 hspans).2 (agreeOn_cons.1 hgaps).2
    rw [maskFrom, maskFrom, hspans.text_eq List.mem_cons_self]
    exact congrArg₂ (fun gap rest => gap ++ blot (s.text d') ++ rest) hgap hrest

theorem mask_congr (hsize : d.size = d'.size) {spans : List Span}
    (h : AgreeOn (maskReads d spans) d d') : mask d spans = mask d' spans := by
  obtain ⟨hkept, hgaps⟩ := agreeOn_append.1 h
  exact maskFrom_congr hsize hkept hgaps

theorem hideOpaque_congr (hsize : d.size = d'.size) {opaqueSpans : List Span}
    (h : AgreeOn (maskReads d opaqueSpans ++
      maskReads d (opaqueSpans ++ (hideOpaque d opaqueSpans).fences)) d d') :
    hideOpaque d opaqueSpans = hideOpaque d' opaqueSpans := by
  obtain ⟨hfirst, hsecond⟩ := agreeOn_append.1 h
  have hmask := mask_congr hsize hfirst
  have hmask' : mask d (opaqueSpans ++ mathFences (mask d opaqueSpans)) =
      mask d' (opaqueSpans ++ mathFences (mask d opaqueSpans)) := mask_congr hsize hsecond
  simp only [hideOpaque, ← hmask, hmask']

theorem fenceNode_congr {fence : Span} (h : AgreeOn [fence.inside 2] d d') :
    fenceNode d fence = fenceNode d' fence := by
  rw [fenceNode, fenceNode, h.slice_inside_eq List.mem_cons_self]

theorem OpenBlock.opened_congr {kind : BlockKind} {s : Span}
    (h : AgreeOn (blockStartReads d kind s) d d') : opened d kind s = opened d' kind s := by
  cases kind with
  | code info =>
    cases info with
    | some info => rfl
    | none => rw [opened, opened, indentedStart, indentedStart, h.before?_eq List.mem_cons_self]
  | metadata dashes => rfl

theorem OpenBlock.close_congr {b : OpenBlock} (h : AgreeOn b.reads d d') :
    b.close d = b.close d' := by
  have hjoined : joined d b.texts = joined d' b.texts :=
    List.flatMap_congr fun s hs => h.text_eq (List.mem_cons_of_mem _ hs)
  rw [close, close, hjoined, withoutLineEnds, withoutLineEnds, h.text_eq List.mem_cons_self]

theorem mathNode_congr {display : Bool} {s : Span} (h : AgreeOn [s] d d') :
    mathNode d display s = mathNode d' display s := by
  rw [mathNode, mathNode]
  simp only [h.slice_eq List.mem_cons_self (Nat.le_add_right _ _) (Nat.sub_le _ _)]

theorem nodesFrom_congr {block? : Option OpenBlock} {es : List MarkdownEvent}
    (h : AgreeOn (nodeReadsFrom d block? es) d d') :
    nodesFrom d block? es = nodesFrom d' block? es := by
  induction es generalizing block? with
  | nil => rfl
  | cons e es ih =>
    obtain ⟨kind, s⟩ := e
    cases kind with
    | blockStart kind =>
      obtain ⟨hstart, hrest⟩ := agreeOn_append.1 h
      simp only [nodesFrom, ← OpenBlock.opened_congr hstart, ih hrest]
    | text => exact ih h
    | blockEnd =>
      obtain ⟨hblock, hrest⟩ := agreeOn_append.1 h
      have hclose : block?.map (OpenBlock.close d) = block?.map (OpenBlock.close d') := by
        cases block? with
        | none => rfl
        | some b => exact congrArg some (OpenBlock.close_congr hblock)
      simp only [nodesFrom, hclose, ih hrest]
    | code =>
      simp only [nodesFrom, h.text_eq (s := s) List.mem_cons_self, ih (agreeOn_cons.1 h).2]
    | math display =>
      have hnode : mathNode d display s = mathNode d' display s :=
        mathNode_congr (h.singleton List.mem_cons_self)
      simp only [nodesFrom, hnode, ih (agreeOn_cons.1 h).2]
    | html =>
      have hrest : nodesFrom d block? es = nodesFrom d' block? es := ih h
      simp only [nodesFrom, hrest]
    | other => exact ih h

theorem structureNodes_congr {masked : Masked} {events : Text → List MarkdownEvent}
    (hfences : AgreeOn (masked.fences.map fun f => f.inside 2) d d')
    (hnodes : AgreeOn (nodeReadsFrom d none (events masked.text)) d d') :
    structureNodes d masked events = structureNodes d' masked events := by
  have hfence : masked.fences.map (fenceNode d) = masked.fences.map (fenceNode d') := by
    apply List.map_congr_left
    intro f hf
    exact fenceNode_congr (hfences.singleton (List.mem_map_of_mem hf))
  rw [structureNodes, structureNodes, hfence, markdownNodes, markdownNodes, nodesFrom_congr hnodes]

theorem expressions_congr {masked : Text} {shields : List Span}
    (h : AgreeOn ((Expression.scan shields 0 false 0 masked).map fun s => s.inside 1) d d') :
    expressions d masked shields = expressions d' masked shields := by
  apply List.map_congr_left
  intro s hs
  rw [h.slice_inside_eq (List.mem_map_of_mem hs)]

theorem isSelfClosing_congr (hsize : d.size = d'.size) {found : Found Text}
    (h : AgreeOn (openTagReads d found) d d') :
    Unclosed.isSelfClosing d found.span.start = Unclosed.isSelfClosing d' found.span.start := by
  rw [Unclosed.isSelfClosing, Unclosed.isSelfClosing, h.from?_eq hsize List.mem_cons_self]

theorem unclosed?_congr (hsize : d.size = d'.size) {masked : Text} {tags : List Text}
    {opaqueSpans : List Span} {nodes : List Node}
    (htags : d.allMatches (Unclosed.openTag? tags) = d'.allMatches (Unclosed.openTag? tags))
    (h : AgreeOn ((d.allMatches (Unclosed.openTag? tags)).flatMap (openTagReads d)) d d') :
    unclosed? d masked tags opaqueSpans nodes = unclosed? d' masked tags opaqueSpans nodes := by
  rw [unclosed?, unclosed?, ← htags, ← List.head?_filterMap, ← List.head?_filterMap]
  congr 2
  apply List.filterMap_congr
  intro found hfound
  simp only [isSelfClosing_congr hsize (List.forall_mem_flatMap.1 h found hfound)]

/-- What a document is read into depends on it through its size, the tags that open in it and the
ranges that are read. -/
theorem parseWith_congr (hsize : d.size = d'.size) {events : Text → List MarkdownEvent}
    {opaqueSpans : List Span} {tags : List Text}
    (htags : d.allMatches (Unclosed.openTag? tags) = d'.allMatches (Unclosed.openTag? tags))
    (h : AgreeOn (parseReads events d opaqueSpans tags) d d') :
    parseWith events d opaqueSpans tags = parseWith events d' opaqueSpans tags := by
  simp only [parseReads, agreeOn_append] at h
  obtain ⟨⟨⟨⟨⟨hfirst, hsecond⟩, hfences⟩, hnodes⟩, hexpressions⟩, hopen⟩ := h
  have hmasked := hideOpaque_congr hsize (agreeOn_append.2 ⟨hfirst, hsecond⟩)
  have hstructure := structureNodes_congr hfences hnodes
  simp only [parseWith, ← hmasked, ← hstructure, ← unclosed?_congr hsize htags hopen,
    ← expressions_congr hexpressions]

theorem Fence.readLines_cons (state : State) (offset : Nat) (raw : Text) (rest : List Text) :
    readLines state offset (raw :: rest) =
      let (line, behind) := fenceRead raw
      let after := offset + Text.size raw + 1
      if 3 < behind.start then readLines state after rest
      else
        let (state, found) :=
          state.line (offset + behind.start) (Text.trimEndBy isBlank (behind.text line))
        found.toList ++ readLines state after rest := by
  have hdrop : (fenceRead raw).2.text (fenceRead raw).1 =
      (body raw).drop ((body raw).takeWhile (· == ' ')).length := by
    have hsize : Text.size ((body raw).takeWhile (· == ' ')) =
        ((body raw).takeWhile (· == ' ')).length :=
      Text.size_of_forall_eq_space fun _ hc => Text.of_mem_takeWhile (p := (· == ' ')) hc
    have hfrom := Text.from?_append ((body raw).takeWhile (· == ' '))
      ((body raw).dropWhile (· == ' '))
    have hdrop : ((body raw).takeWhile (· == ' ') ++ (body raw).dropWhile (· == ' ')).drop
        ((body raw).takeWhile (· == ' ')).length = (body raw).dropWhile (· == ' ') :=
      List.drop_left
    rw [List.takeWhile_append_dropWhile] at hfrom hdrop
    rw [hsize] at hfrom
    rw [Span.text, Text.slice, fenceRead, Text.slice?_size, hfrom, Option.getD_some, hdrop]
  simp only [readLines, hdrop]
  rfl

theorem Expression.blankLineAhead_iff_forall {l : Text} (hl : '\n' ∉ l) (below : List Text) :
    blankLineAhead (l ++ Text.begun below) ↔ below ≠ [] ∧ ∀ c ∈ l, isAsciiBlank c := by
  rw [blankLineAhead_iff]
  constructor
  · rintro ⟨blanks, rest, h, hblanks⟩
    have hnone {m : Text} (hm : l = blanks ++ '\n' :: m) : False := by
      rw [hm] at hl
      exact hl (List.mem_append_right _ List.mem_cons_self)
    refine ⟨?_, ?_⟩
    · rintro rfl
      rw [Text.begun, List.flatMap_nil, List.append_nil] at h
      exact hnone h
    · rcases List.append_eq_append_iff.1 h with ⟨m, rfl, -⟩ | ⟨m, hm, hrest⟩
      · exact fun c hc => hblanks c (List.mem_append_left _ hc)
      · cases m with
        | nil =>
          rw [hm, List.append_nil]
          exact hblanks
        | cons c m =>
          obtain ⟨rfl, -⟩ := List.cons.inj hrest
          exact (hnone hm).elim
  · rintro ⟨hbelow, hl⟩
    obtain ⟨k, ls, rfl⟩ := List.exists_cons_of_ne_nil hbelow
    exact ⟨l, k ++ Text.begun ls, rfl, hl⟩

/-- Where a line starts, it is read along with all that follows it. -/
theorem Text.Divides.text_blankLineReads {t l : Text} {n : Nat} {above below : List Text}
    (h : t.Divides n above [] l below) :
    ((⟨n, t.size⟩ : Span) ∈ blankLineReads t ∧ (⟨n, t.size⟩ : Span).text t = l ++ begun below) ∧
      (⟨n, n + l.size⟩ : Span) ∈ blankLineReads t ∧ (⟨n, n + l.size⟩ : Span).text t = l := by
  have hoffset := h.offset_eq
  have htext := h.text_eq
  rw [List.append_nil] at hoffset htext
  have hlines := h.rawLines_eq
  rw [List.nil_append] at hlines
  have hstart : (lineStartsFrom 0 t.rawLines)[above.length]? = some n := by
    rw [hlines, getElem?_lineStartsFrom_append, Nat.zero_add, hoffset]
  have hline : t.rawLines[above.length]? = some l := by
    rw [hlines, List.getElem?_append_right (Nat.le_refl _), Nat.sub_self, List.getElem?_cons_zero]
  refine ⟨⟨?_, ?_⟩, ?_, ?_⟩
  · exact List.mem_append_left _ (List.mem_map_of_mem (List.mem_of_getElem? hstart))
  · refine Span.text_eq_of_text? (slice?_eq_some_iff.2 ⟨ended above, [], ?_, hoffset, ?_⟩)
    · rw [List.append_nil]
      exact htext
    · rw [← size_append, ← htext]
  · refine List.mem_append_right _ (List.mem_of_getElem? (i := above.length) ?_)
    rw [lineReads, lineSpansFrom, List.getElem?_zipWith, hstart, hline]
  · exact Span.text_eq_of_text? (slice?_eq_some_iff.2
      ⟨ended above, begun below, htext, hoffset, by rw [hoffset]⟩)

theorem codeSpanValue_eq (raw : Text) :
    codeSpanValue raw =
      ((codeSpanReads raw).map fun r => r.2.text r.1).headD (codeSpanInner raw) := by
  rw [codeSpanReads]
  split
  · rename_i h
    exact h
  · rename_i hne
    have htext := text?_codeSpanInner ((codeSpanValue_cases raw).resolve_left hne)
    exact (Span.text_eq_of_text? htext).symm

end Parse

section Candidates

theorem map_text_lineSpansFrom {t : Text} {n : Nat} {lines : List Text} (h : t.LinesAt n lines) :
    (lineSpansFrom n lines).map (fun s => s.text t) = lines := by
  induction lines generalizing n with
  | nil => rfl
  | cons l lines ih =>
    obtain ⟨⟨a, b, rfl, rfl⟩, hlines⟩ := h
    refine congrArg₂ List.cons ?_ (ih hlines)
    exact Span.text_eq_of_text? (Text.slice?_append a l b)

theorem map_text_lineReads (t : Text) : (lineReads t).map (fun s => s.text t) = t.rawLines :=
  map_text_lineSpansFrom t.linesAt_rawLines

theorem lineBefore_eq_text (document : Text) (n : Node) :
    document.lineBefore n.span.start =
      (beforeRead document n).2.text (beforeRead document n).1 := by
  rw [Span.text, Text.slice, beforeRead, Text.slice?_zero]
  rfl

theorem Verbatim.contentLine_congr {s : Span} {content : Text}
    (h : AgreeOn (contentReads d s content) d d') :
    contentLine d s content = contentLine d' s content := by
  have hhead := h.before?_eq List.mem_cons_self
  have hstart := h.before?_eq (List.mem_cons_of_mem _ List.mem_cons_self)
  simp only [contentLine, ← hhead, hstart]

theorem Verbatim.snippet?_congr {config : Config} {s : Span}
    (h : AgreeOn (elementReads d config s) d d') :
    snippet? d config s = snippet? d' config s := by
  have hs : s ∈ elementReads d config s := by
    rw [elementReads]
    split
    · split
      · exact List.mem_cons_self
      · exact List.mem_singleton_self s
    · exact List.mem_singleton_self s
  cases hparse : Element.parse? (s.text d) with
  | none => simp only [snippet?, ← h.text_eq hs, hparse, Option.bind_eq_bind, Option.bind_none]
  | some element =>
    cases henv : Dict.find? config.verbatim element.tag with
    | none =>
      simp only [snippet?, ← h.text_eq hs, hparse, henv, Option.bind_eq_bind, Option.bind_some,
        Option.bind_none]
    | some environment =>
      have hcontent := h
      simp only [elementReads, hparse, henv] at hcontent
      have hline := contentLine_congr (agreeOn_cons.1 hcontent).2
      simp only [snippet?, Snippet.forBackend, Snippet.passthrough, ← h.text?_eq hs,
        ← h.text_eq hs, hparse, henv, hline, Option.bind_eq_bind, Option.bind_some]

theorem DelimitedMath.snippet_congr {m : DelimitedMath}
    (h : AgreeOn [m.span, m.span.inside 2] d d') : snippet d m = snippet d' m := by
  have houter := h.text?_eq List.mem_cons_self
  have hvalue := h.slice_inside_eq (List.mem_cons_of_mem _ List.mem_cons_self)
  simp only [snippet, Snippet.ofMath, Snippet.forBackend, Snippet.passthrough, houter, hvalue]

theorem Draft.assemble_congr (hsize : d.size = d'.size) {reached : Nat} {edits : List Edit}
    (h : AgreeOn (gapsFrom d.size Edit.span reached edits) d d') :
    assemble d reached edits = assemble d' reached edits := by
  induction edits generalizing reached with
  | nil => rw [assemble, assemble, h.from?_eq hsize List.mem_cons_self]
  | cons e es ih =>
    have hgap : d.slice? reached e.span.start = d'.slice? reached e.span.start :=
      h.text?_eq List.mem_cons_self
    rw [assemble, assemble, hgap, ih (agreeOn_cons.1 h).2]

end Candidates

end Cloak
