import Mathlib.Data.List.Pairwise
import Cloak.Proofs.Degrading
import Cloak.Proofs.Independence
import Cloak.Proofs.Walk

namespace Cloak

open Unclosed (inSome)

/-- Two ranges are apart, or one contains the other. -/
def Span.Nested (a b : Span) : Prop :=
  a.Apart b ∨ a.contains b ∨ b.contains a

instance (a b : Span) : Decidable (a.Nested b) :=
  inferInstanceAs (Decidable (_ ∨ _))

namespace Fence

theorem consecutive_readLines {s : State} {reached offset : Nat} {lines : List Text}
    (hs : ∀ n ∈ s.math, reached ≤ n) (hle : reached ≤ offset) :
    Consecutive id reached (readLines s offset lines) := by
  induction lines generalizing s reached offset with
  | nil => trivial
  | cons raw rest ih =>
    have hword : Text.WordAt raw 0 raw := ⟨[], [], (List.append_nil raw).symm, rfl⟩
    obtain ⟨-, hsize⟩ := wordAt_of_line hword
    rw [readLines]
    simp only
    split
    · exact ih hs (by omega)
    · generalize hstep : s.line _ _ = step
      obtain ⟨s', found⟩ := step
      rcases State.line_spec hstep with ⟨hmath, rfl⟩ | ⟨hline, hmath⟩
      · rw [← hmath] at hs
        exact ih hs (by omega)
      · rw [hline] at hsize
        change _ + 2 ≤ _ at hsize
        rcases hmath with ⟨-, hopen, rfl⟩ | ⟨opened, hopened, hclosed, rfl⟩
        · refine ih ?_ (by omega)
          intro n hn
          rw [hopen] at hn
          cases hn
          omega
        · refine ⟨hs opened hopened, ih ?_ ?_⟩
          · intro n hn
            rw [hclosed] at hn
            cases hn
          · change _ + 2 ≤ _
            omega

theorem consecutive_mathFences (t : Text) : Consecutive id 0 (mathFences t) :=
  consecutive_readLines (fun _ hn => (Option.not_mem_none _ hn).elim) (Nat.le_refl 0)

end Fence

section

variable {spans fences : List Span}

theorem covered_of_mem_append (hle : ∀ s ∈ spans, s.start ≤ s.stop)
    (hends : ∀ f ∈ fences, f.start < f.stop ∧ f.EndsOutside (outermost id spans))
    (hc : Consecutive id 0 fences) {f : Span} (hf : f ∈ fences) :
    ∃ g ∈ outermost id (spans ++ fences), g.start ≤ f.start ∧ f.stop ≤ g.stop := by
  have hle' := start_le_of_mem_append hle hends
  obtain ⟨hpos, hstart, -⟩ := hends f hf
  obtain ⟨g, hg, hgf, hin, hstop⟩ :=
    @outermost_covers _ id _ _ (List.mem_append_right spans hf) hpos
  simp only [id] at hgf hin hstop
  rcases hstop with hstop | ⟨hbefore, hcut⟩
  · exact ⟨g, hg, hgf, hstop⟩
  exfalso
  rcases List.mem_append.1 (mem_of_mem_outermost hg) with hspan | hfence
  · -- the start of the fence would be in what is kept of the other ranges
    obtain ⟨k, hk, hkg, hkin, hkstop⟩ := @outermost_covers _ id _ _ hspan (by simp only [id]; omega)
    simp only [id] at hkg hkin hkstop
    rcases hkstop with hkstop | ⟨hkbefore, hkcut⟩
    · exact hstart (inSome_iff.2 ⟨k, hk, Span.holds_iff.2 ⟨by omega, by omega⟩⟩)
    · obtain ⟨g', hg', hstart', hstop'⟩ := covered_of_append hle hends hk (by omega)
      have hclash := outermost_stop_le hle' hg' hg (by omega)
      omega
  · have hclash := hc.stop_le (fun s hs => Nat.le_of_lt (hends s hs).1) hfence hf hbefore
    simp only [id] at hclash
    omega

theorem inSome_outermost_append_iff (hle : ∀ s ∈ spans, s.start ≤ s.stop)
    (hends : ∀ f ∈ fences, f.start < f.stop ∧ f.EndsOutside (outermost id spans))
    (hc : Consecutive id 0 fences) (i : Nat) :
    inSome (outermost id (spans ++ fences)) i ↔ inSome (outermost id spans) i ∨ inSome fences i := by
  have hle' := start_le_of_mem_append hle hends
  simp only [inSome_iff, Span.holds_iff]
  constructor
  · rintro ⟨g, hg, hstart, hstop⟩
    rcases List.mem_append.1 (mem_of_mem_outermost hg) with hspan | hfence
    · obtain ⟨k, hk, hkg, hin, hcut⟩ := @outermost_covers _ id _ _ hspan (by simp only [id]; omega)
      simp only [id] at hkg hin hcut
      rcases hcut with hhidden | ⟨hbefore, -⟩
      · exact .inl ⟨k, hk, by omega, by omega⟩
      · -- what covers the kept range would clash with the one that it cuts
        obtain ⟨g', hg', hstart', hstop'⟩ := covered_of_append hle hends hk (by omega)
        have hclash := outermost_stop_le hle' hg' hg (by omega)
        omega
    · exact .inr ⟨g, hfence, hstart, hstop⟩
  · rintro (⟨k, hk, hstart, hstop⟩ | ⟨f, hf, hstart, hstop⟩)
    · obtain ⟨g, hg, hgk, hkg⟩ := covered_of_append hle hends hk (by omega)
      exact ⟨g, hg, by omega, by omega⟩
    · obtain ⟨g, hg, hgf, hfg⟩ := covered_of_mem_append hle hends hc hf
      exact ⟨g, hg, by omega, by omega⟩

end

section

variable {document : Text} {opaqueSpans : List Span}

theorem not_holds_of_mem_fences (hf : ∀ s ∈ opaqueSpans, s.FitsIn document) {shields : List Span}
    {s : Span}
    (hs : s ∈ Expression.scan shields 0 false 0 (hideOpaque document opaqueSpans).text) {f : Span}
    (hfence : f ∈ (hideOpaque document opaqueSpans).fences) :
    ¬ f.holds s.start ∧ ¬ f.holds (s.stop - 1) := by
  have hidden {i : Nat} (hi : f.holds i) :
      inSome (outermost id (opaqueSpans ++ (hideOpaque document opaqueSpans).fences)) i := by
    apply (inSome_outermost_append_iff (fun s hs => (hf s hs).start_le)
      (fun f hmem => endsOutside_of_mem_fences hf hmem) (Fence.consecutive_mathFences _) i).2
    exact .inr (inSome_iff.2 ⟨f, hfence, hi⟩)
  obtain ⟨-, hout, hout'⟩ := scan_hidden_spec hf hs
  exact ⟨fun hi => hout (hidden hi), fun hi => hout' (hidden hi)⟩

end

namespace MarkdownEvent

/-- One event ends before another one starts, and before the line of that one if it is indented code,
to which its indentation belongs. -/
def Precedes (document : Text) (a b : MarkdownEvent) : Prop :=
  a.span.stop ≤ b.span.start ∧ (b.isIndented → a.span.stop ≤ lineStart document b.span.start)

instance (document : Text) (a b : MarkdownEvent) : Decidable (a.Precedes document b) :=
  inferInstanceAs (Decidable (_ ∧ (_ → _)))

def nodeSpan (document : Text) (e : MarkdownEvent) : Span :=
  match e.kind with
  | .blockStart kind => withoutLineEnds document (OpenBlock.opened document kind e.span).span
  | _ => e.span

variable {document : Text}

theorem stop_nodeSpan_le {e : MarkdownEvent} (h : e.span.FitsIn document) :
    (e.nodeSpan document).stop ≤ e.span.stop := by
  obtain ⟨kind, s⟩ := e
  cases kind with
  | blockStart kind =>
    obtain ⟨n, hn, -, htrim⟩ := exists_withoutLineEnds (OpenBlock.fitsIn_opened kind h).1
    change (withoutLineEnds document (OpenBlock.opened document kind s).span).stop ≤ s.stop
    rw [hn]
    exact Nat.le_trans htrim.le_stop (Nat.le_of_eq (OpenBlock.stop_opened document kind s))
  | text | blockEnd | code | math | html | other => exact Nat.le_refl _

theorem Precedes.nodeSpan {a b : MarkdownEvent} (h : a.Precedes document b)
    (ha : a.span.FitsIn document) :
    (a.nodeSpan document).stop ≤ (b.nodeSpan document).start := by
  obtain ⟨hle, hline⟩ := h
  have hstop := stop_nodeSpan_le ha
  obtain ⟨kind, s⟩ := b
  cases kind with
  | blockStart kind =>
    cases kind with
    | code info =>
      cases info with
      | some info => exact Nat.le_trans hstop hle
      | none =>
        have hstart : indentedStart document s.start =
            if Text.allBlank (lineHead document s.start) then lineStart document s.start
            else s.start := indentedStart_eq document s.start
        change _ ≤ indentedStart document s.start
        rw [hstart]
        split
        · exact Nat.le_trans hstop (hline rfl)
        · exact Nat.le_trans hstop hle
    | metadata dashes => exact Nat.le_trans hstop hle
  | text | blockEnd | code | math | html | other => exact Nat.le_trans hstop hle

end MarkdownEvent

namespace MarkdownPiece

variable {document : Text}

theorem span_node (p : MarkdownPiece) : (p.node document).span = p.head.nodeSpan document := by
  cases p <;> rfl

theorem kind_node_ne (p : MarkdownPiece) : (p.node document).kind ≠ .expression := by
  cases p with
  | block b =>
    rcases b.kind_close document with ⟨lang, info, h⟩ | ⟨kind, h⟩
    · exact fun hkind => NodeKind.noConfusion (h.symm.trans hkind)
    · exact fun hkind => NodeKind.noConfusion (h.symm.trans hkind)
  | code s => exact fun h => NodeKind.noConfusion h
  | math display s => exact fun h => NodeKind.noConfusion h
  | html s => exact fun h => NodeKind.noConfusion h

end MarkdownPiece

namespace Span

theorem Nested.refl (a : Span) : a.Nested a := by
  refine .inr (.inl ?_)
  simp only [contains, Nat.le_refl, decide_true, Bool.and_self]

theorem Nested.symm {a b : Span} (h : a.Nested b) : b.Nested a := by
  rcases h with h | h | h
  · left
    rw [Apart] at h ⊢
    omega
  · exact .inr (.inr h)
  · exact .inr (.inl h)

theorem nested_of_stop_le {a b : Span} (h : a.stop ≤ b.start) : a.Nested b := by
  left
  rw [Apart]
  omega

/-- A range that starts outside another one overlaps it in part exactly if its last byte is in the
other, which goes on behind it. -/
theorem not_nested_iff {a b : Span} (ha : a.start < a.stop) (hb : b.start < b.stop)
    (hstart : ¬ b.holds a.start) :
    ¬ a.Nested b ↔ b.holds (a.stop - 1) ∧ a.stop < b.stop := by
  rw [holds_iff] at hstart
  simp only [Nested, Apart, contains, holds_iff, Bool.and_eq_true, decide_eq_true_eq]
  omega

end Span

theorem nested_of_pairwise (span : α → Span) {as : List α}
    (h : as.Pairwise fun a b => (span a).stop ≤ (span b).start) :
    ∀ a ∈ as, ∀ b ∈ as, (span a).Nested (span b) := by
  have : Std.Symm fun a b : α => (span a).Nested (span b) := ⟨fun _ _ hab => hab.symm⟩
  exact List.Pairwise.forall_of_forall (fun a _ => Span.Nested.refl (span a))
    (h.imp Span.nested_of_stop_le)

section

variable {events : Text → List MarkdownEvent} {document : Text} {opaqueSpans : List Span}

def foundNodes (events : Text → List MarkdownEvent) (document : Text) (opaqueSpans : List Span) :
    List Node :=
  markdownNodes document (events (hideOpaque document opaqueSpans).text)

def expressionNodes (events : Text → List MarkdownEvent) (document : Text)
    (opaqueSpans : List Span) : List Node :=
  let masked := hideOpaque document opaqueSpans
  expressions document masked.text ((sortNodes (structureNodes document masked events)).map Node.span)

theorem mem_parseWith {tags : List Text} {nodes : List Node}
    (h : parseWith events document opaqueSpans tags = .ok nodes) {n : Node} (hn : n ∈ nodes) :
    n ∈ structureNodes document (hideOpaque document opaqueSpans) events ∨
      n ∈ expressionNodes events document opaqueSpans :=
  (mem_of_parseWith_eq_ok h).1 hn

theorem mem_structureNodes_iff {n : Node} :
    n ∈ structureNodes document (hideOpaque document opaqueSpans) events ↔
      (∃ f ∈ (hideOpaque document opaqueSpans).fences, fenceNode document f = n) ∨
        n ∈ foundNodes events document opaqueSpans := by
  rw [structureNodes, List.mem_append, List.mem_map]
  rfl

theorem kind_ne_of_mem_foundNodes {n : Node} (h : n ∈ foundNodes events document opaqueSpans) :
    n.kind ≠ .expression := by
  rw [foundNodes, markdownNodes_eq_map] at h
  obtain ⟨p, -, rfl⟩ := List.mem_map.1 h
  exact p.kind_node_ne

theorem kind_ne_of_mem_structureNodes {n : Node}
    (h : n ∈ structureNodes document (hideOpaque document opaqueSpans) events) :
    n.kind ≠ .expression := by
  rcases mem_structureNodes_iff.1 h with ⟨f, -, rfl⟩ | hfound
  · exact fun hkind => NodeKind.noConfusion hkind
  · exact kind_ne_of_mem_foundNodes hfound

theorem kind_of_mem_expressionNodes {n : Node}
    (h : n ∈ expressionNodes events document opaqueSpans) : n.kind = .expression := by
  obtain ⟨s, -, rfl⟩ := List.mem_map.1 h
  rfl

theorem nested_of_mem_fences (hf : ∀ s ∈ opaqueSpans, s.FitsIn document) {f g : Span}
    (hfence : f ∈ (hideOpaque document opaqueSpans).fences)
    (hfence' : g ∈ (hideOpaque document opaqueSpans).fences) : f.Nested g := by
  have hle : ∀ s ∈ (hideOpaque document opaqueSpans).fences, s.start ≤ s.stop :=
    fun s hs => (enclosedBy_of_mem_fences hf hs).1.fitsIn.start_le
  exact nested_of_pairwise id ((Fence.consecutive_mathFences _).pairwise_stop_le hle) f hfence g hfence'

theorem nested_of_mem_expressionNodes (hf : ∀ s ∈ opaqueSpans, s.FitsIn document) {m n : Node}
    (hm : m ∈ expressionNodes events document opaqueSpans)
    (hn : n ∈ expressionNodes events document opaqueSpans) : m.span.Nested n.span := by
  have hc := Expression.consecutive_scan
    ((sortNodes (structureNodes document (hideOpaque document opaqueSpans) events)).map Node.span)
    0 false 0 (hideOpaque document opaqueSpans).text
  refine nested_of_pairwise Node.span (List.pairwise_map.2 (hc.pairwise_stop_le ?_)) m hm n
    hn
  exact fun s hs => (enclosedBy_of_mem_scan_hidden hf hs).fitsIn.start_le

theorem pairwise_sortNodes (nodes : List Node) :
    (sortNodes nodes).Pairwise fun m n => m.span.start ≤ n.span.start :=
  pairwise_stableSort_key (fun n : Node => n.span.start) nodes

theorem not_holds_start {m n : Node} (hm : m ∈ expressionNodes events document opaqueSpans)
    (hn : n ∈ structureNodes document (hideOpaque document opaqueSpans) events) :
    ¬ n.span.holds m.span.start := by
  obtain ⟨s, hs, rfl⟩ := List.mem_map.1 hm
  have hsorted := pairwise_sortNodes (structureNodes document (hideOpaque document opaqueSpans) events)
  refine (Expression.not_holds_of_mem_scan (List.pairwise_map.2 ?_) hs).2 n.span ?_
  · exact hsorted
  · exact List.mem_map_of_mem ((perm_stableSort _ _).mem_iff.2 hn)

/-- What is relied on of Markdown in what is left of a document: events are in bounds, and each with
which a node starts ends before the next such event. -/
structure MarkdownInOrder (events : Text → List MarkdownEvent) (document : Text)
    (opaqueSpans : List Span) : Prop where
  wellPlaced : ∀ e ∈ events (hideOpaque document opaqueSpans).text, e.WellPlaced document
  precedes : ((events (hideOpaque document opaqueSpans).text).filter
    MarkdownEvent.startsNode).Pairwise (MarkdownEvent.Precedes document)

instance (events : Text → List MarkdownEvent) (document : Text) (opaqueSpans : List Span) :
    Decidable (MarkdownInOrder events document opaqueSpans) :=
  decidable_of_iff
    ((∀ e ∈ events (hideOpaque document opaqueSpans).text, e.WellPlaced document) ∧
      ((events (hideOpaque document opaqueSpans).text).filter MarkdownEvent.startsNode).Pairwise
        (MarkdownEvent.Precedes document))
    ⟨fun ⟨hw, hp⟩ => ⟨hw, hp⟩, fun ⟨hw, hp⟩ => ⟨hw, hp⟩⟩

theorem exists_head_of_mem_foundNodes {n : Node} (h : n ∈ foundNodes events document opaqueSpans) :
    ∃ e ∈ (events (hideOpaque document opaqueSpans).text).filter MarkdownEvent.startsNode,
      n.span = e.nodeSpan document := by
  rw [foundNodes, markdownNodes_eq_map] at h
  obtain ⟨p, hp, rfl⟩ := List.mem_map.1 h
  exact ⟨p.head, List.mem_filter.2 ⟨(isFrom_of_mem_pieces hp).1, p.startsNode_head⟩, p.span_node⟩

theorem MarkdownInOrder.nested_foundNodes (h : MarkdownInOrder events document opaqueSpans)
    {m n : Node} (hm : m ∈ foundNodes events document opaqueSpans)
    (hn : n ∈ foundNodes events document opaqueSpans) : m.span.Nested n.span := by
  obtain ⟨a, ha, hspan⟩ := exists_head_of_mem_foundNodes hm
  obtain ⟨b, hb, hspan'⟩ := exists_head_of_mem_foundNodes hn
  rw [hspan, hspan']
  refine nested_of_pairwise (MarkdownEvent.nodeSpan document) ?_ a ha b hb
  refine h.precedes.imp_of_mem ?_
  intro a b ha _ hab
  exact hab.nodeSpan (h.wellPlaced a (List.mem_filter.1 ha).1).fitsIn

theorem nested_of_mem_expressionNodes_fences (hf : ∀ s ∈ opaqueSpans, s.FitsIn document) {m : Node}
    (hm : m ∈ expressionNodes events document opaqueSpans) {f : Span}
    (hfence : f ∈ (hideOpaque document opaqueSpans).fences) : m.span.Nested f := by
  obtain ⟨s, hs, rfl⟩ := List.mem_map.1 hm
  obtain ⟨hstart, hstop⟩ := not_holds_of_mem_fences hf hs hfence
  have hpos := ((enclosedBy_of_mem_scan_hidden hf hs).holds (List.cons_ne_nil _ _)).nonempty
  have hpos' := ((enclosedBy_of_mem_fences hf hfence).1.holds (List.cons_ne_nil _ _)).nonempty
  by_contra hnot
  exact hstop ((Span.not_nested_iff hpos hpos' hstart).1 hnot).1

/-- Two nodes of a document overlap in part in two cases only. An interpolation, which never starts
in a node of another kind, overlaps one that Markdown found exactly if the brace that closes it
stands there and the node goes on behind it; and a fence may overlap a node that Markdown found. -/
theorem nested_unless_closed_inside {tags : List Text} {nodes : List Node}
    (hf : ∀ s ∈ opaqueSpans, s.FitsIn document) (ho : MarkdownInOrder events document opaqueSpans)
    (h : parseWith events document opaqueSpans tags = .ok nodes) :
    let fences := (hideOpaque document opaqueSpans).fences
    let found := foundNodes events document opaqueSpans
    (∀ m ∈ nodes, ∀ n ∈ nodes, m.kind = .expression →
      (n.kind ≠ .expression → ¬ n.span.holds m.span.start) ∧
      (¬ m.span.Nested n.span ↔
        n ∈ found ∧ n.span.holds (m.span.stop - 1) ∧ m.span.stop < n.span.stop)) ∧
    ∀ m ∈ nodes, ∀ n ∈ nodes, m.kind ≠ .expression → n.kind ≠ .expression →
      ¬ m.span.Nested n.span →
        m.span ∈ fences ∧ n ∈ found ∨ n.span ∈ fences ∧ m ∈ found := by
  intro fences found
  have hholds := holds_of_mem_parseWith hf ho.wellPlaced h
  have expression {n : Node} (hn : n ∈ nodes) (hkind : n.kind = .expression) :
      n ∈ expressionNodes events document opaqueSpans :=
    (mem_parseWith h hn).resolve_left fun hs => kind_ne_of_mem_structureNodes hs hkind
  have structural {n : Node} (hn : n ∈ nodes) (hkind : n.kind ≠ .expression) :
      n ∈ structureNodes document (hideOpaque document opaqueSpans) events :=
    (mem_parseWith h hn).resolve_right fun he => hkind (kind_of_mem_expressionNodes he)
  constructor
  · intro m hm n hn hkind
    have hexpr := expression hm hkind
    by_cases hn' : n.kind = .expression
    · have hnested := nested_of_mem_expressionNodes hf hexpr (expression hn hn')
      refine ⟨fun hne => absurd hn' hne, fun hnot => absurd hnested hnot, ?_⟩
      rintro ⟨hfound, -⟩
      exact absurd hn' (kind_ne_of_mem_foundNodes hfound)
    · have hstructure := structural hn hn'
      have hstart := not_holds_start hexpr hstructure
      have hiff := Span.not_nested_iff (hholds m hm).nonempty (hholds n hn).nonempty hstart
      refine ⟨fun _ => hstart, fun hnot => ⟨?_, hiff.1 hnot⟩, fun hin => hiff.2 hin.2⟩
      rcases mem_structureNodes_iff.1 hstructure with ⟨f, hfence, rfl⟩ | hfound
      · exact absurd (nested_of_mem_expressionNodes_fences hf hexpr hfence) hnot
      · exact hfound
  · intro m hm n hn hm' hn' hnot
    rcases mem_structureNodes_iff.1 (structural hm hm') with ⟨f, hfence, rfl⟩ | hfound
    · rcases mem_structureNodes_iff.1 (structural hn hn') with ⟨g, hfence', rfl⟩ | hfound'
      · exact absurd (nested_of_mem_fences hf hfence hfence') hnot
      · exact .inl ⟨hfence, hfound'⟩
    · rcases mem_structureNodes_iff.1 (structural hn hn') with ⟨g, hfence', rfl⟩ | hfound'
      · exact .inr ⟨hfence', hfound⟩
      · exact absurd (ho.nested_foundNodes hfound hfound') hnot

/-- Two backticks on each side of a brace are no string, so that the brace closes the interpolation
before them, while the one in the hidden element does not. -/
theorem nested_unless_closed_inside_code :
    let document := "\x7b``\x7d`` \x7b<Tex>\x7d</Tex>\x7d".toList
    let opaqueSpans : List Span := [⟨8, 20⟩]
    let expression : Node := ⟨.expression, ⟨0, 4⟩, "``".toList⟩
    let code : Node := ⟨.inlineCode, ⟨1, 6⟩, ['\x7d']⟩
    let other : Node := ⟨.expression, ⟨7, 21⟩, "<Tex>\x7d</Tex>".toList⟩
    (∀ s ∈ opaqueSpans, s.FitsIn document) ∧
      MarkdownInOrder Markdown.events document opaqueSpans ∧
      parse document opaqueSpans ["Tex".toList] = .ok [expression, code, other] ∧
      ¬ expression.span.Nested code.span ∧ expression.span.Nested other.span := by
  intro document opaqueSpans expression code other
  have hf : ∀ s ∈ opaqueSpans, s.FitsIn document := by decide
  have ho : MarkdownInOrder Markdown.events document opaqueSpans := by decide +kernel
  have hok : parse document opaqueSpans ["Tex".toList] = .ok [expression, code, other] :=
    parseWith_of_toOption (by decide +kernel)
  have hfound : code ∈ foundNodes Markdown.events document opaqueSpans := by decide +kernel
  have hall := (nested_unless_closed_inside hf ho hok).1
  refine ⟨hf, ho, hok, ?_, ?_⟩
  · exact (hall expression (by simp) code (by simp) rfl).2.2 ⟨hfound, by decide, by decide⟩
  · by_contra hnot
    exact absurd ((hall expression (by simp) other (by simp) rfl).2.1 hnot).2 (by decide)

-- dollars on lines of code in a list item are a fence too, which goes on behind the code
example : (parse "- ```\n  $$\n\n  $$\n".toList [] []).toOption.map (List.map Node.span) =
    some [⟨2, 10⟩, ⟨8, 16⟩] := by decide +kernel

end

end Cloak
