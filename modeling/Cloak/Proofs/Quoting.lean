import Mathlib.Order.Monotone.Basic
import Cloak.Proofs.Degrading
import Cloak.Proofs.Independence

namespace Cloak

namespace Quote

/-- What stands in front of a line in a block quote. -/
def marker : Text :=
  "> ".toList

/-- A text that goes on, with a marker behind each of its line feeds. -/
def inside (t : Text) : Text :=
  t.flatMap fun c => if c = '\n' then '\n' :: marker else [c]

/-- The rest of a line and the lines behind it, with a marker in front of each of these. -/
def behind : Text → Text
  | [] => []
  | c :: cs => if c = '\n' ∧ cs ≠ [] then '\n' :: (marker ++ behind cs) else c :: behind cs

theorem inside_cons (c : Char) (t : Text) :
    inside (c :: t) = (if c = '\n' then '\n' :: marker else [c]) ++ inside t :=
  List.flatMap_cons

theorem inside_append (a b : Text) : inside (a ++ b) = inside a ++ inside b :=
  List.flatMap_append

theorem inside_eq_self {t : Text} (h : '\n' ∉ t) : inside t = t := by
  induction t with
  | nil => rfl
  | cons c t ih =>
    obtain ⟨hc, ht⟩ := not_or.1 (mt List.mem_cons.2 h)
    rw [inside_cons, if_neg (Ne.symm hc), ih ht, List.singleton_append]

theorem size_inside (t : Text) : (inside t).size = t.size + marker.size * t.count '\n' := by
  induction t with
  | nil => rfl
  | cons c t ih =>
    rw [inside_cons, Text.size_append, ih, Text.size_cons]
    by_cases hc : c = '\n'
    · subst hc
      have hfeed : Text.size ('\n' :: marker) = Char.utf8Size '\n' + marker.size := rfl
      rw [if_pos rfl, hfeed, List.count_cons_self, Nat.mul_add]
      omega
    · rw [if_neg hc, List.count_cons_of_ne hc, Text.size_cons, Text.size_nil]
      omega

theorem count_inside (t : Text) : (inside t).count '>' = t.count '>' + t.count '\n' := by
  induction t with
  | nil => rfl
  | cons c t ih =>
    rw [inside_cons, List.count_append, ih]
    by_cases hc : c = '\n'
    · subst hc
      have hmarker : List.count '>' ('\n' :: marker) = 1 := by decide
      rw [if_pos rfl, hmarker, List.count_cons_self, List.count_cons_of_ne (by decide)]
      omega
    · rw [if_neg hc, List.count_cons_of_ne hc, List.count_cons (l := t), List.count_singleton]
      omega

theorem behind_append (a : Text) {b : Text} (hb : b ≠ []) :
    behind (a ++ b) = inside a ++ behind b := by
  induction a with
  | nil => rfl
  | cons c a ih =>
    have hne : a ++ b ≠ [] := List.append_ne_nil_of_right_ne_nil a hb
    rw [List.cons_append, behind, inside_cons, ih]
    by_cases hc : c = '\n'
    · rw [if_pos ⟨hc, hne⟩, if_pos hc, List.cons_append, List.cons_append, List.append_assoc]
    · rw [if_neg fun h => hc h.1, if_neg hc]
      rfl

theorem behind_eq_inside {t : Text} (h : t.getLast? ≠ some '\n') : behind t = inside t := by
  rcases List.eq_nil_or_concat t with rfl | ⟨a, c, rfl⟩
  · rfl
  · rw [List.concat_eq_append] at h ⊢
    rw [List.getLast?_concat] at h
    have hc : c ≠ '\n' := fun hc => h (congrArg some hc)
    rw [behind_append a (List.cons_ne_nil c []), inside_append, inside_cons, if_neg hc, behind,
      if_neg fun h => hc h.1]
    rfl

def offset (d : Text) (n : Nat) : Nat :=
  n + marker.size * (1 + ((d.before? n).getD []).count '\n')

theorem offset_append (a b : Text) :
    offset (a ++ b) a.size = Text.size (marker ++ inside a) := by
  rw [offset, Text.before?_append, Option.getD_some, Text.size_append, size_inside, Nat.mul_add]
  omega

theorem strictMonoOn_offset (d : Text) : StrictMonoOn (offset d) {n | d.isBoundary n} := by
  intro m hm n hn h
  obtain ⟨a, b, rfl, rfl⟩ := Text.isBoundary_iff.1 hm
  obtain ⟨a', b', hd, rfl⟩ := Text.isBoundary_iff.1 hn
  obtain ⟨k, rfl, -⟩ := Text.append_eq_append_of_size_le hd (Nat.le_of_lt h)
  rw [offset_append, hd, offset_append, inside_append]
  rw [Text.size_append] at h
  simp only [Text.size_append, size_inside k]
  omega

end Quote

/-- A document with a marker in front of every line. -/
def quote (d : Text) : Text :=
  Quote.marker ++ Quote.behind d

namespace Quote

def span (d : Text) (s : Span) : Span :=
  ⟨offset d s.start, offset d s.stop⟩

/-- A range that ends in a character of its last line has all its text in the quote, with the
markers of the lines that begin in it. -/
theorem text?_quote {d t : Text} {s : Span} (h : s.text? d = some t) (hne : t ≠ [])
    (hlast : t.getLast? ≠ some '\n') : (span d s).text? (quote d) = some (inside t) := by
  obtain ⟨a, c, rfl, hstart, hstop⟩ := Text.slice?_eq_some_iff.1 h
  -- the last line feed of a document has no marker behind it, but the range does not end in one
  have hquote : ∃ c', quote (a ++ (t ++ c)) = marker ++ inside a ++ (inside t ++ c') := by
    rw [quote, behind_append a (List.append_ne_nil_of_left_ne_nil hne c), ← List.append_assoc]
    by_cases hc : c = []
    · rw [hc, List.append_nil, behind_eq_inside hlast]
      exact ⟨[], by rw [List.append_nil]⟩
    · rw [behind_append t hc]
      exact ⟨behind c, rfl⟩
  obtain ⟨c', hquote⟩ := hquote
  have hend : offset (a ++ (t ++ c)) s.stop =
      Text.size (marker ++ inside a) + Text.size (inside t) := by
    rw [hstop, ← Text.size_append, ← Text.size_append, ← List.append_assoc a t c, offset_append,
      inside_append, List.append_assoc]
  rw [Span.text?, span, hstart, offset_append, hend, hquote]
  exact Text.slice?_append _ _ _

def piece (d : Text) : MarkdownPiece → MarkdownPiece
  | .block b => .block ⟨b.kind, span d b.span, b.texts.map (span d)⟩
  | .code s => .code (span d s)
  | .math display s => .math display (span d s)
  | .html s => .html (span d s)

theorem kind_piece (d : Text) (p : MarkdownPiece) : (piece d p).head.kind = p.head.kind := by
  cases p <;> rfl

theorem span_piece (d : Text) (p : MarkdownPiece) : (piece d p).head.span = span d p.head.span := by
  cases p <;> rfl

end Quote

/-- Code and math in a line: what kind of structure it is, what stands at both of its ends, and its
content. -/
inductive Delimits : MarkdownKind → Text → Text → Prop where
  | code (n : Nat) (c : Char) (t : Text) (h : c ≠ '`') :
    Delimits .code (Text.repeated (n + 1) '`') (c :: t)
  | math (display : Bool) (t : Text) :
    Delimits (.math display) (Text.repeated (if display then 2 else 1) '$') t

theorem Text.mem_repeated {n : Nat} {c d : Char} (h : d ∈ Text.repeated n c) : d = c :=
  List.eq_of_mem_replicate h

theorem Text.size_repeated (n : Nat) (c : Char) :
    Text.size (Text.repeated n c) = n * c.utf8Size := by
  induction n with
  | zero => exact (Nat.zero_mul _).symm
  | succ n ih =>
    rw [Text.repeated] at ih ⊢
    rw [List.replicate_succ, Text.size_cons, ih, Nat.succ_mul, Nat.add_comm]

namespace Delimits

variable {kind : MarkdownKind} {w t : Text}

theorem exists_repeated (h : Delimits kind w t) :
    ∃ n c, w = Text.repeated (n + 1) c ∧ c ≠ '\n' := by
  cases h with
  | code n c t h => exact ⟨n, '`', rfl, by decide⟩
  | math display t =>
    cases display with
    | false => exact ⟨0, '$', rfl, by decide⟩
    | true => exact ⟨1, '$', rfl, by decide⟩

theorem not_feed_mem (h : Delimits kind w t) : '\n' ∉ w := by
  obtain ⟨n, c, rfl, hc⟩ := h.exists_repeated
  exact fun hmem => hc (Text.mem_repeated hmem).symm

theorem inside_text (h : Delimits kind w t) :
    Quote.inside (w ++ (t ++ w)) = w ++ (Quote.inside t ++ w) := by
  rw [Quote.inside_append, Quote.inside_append, Quote.inside_eq_self h.not_feed_mem]

theorem count_feed_text (h : Delimits kind w t) : (w ++ (t ++ w)).count '\n' = t.count '\n' := by
  rw [List.count_append, List.count_append, List.count_eq_zero_of_not_mem h.not_feed_mem]
  omega

theorem text_ne_nil (h : Delimits kind w t) : w ++ (t ++ w) ≠ [] := by
  obtain ⟨n, c, rfl, -⟩ := h.exists_repeated
  exact List.cons_ne_nil _ _

theorem getLast?_text (h : Delimits kind w t) : (w ++ (t ++ w)).getLast? ≠ some '\n' := by
  obtain ⟨n, c, rfl, hc⟩ := h.exists_repeated
  have hw : Text.repeated (n + 1) c = Text.repeated n c ++ [c] := List.replicate_succ'
  rw [← List.append_assoc, hw, ← List.append_assoc, List.getLast?_concat]
  exact fun h => hc (Option.some.inj h)

theorem inside (h : Delimits kind w t) : Delimits kind w (Quote.inside t) := by
  cases h with
  | code n c t h =>
    rw [Quote.inside_cons]
    split
    · exact .code n '\n' _ (by decide)
    · exact .code n c _ h
  | math display t => exact .math display _

end Delimits

theorem count_endsToSpaces (t : Text) : (endsToSpaces t).count '>' = t.count '>' := by
  fun_induction endsToSpaces t with
  | case1 => rfl
  | case2 cs ih =>
    rw [List.count_cons_of_ne (by decide), List.count_cons_of_ne (by decide),
      List.count_cons_of_ne (by decide), ih]
  | case3 c cs hreturn ih =>
    split
    · rename_i hc
      rw [hc, List.count_cons_of_ne (by decide), List.count_cons_of_ne (by decide), ih]
    · rw [List.count_cons, List.count_cons, ih]

theorem codeSpanInner_text (n : Nat) {c : Char} (hc : c ≠ '`') (t : Text) :
    codeSpanInner (Text.repeated (n + 1) '`' ++ (c :: t ++ Text.repeated (n + 1) '`')) =
      endsToSpaces (c :: t) := by
  have hsize : Text.size (Text.repeated (n + 1) '`') = n + 1 := by
    rw [Text.size_repeated]
    exact Nat.mul_one _
  have hticks : ((Text.repeated (n + 1) '`' ++ (c :: t ++ Text.repeated (n + 1) '`')).takeWhile
      (· == '`')).length = Text.size (Text.repeated (n + 1) '`') := by
    rw [Text.takeWhile_append_stop, hsize]
    · exact List.length_replicate
    · intro d hd
      rw [Text.mem_repeated hd]
      rfl
    · exact Text.stopsBy_cons_iff.2 (beq_false_of_ne hc)
  have hstop : Text.size (Text.repeated (n + 1) '`' ++ (c :: t ++ Text.repeated (n + 1) '`')) -
      Text.size (Text.repeated (n + 1) '`') =
        Text.size (Text.repeated (n + 1) '`') + Text.size (c :: t) := by
    simp only [Text.size_append]
    omega
  rw [codeSpanInner]
  simp only [hticks, hstop]
  rw [Text.slice?_append, Option.getD_some]

theorem count_codeSpanValue (raw : Text) :
    (codeSpanValue raw).count '>' = (codeSpanInner raw).count '>' := by
  rcases codeSpanValue_cases raw with h | h
  · rw [h]
  · rw [h, List.count_cons_of_ne (by decide), List.count_append]
    rfl

theorem mathNode_value {d t : Text} {display : Bool} {s : Span}
    (h : s.text? d = some (Text.repeated (if display then 2 else 1) '$' ++
      (t ++ Text.repeated (if display then 2 else 1) '$'))) :
    (mathNode d display s).value = t := by
  have hsize : Text.size (Text.repeated (if display then 2 else 1) '$') =
      if display then 2 else 1 := by
    rw [Text.size_repeated]
    exact Nat.mul_one _
  rw [mathNode]
  generalize hw : Text.repeated (if display then 2 else 1) '$' = w at h hsize
  simp only [← hsize]
  obtain ⟨a, c, rfl, hstart, hstop⟩ := Text.slice?_eq_some_iff.1 h
  have hend : s.stop - Text.size w = Text.size (a ++ w) + Text.size t := by
    simp only [hstop, Text.size_append]
    omega
  have hsplit : a ++ (w ++ (t ++ w) ++ c) = a ++ w ++ (t ++ (w ++ c)) := by
    simp only [List.append_assoc]
  rw [hend, hstart, ← Text.size_append, hsplit, Text.slice, Text.slice?_append, Option.getD_some]

def Node.isInlineText (n : Node) : Bool :=
  match n.kind with
  | .inlineCode | .math _ => true
  | .code .. | .frontmatter _ | .expression | .html => false

/-- A node of a document and a node of its quote: they are of one kind and at one place, and the
value of the second one has a marker more for each line feed of the first one. -/
structure Node.QuotedAs (d : Text) (n n' : Node) : Prop where
  kind_eq : n'.kind = n.kind
  span_eq : n'.span = Quote.span d n.span
  value_eq_iff : n'.value = n.value ↔ '\n' ∉ n.span.text d
  count_value : n'.value.count '>' = n.value.count '>' + (n.span.text d).count '\n'
  math_value : ∀ display, n.kind = .math display → n'.value = Quote.inside n.value

namespace MarkdownPiece

def isInlineText : MarkdownPiece → Bool
  | code _ | math _ _ => true
  | block _ | html _ => false

theorem isInlineText_node (d : Text) (p : MarkdownPiece) :
    (p.node d).isInlineText = p.isInlineText := by
  cases p with
  | block b =>
    rw [node, Node.isInlineText]
    rcases b.kind_close d with ⟨lang, info, h⟩ | ⟨kind, h⟩
    · rw [h]
      rfl
    · rw [h]
      rfl
  | code s => rfl
  | math display s => rfl
  | html s => rfl

/-- A piece is code or math between its delimiters. -/
def IsDelimited (d : Text) (p : MarkdownPiece) : Prop :=
  ∃ w t, Delimits p.head.kind w t ∧ p.head.span.text? d = some (w ++ (t ++ w))

end MarkdownPiece

namespace Delimits

variable {d d' w t : Text} {p p' : MarkdownPiece}

theorem span_node (h : Delimits p.head.kind w t) (d : Text) : (p.node d).span = p.head.span := by
  cases p with
  | block b => cases h
  | code s => rfl
  | math display s => rfl
  | html s => rfl

theorem kind_node (h : Delimits p.head.kind w t) (hkind : p'.head.kind = p.head.kind) :
    (p'.node d').kind = (p.node d).kind := by
  cases p with
  | block b => cases h
  | code s => cases p' <;> cases hkind; rfl
  | math display s => cases p' <;> cases hkind; rfl
  | html s => cases h

theorem count_value (h : Delimits p.head.kind w t)
    (ht : p.head.span.text? d = some (w ++ (t ++ w))) :
    (p.node d).value.count '>' = t.count '>' := by
  cases p with
  | block b => cases h
  | code s =>
    cases h with
    | code n c t h =>
      have htext : s.text d = _ := Span.text_eq_of_text? ht
      change (codeSpanValue (s.text d)).count '>' = _
      rw [htext, count_codeSpanValue, codeSpanInner_text n h, count_endsToSpaces]
  | math display s =>
    cases h with
    | math display t => exact congrArg (List.count '>') (mathNode_value ht)
  | html s => cases h

theorem value_congr (h : Delimits p.head.kind w t) (hkind : p'.head.kind = p.head.kind)
    (ht : p.head.span.text? d = some (w ++ (t ++ w)))
    (ht' : p'.head.span.text? d' = some (w ++ (t ++ w))) :
    (p'.node d').value = (p.node d).value := by
  cases p with
  | block b => cases h
  | code s =>
    cases p' <;> cases hkind
    rename_i s'
    have htext : s.text d = _ := Span.text_eq_of_text? ht
    have htext' : s'.text d' = _ := Span.text_eq_of_text? ht'
    change codeSpanValue (s'.text d') = codeSpanValue (s.text d)
    rw [htext', htext]
  | math display s =>
    cases p' <;> cases hkind
    cases h with
    | math display t => exact (mathNode_value ht').trans (mathNode_value ht).symm
  | html s => cases h

theorem value_math (h : Delimits p.head.kind w t) {display : Bool}
    (hmath : (p.node d).kind = .math display)
    (ht : p.head.span.text? d = some (w ++ (t ++ w))) : (p.node d).value = t := by
  cases p with
  | block b => cases h
  | code s => cases hmath
  | math display s =>
    cases h with
    | math display t => exact mathNode_value ht
  | html s => cases h

end Delimits

theorem MarkdownPiece.IsDelimited.isBoundary_start {d : Text} {p : MarkdownPiece}
    (h : p.IsDelimited d) : d.isBoundary (p.node d).span.start := by
  obtain ⟨w, t, h, ht⟩ := h
  have hfit : p.head.span.FitsIn d := ⟨_, ht⟩
  rw [h.span_node d]
  exact hfit.isBoundary_start

theorem MarkdownPiece.IsDelimited.quotedAs {d : Text} {p : MarkdownPiece} (h : p.IsDelimited d) :
    Node.QuotedAs d (p.node d) ((Quote.piece d p).node (quote d)) := by
  obtain ⟨w, t, h, ht⟩ := h
  have hkind := Quote.kind_piece d p
  have hspan := Quote.span_piece d p
  have ht' : (Quote.piece d p).head.span.text? (quote d) = some (w ++ (Quote.inside t ++ w)) := by
    rw [hspan, ← h.inside_text]
    exact Quote.text?_quote ht h.text_ne_nil h.getLast?_text
  have hinside : Delimits (Quote.piece d p).head.kind w (Quote.inside t) := hkind ▸ h.inside
  have htext : (p.node d).span.text d = w ++ (t ++ w) := by
    rw [h.span_node, Span.text_eq_of_text? ht]
  have hcount : ((Quote.piece d p).node (quote d)).value.count '>' =
      (p.node d).value.count '>' + ((p.node d).span.text d).count '\n' := by
    rw [hinside.count_value ht', Quote.count_inside, h.count_value ht, htext, h.count_feed_text]
  refine ⟨h.kind_node hkind, ?_, ⟨?_, ?_⟩, hcount, ?_⟩
  · rw [hinside.span_node, h.span_node, hspan]
  · intro heq
    rw [heq] at hcount
    exact List.count_eq_zero.1 (by omega)
  · intro hline
    rw [htext] at hline
    have hself : Quote.inside t = t := by
      refine Quote.inside_eq_self fun hmem => hline ?_
      exact List.mem_append_right w (List.mem_append_left w hmem)
    rw [hself] at ht'
    exact h.value_congr hkind ht ht'
  · intro display hmath
    have hmath' : ((Quote.piece d p).node (quote d)).kind = .math display :=
      (h.kind_node hkind).trans hmath
    rw [hinside.value_math hmath' ht', h.value_math hmath ht]

/-- A line of a quote, or what is behind the last line of it. -/
def IsQuoteLine (line : Text) : Prop :=
  line = [] ∨ line.head? = some '>'

theorem IsQuoteLine.trimEndBy {p : Char → Bool} (hp : p '>' = false) {line : Text}
    (h : IsQuoteLine line) : IsQuoteLine (line.trimEndBy p) := by
  rcases h with rfl | h
  · exact .inl rfl
  · obtain ⟨t, rfl⟩ := List.head?_eq_some_iff.1 h
    right
    rw [Text.trimEndBy]
    cases Text.trimEndBy p t with
    | nil => rw [hp]; rfl
    | cons c t => rfl

namespace Fence

theorem State.line_of_isQuoteLine {s : State} (hs : s.math = none) {line : Text}
    (h : IsQuoteLine line) (n : Nat) : s.line n line = (s, none) := by
  have hline : codeMark? line = none ∧ isDollars line = false := by
    rcases h with rfl | h
    · exact ⟨rfl, rfl⟩
    · obtain ⟨t, rfl⟩ := List.head?_eq_some_iff.1 h
      exact ⟨by simp [codeMark?], by simp [isDollars]⟩
  rw [State.line, hs]
  simp only [hline.1, hline.2, Bool.and_false, Bool.false_eq_true, if_false]

theorem readLines_eq_nil {s : State} (hs : s.math = none) {offset : Nat} {lines : List Text}
    (h : ∀ line ∈ lines, IsQuoteLine line) : readLines s offset lines = [] := by
  induction lines generalizing offset with
  | nil => rfl
  | cons raw lines ih =>
    obtain ⟨hraw, hlines⟩ := List.forall_mem_cons.1 h
    have hbody : IsQuoteLine (body raw) := hraw.trimEndBy (by decide)
    have hindent : (body raw).takeWhile (· == ' ') = [] := by
      rcases hbody with hb | hb
      · rw [hb]
        rfl
      · obtain ⟨t, ht⟩ := List.head?_eq_some_iff.1 hb
        rw [ht]
        rfl
    have hstep (n : Nat) : s.line n (Text.trimEndBy isBlank (body raw)) = (s, none) :=
      State.line_of_isQuoteLine hs (hbody.trimEndBy (by decide)) n
    rw [readLines]
    simp only [hindent, List.length_nil, Nat.not_lt_zero, if_false, List.drop_zero, hstep]
    exact ih hlines

end Fence

namespace Quote

theorem rawLines_behind (t : Text) : ∃ l lines, Text.rawLines (behind t) = l :: lines ∧
    ∀ line ∈ lines, IsQuoteLine line := by
  induction t with
  | nil => exact ⟨[], [], rfl, List.forall_mem_nil _⟩
  | cons c t ih =>
    obtain ⟨l, lines, hl, hlines⟩ := ih
    rw [behind]
    split
    · rename_i hc
      refine ⟨[], ('>' :: ' ' :: l) :: lines, ?_, List.forall_mem_cons.2 ⟨.inr rfl, hlines⟩⟩
      have hmarked : Text.rawLines (marker ++ behind t) = ('>' :: ' ' :: l) :: lines := by
        change Text.rawLines ('>' :: ' ' :: behind t) = _
        simp only [Text.rawLines, hl, Char.reduceEq, if_false]
      rw [Text.rawLines, if_pos rfl, hmarked]
    · rename_i hc
      rw [Text.rawLines, hl]
      by_cases hfeed : c = '\n'
      · have ht : t = [] := by
          by_contra ht
          exact hc ⟨hfeed, ht⟩
        rw [ht] at hl
        cases hl
        rw [if_pos hfeed]
        exact ⟨[], [[]], rfl, List.forall_mem_singleton.2 (.inl rfl)⟩
      · rw [if_neg hfeed]
        exact ⟨c :: l, lines, rfl, hlines⟩

theorem mathFences_quote (d : Text) : mathFences (quote d) = [] := by
  obtain ⟨l, lines, hl, hlines⟩ := rawLines_behind d
  have hquote : Text.rawLines (quote d) = ('>' :: ' ' :: l) :: lines := by
    change Text.rawLines ('>' :: ' ' :: behind d) = _
    simp only [Text.rawLines, hl, Char.reduceEq, if_false]
  rw [mathFences, hquote]
  exact Fence.readLines_eq_nil rfl (List.forall_mem_cons.2 ⟨.inr rfl, hlines⟩)

end Quote

section

variable {events : Text → List MarkdownEvent} {d : Text}

/-- The code and the math in lines that Markdown tells of a text. -/
def inlinePieces (events : Text → List MarkdownEvent) (t : Text) : List MarkdownPiece :=
  (pieces (events t)).filter MarkdownPiece.isInlineText

/-- What is relied on of a single paragraph of plain text, code spans and math in dollars: code and
math stand between delimiters, there are no fences, and in a quote of it the same is found. -/
structure IsParagraph (events : Text → List MarkdownEvent) (d : Text) : Prop where
  delimited : ∀ p ∈ inlinePieces events d, p.IsDelimited d
  noFence : mathFences d = []
  quoted : inlinePieces events (quote d) = (inlinePieces events d).map (Quote.piece d)

theorem hideOpaque_nil (h : mathFences d = []) : hideOpaque d [] = ⟨d, []⟩ := by
  have hmask : mask d [] = d := by
    change (d.from? 0).getD [] = d
    rw [Text.from?, Text.splitAt?_zero]
    rfl
  rw [hideOpaque]
  simp only [hmask, h]
  rfl

theorem exists_parseWith_filter (hfence : mathFences d = []) :
    ∃ ns, parseWith events d [] [] = .ok ns ∧ ns.filter Node.isInlineText =
      sortNodes ((inlinePieces events d).map (MarkdownPiece.node d)) := by
  refine ⟨_, rfl, ?_⟩
  rw [hideOpaque_nil hfence, sortNodes, filter_stableSort (decide_key_total _) (decide_key_trans _),
    List.filter_append]
  have hnodes : (structureNodes d ⟨d, []⟩ events).filter Node.isInlineText =
      (inlinePieces events d).map (MarkdownPiece.node d) := by
    rw [structureNodes, List.map_nil, List.nil_append, markdownNodes_eq_map, List.filter_map]
    simp only [Function.comp_def, MarkdownPiece.isInlineText_node]
    rfl
  have hexpressions (shields : List Span) :
      (expressions d d shields).filter Node.isInlineText = [] := by
    refine List.filter_eq_nil_iff.2 ?_
    intro n hn
    obtain ⟨s, -, rfl⟩ := List.mem_map.1 hn
    exact Bool.false_ne_true
  rw [hnodes, hexpressions, List.append_nil]
  rfl

/-- A block quote does not change which code and math stand in a paragraph, but it changes their
values: those that go on in another line have the marker of that line in them. -/
theorem parse_quote_adds_markers (h : IsParagraph events d) :
    ∃ ns ns', parseWith events d [] [] = .ok ns ∧ parseWith events (quote d) [] [] = .ok ns' ∧
      List.Forall₂ (Node.QuotedAs d) (ns.filter Node.isInlineText)
        (ns'.filter Node.isInlineText) := by
  obtain ⟨hdelimited, hfence, hquoted⟩ := h
  obtain ⟨ns, hns, hfilter⟩ := exists_parseWith_filter hfence
  obtain ⟨ns', hns', hfilter'⟩ := exists_parseWith_filter (Quote.mathFences_quote d)
  refine ⟨ns, ns', hns, hns', ?_⟩
  rw [hfilter, hfilter', hquoted, List.map_map]
  have hnodes : List.Forall₂ (fun n n' => Node.QuotedAs d n n' ∧ d.isBoundary n.span.start)
      ((inlinePieces events d).map (MarkdownPiece.node d))
      ((inlinePieces events d).map (MarkdownPiece.node (quote d) ∘ Quote.piece d)) := by
    refine List.forall₂_map_left_iff.2 (List.forall₂_map_right_iff.2 (List.forall₂_same.2 ?_))
    intro p hp
    exact ⟨(hdelimited p hp).quotedAs, (hdelimited p hp).isBoundary_start⟩
  refine (forall₂_stableSort ?_ hnodes).imp fun _ _ hn => hn.1
  rintro a a' b b' ⟨ha, hboundary⟩ ⟨hb, hboundary'⟩
  rw [ha.span_eq, hb.span_eq]
  exact decide_eq_decide.2 ((Quote.strictMonoOn_offset d).le_iff_le hboundary hboundary').symm

/-- Of a code span and of math that go on in a second line the marker of that line becomes a part;
the code span in one line stays as it is. -/
theorem parse_quote_adds_markers_lines :
    let d := "a `b\nc` $x\ny$ `z`".toList
    let nodes : List Node := [⟨.inlineCode, ⟨2, 7⟩, "b c".toList⟩,
      ⟨.math false, ⟨8, 13⟩, "x\ny".toList⟩, ⟨.inlineCode, ⟨14, 17⟩, "z".toList⟩]
    let nodes' : List Node := [⟨.inlineCode, ⟨4, 11⟩, "b > c".toList⟩,
      ⟨.math false, ⟨12, 19⟩, "x\n> y".toList⟩, ⟨.inlineCode, ⟨20, 23⟩, "z".toList⟩]
    quote d = "> a `b\n> c` $x\n> y$ `z`".toList ∧ IsParagraph Markdown.events d ∧
      parse d [] [] = .ok nodes ∧ parse (quote d) [] [] = .ok nodes' ∧
      List.Forall₂ (Node.QuotedAs d) nodes nodes' := by
  intro d nodes nodes'
  have hpieces : inlinePieces Markdown.events d =
      [.code ⟨2, 7⟩, .math false ⟨8, 13⟩, .code ⟨14, 17⟩] := by decide +kernel
  have h : IsParagraph Markdown.events d := by
    refine ⟨?_, by decide +kernel, by decide +kernel⟩
    rw [hpieces]
    refine List.forall_mem_cons.2 ⟨?_, List.forall_mem_cons.2 ⟨?_, List.forall_mem_singleton.2 ?_⟩⟩
    · exact ⟨_, _, .code 0 'b' "\nc".toList (by decide), by decide⟩
    · exact ⟨_, _, .math false "x\ny".toList, by decide⟩
    · exact ⟨_, _, .code 0 'z' [] (by decide), by decide⟩
  obtain ⟨ns, ns', hns, hns', hquoted⟩ := parse_quote_adds_markers h
  have hread : (parse d [] []).toOption = some nodes := by decide +kernel
  have hread' : (parse (quote d) [] []).toOption = some nodes' := by decide +kernel
  rw [parse, hns] at hread
  rw [parse, hns'] at hread'
  obtain rfl := Option.some.inj hread
  obtain rfl := Option.some.inj hread'
  exact ⟨by decide, h, hns, hns', hquoted⟩

end

end Cloak
