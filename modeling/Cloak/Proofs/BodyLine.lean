import Cloak.Proofs.Agreement
import Cloak.Proofs.Degrading

namespace Cloak

namespace Text

theorem lastOffsetFrom_of_occurs {word t : Text} (offset : Nat) (best : Option Nat)
    (h : word <:+: t) :
    ∃ u v, t = u ++ (word ++ v) ∧ lastOffsetFrom word offset best t = some (offset + u.size) ∧
      ∀ u' v', t = u' ++ (word ++ v') → u'.length ≤ u.length := by
  induction t generalizing offset best with
  | nil =>
    obtain rfl := List.infix_nil.1 h
    refine ⟨[], [], rfl, rfl, ?_⟩
    intro u' v' ht
    obtain ⟨rfl, -⟩ := List.append_eq_nil_iff.1 ht.symm
    exact Nat.le_refl _
  | cons c t ih =>
    rw [lastOffsetFrom]
    by_cases hlater : word <:+: t
    · obtain ⟨u, v, ht, hfound, hlast⟩ := ih _ _ hlater
      refine ⟨c :: u, v, congrArg (c :: ·) ht, ?_, ?_⟩
      · rw [hfound, size_cons, Nat.add_assoc]
      · intro u' v' ht'
        cases u' with
        | nil => exact Nat.zero_le _
        | cons d u' => exact Nat.succ_le_succ (hlast u' v' (List.cons.inj ht').2)
    · have hnone : ∀ v, v <:+ t → ¬ word <+: v :=
        fun v hv hp => hlater (hp.isInfix.trans hv.isInfix)
      obtain ⟨v, hv⟩ := (List.infix_cons_iff.1 h).resolve_right hlater
      have hhead : word.isPrefixOf (c :: t) := List.isPrefixOf_iff_prefix.2 ⟨v, hv⟩
      rw [lastOffsetFrom_of_not_occurs hnone, if_pos hhead]
      refine ⟨[], v, hv.symm, rfl, ?_⟩
      intro u' v' ht'
      cases u' with
      | nil => exact Nat.le_refl _
      | cons d u' =>
        obtain ⟨-, ht'⟩ := List.cons.inj ht'
        exact absurd ⟨u', v', by rw [ht', List.append_assoc]; rfl⟩ hlater

theorem lastOffset?_append (front word rest : Text) :
    ∃ u v, word ++ rest = u ++ (word ++ v) ∧
      lastOffset? (front ++ (word ++ rest)) word = some (front.size + u.size) ∧
      ∀ u' v', word ++ rest = u' ++ (word ++ v') → u' <+: u := by
  have hoccurs : word <:+: front ++ (word ++ rest) := ⟨front, rest, List.append_assoc _ _ _⟩
  obtain ⟨w, v, ht, hfound, hlast⟩ := lastOffsetFrom_of_occurs 0 none hoccurs
  have hfront : front <+: w := by
    apply List.prefix_of_prefix_length_le _ _ (hlast front rest rfl)
    · exact front ++ (word ++ rest)
    · exact List.prefix_append _ _
    · exact ⟨_, ht.symm⟩
  obtain ⟨u, rfl⟩ := hfront
  rw [List.append_assoc, List.append_cancel_left_eq] at ht
  refine ⟨u, v, ht, ?_, ?_⟩
  · rw [lastOffset?, hfound, size_append, Nat.zero_add]
  · intro u' v' ht'
    have hle := hlast (front ++ u') v' (by rw [ht', List.append_assoc])
    rw [List.length_append, List.length_append] at hle
    apply List.prefix_of_prefix_length_le ⟨_, ht'.symm⟩ ⟨_, ht.symm⟩
    omega

end Text

namespace Element

theorem exists_beforeLastClose_append (t : Text) : ∃ close, t = beforeLastClose t ++ close := by
  rw [beforeLastClose]
  split
  · rename_i n hn
    obtain ⟨a, b, ht, rfl⟩ := Text.wordAt_of_lastOffset? hn
    rw [ht, Text.before?_append, Option.getD_some]
    exact ⟨_, rfl⟩
  · exact ⟨[], (List.append_nil t).symm⟩

theorem exists_of_parse? {outer : Text} {element : Element} (h : parse? outer = some element)
    (hself : element.selfClosing = false) :
    ∃ opening rest, splitOpening? outer = some (opening, rest) ∧ outer = opening ++ rest ∧
      element.inner = beforeLastClose rest := by
  cases hname : name? outer with
  | none =>
    rw [parse?, hname] at h
    cases h
  | some name =>
    rw [parse?_eq hname] at h
    obtain ⟨⟨opening, rest⟩, hsplit, rfl⟩ := Option.map_eq_some_iff.1 h
    obtain ⟨-, -, houter, -⟩ := splitOpening?_eq_some_iff.1 hsplit
    refine ⟨opening, rest, hsplit, houter, ?_⟩
    exact if_neg (Bool.eq_false_iff.1 hself)

end Element

namespace Verbatim

theorem exists_dropLeadingSeparator_append (t : Text) :
    ∃ lead, t = lead ++ dropLeadingSeparator t := by
  cases t with
  | nil => exact ⟨[], rfl⟩
  | cons c t =>
    rw [dropLeadingSeparator]
    split
    · exact ⟨[c], rfl⟩
    · exact ⟨[], rfl⟩

theorem exists_dropTrailingSeparator_append (t : Text) :
    ∃ trail, t = dropTrailingSeparator t ++ trail := by
  induction t with
  | nil => exact ⟨[], rfl⟩
  | cons c t ih =>
    cases t with
    | nil =>
      rw [dropTrailingSeparator]
      split
      · exact ⟨[c], rfl⟩
      · exact ⟨[], rfl⟩
    | cons d t =>
      obtain ⟨trail, htrail⟩ := ih
      exact ⟨trail, congrArg (c :: ·) htrail⟩

/-- What stands around the content of an element: the document before it and its opening tag, what
falls off the ends of its body, its closing tag and the document behind it. -/
structure Around where
  before : Text
  opening : Text
  lead : Text
  trail : Text
  close : Text
  behind : Text

/-- The body of an element in a line loses a separator at each end where it has one. -/
structure Around.Holds (a : Around) (document : Text) (span : Span) (content : Text)
    (options : VerbatimOptions) : Prop where
  document_eq : document = a.before ++ (options.outer ++ a.behind)
  start_eq : span.start = a.before.size
  opens : Element.splitOpening? options.outer =
    some (a.opening, a.lead ++ (content ++ (a.trail ++ a.close)))
  body_eq : Element.beforeLastClose (a.lead ++ (content ++ (a.trail ++ a.close))) =
    a.lead ++ (content ++ a.trail)
  lead_eq : (if options.inline then dropLeadingSeparator (a.lead ++ (content ++ a.trail))
    else a.lead ++ (content ++ a.trail)) = content ++ a.trail
  trail_eq : (if options.inline then dropTrailingSeparator (content ++ a.trail)
    else content ++ a.trail) = content

def Around.front (a : Around) : Text :=
  a.before ++ (a.opening ++ a.lead)

section

variable {document front content rest behind : Text} {span : Span}

theorem contentLine_eq (hd : document = front ++ (content ++ (rest ++ behind)))
    (hstop : span.stop = (front ++ (content ++ rest)).size) :
    ∃ u v, content ++ rest = u ++ (content ++ v) ∧
      contentLine document span content = 1 + front.count '\n' + u.count '\n' ∧
      ∀ u' v', content ++ rest = u' ++ (content ++ v') → u' <+: u := by
  obtain ⟨u, v, huv, hfound, hlast⟩ := Text.lastOffset?_append front content rest
  refine ⟨u, v, huv, ?_, hlast⟩
  have hhead : document.before? span.stop = some (front ++ (content ++ rest)) := by
    rw [hd, hstop, ← List.append_assoc content, ← List.append_assoc front, Text.before?_append]
  have hstart : document.before? (front.size + u.size) = some (front ++ u) := by
    rw [hd, ← List.append_assoc content, huv, List.append_assoc, ← List.append_assoc front,
      ← Text.size_append, Text.before?_append]
  rw [contentLine]
  simp only [hhead, Option.getD_some, hfound, hstart]
  rw [List.count_append, Nat.add_assoc]

/-- It is the line of the content exactly if the content cannot be read behind a later line feed. -/
theorem contentLine_eq_iff (hd : document = front ++ (content ++ (rest ++ behind)))
    (hstop : span.stop = (front ++ (content ++ rest)).size) :
    contentLine document span content = 1 + front.count '\n' ↔
      ∀ u v, content ++ rest = u ++ (content ++ v) → '\n' ∉ u := by
  obtain ⟨u, v, huv, hline, hlast⟩ := contentLine_eq hd hstop
  rw [hline, Nat.add_eq_left, List.count_eq_zero]
  constructor
  · intro hnone u' v' h hmem
    exact hnone ((hlast u' v' h).mem hmem)
  · exact fun h => h u v huv

theorem not_feed_mem_of_repeated {u v : Text} (hrest : '\n' ∉ rest)
    (h : content ++ rest = u ++ (content ++ v)) : '\n' ∉ u := by
  have hcount := congrArg (List.count '\n') h
  rw [List.count_append, List.count_append, List.count_append, List.count_eq_zero.2 hrest] at hcount
  apply List.count_eq_zero.1
  omega

end

theorem exists_content_append (element : Element) (inline : Bool) :
    let content := content element inline
    ∃ lead trail, element.inner = lead ++ (content ++ trail) ∧
      (if inline then dropLeadingSeparator (lead ++ (content ++ trail))
        else lead ++ (content ++ trail)) = content ++ trail ∧
      (if inline then dropTrailingSeparator (content ++ trail) else content ++ trail) = content := by
  intro content
  cases inline with
  | false => exact ⟨[], [], (List.append_nil _).symm, rfl, List.append_nil _⟩
  | true =>
    obtain ⟨lead, hlead⟩ := exists_dropLeadingSeparator_append element.inner
    obtain ⟨trail, htrail⟩ := exists_dropTrailingSeparator_append (dropLeadingSeparator element.inner)
    have hcontent : dropLeadingSeparator element.inner = content ++ trail := htrail
    rw [hcontent] at hlead
    refine ⟨lead, trail, hlead, ?_, ?_⟩
    · rw [if_pos rfl, ← hlead, hcontent]
    · rw [if_pos rfl, ← hcontent]
      rfl

theorem exists_element_of_snippet? {document : Text} {config : Config} {span : Span} {s : Snippet}
    (h : snippet? document config span = some s) :
    ∃ element environment, Element.parse? (span.text document) = some element ∧
      config.verbatim.find? element.tag = some environment ∧
      let inline := isInline element environment
      s.span = span ∧ s.processable = some ⟨content element inline, .verbatim {
        tag := element.tag
        attributes := Dict.merge environment.defaults element.attributes
        selfClosing := element.selfClosing
        outer := span.text document
        line := contentLine document span (content element inline)
        inline := inline }⟩ := by
  simp only [snippet?, Option.bind_eq_bind, Option.bind_eq_some_iff] at h
  obtain ⟨element, helement, environment, henvironment, h⟩ := h
  cases h
  exact ⟨element, environment, helement, henvironment, rfl, rfl⟩

/-- The line that is told for an element with a body is that of its content exactly if the content
cannot be read again behind a line feed that follows its start. It always is if no line feed stands
between the content and the end of the element. -/
theorem line_of_last_occurrence {document : Text} {config : Config} {s : Snippet}
    (hs : s ∈ snippets document config (elements document config)) :
    ∃ content options, s.processable = some ⟨content, .verbatim options⟩ ∧
      (options.selfClosing = false → ∃ a : Around, a.Holds document s.span content options ∧
        (options.line = 1 + a.front.count '\n' ↔
          ∀ u v, content ++ (a.trail ++ a.close) = u ++ (content ++ v) → '\n' ∉ u) ∧
        ('\n' ∉ a.trail ++ a.close → options.line = 1 + a.front.count '\n')) := by
  obtain ⟨span, hspan, hsnippet⟩ := List.mem_filterMap.1 hs
  obtain ⟨element, environment, hparse, -, rfl, hprocessable⟩ := exists_element_of_snippet? hsnippet
  refine ⟨_, _, hprocessable, ?_⟩
  intro hself
  obtain ⟨before, behind, hd, hstart, hstop⟩ :=
    (ElementForm.holds_of_mem_find hspan).fitsIn.exists_append
  generalize s.span.text document = outer at *
  obtain ⟨opening, rest, hsplit, rfl, hinner⟩ := Element.exists_of_parse? hparse hself
  obtain ⟨close, hclose⟩ := Element.exists_beforeLastClose_append rest
  obtain ⟨lead, trail, hbody, hlead, htrail⟩ :=
    exists_content_append element (isInline element environment)
  generalize hcontent : content element (isInline element environment) = content at *
  have hrest : rest = lead ++ (content ++ (trail ++ close)) := by
    rw [hclose, ← hinner, hbody, List.append_assoc, List.append_assoc]
  have hfront : before ++ (opening ++ rest ++ behind) =
      before ++ (opening ++ lead) ++ (content ++ (trail ++ close ++ behind)) := by
    rw [hrest]
    simp only [List.append_assoc]
  have hend : s.span.stop = (before ++ (opening ++ lead) ++ (content ++ (trail ++ close))).size := by
    rw [hstop, ← Text.size_append, hrest]
    simp only [List.append_assoc]
  rw [hfront] at hd
  have hline := contentLine_eq_iff hd hend
  refine ⟨⟨before, opening, lead, trail, close, behind⟩, ?_, hline, ?_⟩
  · rw [← hfront] at hd
    refine ⟨hd, hstart, ?_, ?_, hlead, htrail⟩
    · rw [← hrest]
      exact hsplit
    · rw [← hrest, ← hinner]
      exact hbody
  · exact fun hnone => hline.2 fun u v h => not_feed_mem_of_repeated hnone h

/-- The empty content can be read again at the end of the element, which is on another line. -/
theorem line_of_last_occurrence_close :
    let document : Text := "<Tex></Tex\n>".toList
    let config : Config := { verbatim := [("Tex".toList, {})] }
    ∃ s ∈ snippets document config (elements document config), ∃ options,
      s.processable = some ⟨[], .verbatim options⟩ ∧ options.selfClosing = false ∧
        options.line = 2 ∧ ∃ a : Around, a.Holds document s.span [] options ∧
          a.front = "<Tex>".toList ∧
          ¬ ∀ u v, [] ++ (a.trail ++ a.close) = u ++ ([] ++ v) → '\n' ∉ u := by
  intro document config
  let options : VerbatimOptions :=
    { tag := "Tex".toList, attributes := [], selfClosing := false, outer := document, line := 2
      inline := false }
  let s : Snippet :=
    .forBackend .verbatim document ⟨0, 12⟩ [] (.verbatim options) (.both (.newlines 2)) true
  have hsnippets : snippets document config (elements document config) = [s] := by decide +kernel
  have hs : s ∈ snippets document config (elements document config) := by
    rw [hsnippets]
    exact List.mem_singleton_self s
  refine ⟨s, hs, options, rfl, rfl, rfl, ?_⟩
  obtain ⟨content, options', hprocessable, hline⟩ := line_of_last_occurrence hs
  cases hprocessable
  obtain ⟨a, ha, hiff, -⟩ := hline rfl
  have hsplit : Element.splitOpening? document = some ("<Tex>".toList, "</Tex\n>".toList) := by decide
  obtain ⟨hopening, -⟩ := Prod.mk.inj (Option.some.inj (ha.opens.symm.trans hsplit))
  have hbefore : a.before = [] := Text.size_eq_zero_iff.1 ha.start_eq.symm
  have hlead : a.lead = [] := List.append_left_eq_self.1 ha.lead_eq
  have hfront : a.front = "<Tex>".toList := by
    rw [Around.front, hbefore, hopening, hlead]
    rfl
  refine ⟨a, ha, hfront, ?_⟩
  rw [← hiff, hfront]
  decide

end Verbatim

end Cloak
