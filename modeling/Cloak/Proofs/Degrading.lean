import Cloak.Proofs.Reading

namespace Cloak

theorem ElementForm.holds_of_mem_find {form : ElementForm} {names : List Text} {t : Text} {s : Span}
    (h : s ∈ find form names t) : s.Holds t := by
  obtain ⟨a, b, rest, rfl, rfl, name, -, c, u, -, rfl⟩ := mem_find h
  refine ⟨Nat.lt_add_of_pos_right (Text.size_pos (List.cons_ne_nil _ _)), ?_⟩
  exact ⟨_, Text.slice?_append a _ rest⟩

theorem Container.holds_of_mem_elements {document : Text} {s : Span} (h : s ∈ elements document) :
    s.Holds document := by
  rcases List.mem_append.1 ((perm_stableSort _ _).mem_iff.1 h) with h | h
  · exact ElementForm.holds_of_mem_find h
  · exact ElementForm.holds_of_mem_find h

section

variable {events : Text → List MarkdownEvent} {document : Text} {opaqueSpans : List Span}
  {tags : List Text}

theorem unclosed?_eq_some {masked : Text} {nodes : List Node} {err : EscapeError}
    (h : unclosed? document masked tags opaqueSpans nodes = some err) :
    ∃ tag offset length, err = .unclosedElement tag offset length := by
  rw [unclosed?] at h
  split at h
  · cases h
  · obtain ⟨found, -, hfound⟩ := List.exists_of_findSome?_eq_some h
    simp only at hfound
    split at hfound
    · cases hfound
    · cases hfound
      exact ⟨_, _, _, rfl⟩

theorem parseWith_of_toOption {nodes : List Node}
    (h : (parseWith events document opaqueSpans tags).toOption = some nodes) :
    parseWith events document opaqueSpans tags = .ok nodes := by
  cases hparse : parseWith events document opaqueSpans tags with
  | error err =>
    rw [hparse] at h
    cases h
  | ok found =>
    rw [hparse] at h
    rw [Option.some.inj h]

theorem parseWith_total (events : Text → List MarkdownEvent) (document : Text)
    (opaqueSpans : List Span) (tags : List Text) :
    (∃ tag offset length,
      parseWith events document opaqueSpans tags =
        .error (.unclosedElement tag offset length)) ∨
    parseWith events document opaqueSpans tags = .ok (sortNodes
      (structureNodes document (hideOpaque document opaqueSpans) events ++
        expressions document (hideOpaque document opaqueSpans).text
          ((sortNodes (structureNodes document (hideOpaque document opaqueSpans)
            events)).map Node.span))) := by
  rw [parseWith]
  simp only
  split
  · rename_i err h
    obtain ⟨tag, offset, length, rfl⟩ := unclosed?_eq_some h
    exact .inl ⟨tag, offset, length, rfl⟩
  · exact .inr rfl

theorem mem_of_parseWith_eq_ok {nodes : List Node}
    (h : parseWith events document opaqueSpans tags = .ok nodes) {n : Node} :
    n ∈ nodes ↔ n ∈ structureNodes document (hideOpaque document opaqueSpans) events ∨
      n ∈ expressions document (hideOpaque document opaqueSpans).text
        ((sortNodes (structureNodes document (hideOpaque document opaqueSpans)
          events)).map Node.span) := by
  rcases parseWith_total events document opaqueSpans tags with ⟨tag, offset, length, herr⟩ | hok
  · cases herr.symm.trans h
  · cases hok.symm.trans h
    exact (perm_stableSort _ _).mem_iff.trans List.mem_append

theorem holds_of_mem_structureNodes (hf : ∀ s ∈ opaqueSpans, s.FitsIn document)
    (hw : ∀ e ∈ events (hideOpaque document opaqueSpans).text, e.WellPlaced document) :
    ∀ n ∈ structureNodes document (hideOpaque document opaqueSpans) events,
      n.span.Holds document := by
  intro n hn
  rcases List.mem_append.1 hn with hn | hn
  · obtain ⟨f, hmem, rfl⟩ := List.mem_map.1 hn
    exact (enclosedBy_of_mem_fences hf hmem).1.holds (List.cons_ne_nil _ _)
  · rw [markdownNodes_eq_map] at hn
    obtain ⟨p, hp, rfl⟩ := List.mem_map.1 hn
    exact MarkdownPiece.holds_node (hw _ (isFrom_of_mem_pieces hp).1)

theorem holds_of_mem_parseWith (hf : ∀ s ∈ opaqueSpans, s.FitsIn document)
    (hw : ∀ e ∈ events (hideOpaque document opaqueSpans).text, e.WellPlaced document)
    {nodes : List Node} (h : parseWith events document opaqueSpans tags = .ok nodes) :
    ∀ n ∈ nodes, n.span.Holds document := by
  intro n hn
  rcases (mem_of_parseWith_eq_ok h).1 hn with hn | hn
  · exact holds_of_mem_structureNodes hf hw n hn
  · obtain ⟨s, hs, rfl⟩ := List.mem_map.1 hn
    exact (enclosedBy_of_mem_scan_hidden hf hs).holds (List.cons_ne_nil _ _)

end

namespace Snippet

variable {document : Text} {config : Config} {s : Snippet}

theorem span_of_ofExpression? {directives : DirectiveSettings} {span : Span} {inner : Text}
    (h : ofExpression? document directives span inner = some s) : s.span = span := by
  rw [ofExpression?] at h
  split at h
  · cases h
    rfl
  · split at h
    · cases h
    · cases h
      rfl

theorem span_of_ofNode? {n : Node} (h : ofNode? document config n = some s) :
    s.span = n.span := by
  rw [ofNode?] at h
  split at h
  · cases h
    rfl
  · cases h
    rfl
  · split at h
    · cases h
    · cases h
      rfl
  · exact span_of_ofExpression? h
  · cases h
    rfl
  · cases h

theorem span_of_verbatim {span : Span} (h : Verbatim.snippet? document config span = some s) :
    s.span = span := by
  obtain ⟨element, -, h⟩ := Option.bind_eq_some_iff.1 h
  obtain ⟨environment, -, h⟩ := Option.bind_eq_some_iff.1 h
  cases h
  rfl

end Snippet

section

variable {events : Text → List MarkdownEvent} {document : Text} {config : Config}

theorem holds_of_mem_opaqueElements : ∀ s ∈ opaqueElements document config, s.Holds document := by
  intro s hs
  rcases List.mem_append.1 hs with hs | hs
  · exact Container.holds_of_mem_elements hs
  · exact ElementForm.holds_of_mem_find hs

/-- What is relied on of the structure of Markdown when a document is escaped. -/
def ReliesOnMarkdown (events : Text → List MarkdownEvent) (document : Text) (config : Config) :
    Prop :=
  ∀ e ∈ events (hideOpaque document (opaqueElements document config)).text, e.WellPlaced document

instance (events : Text → List MarkdownEvent) (document : Text) (config : Config) :
    Decidable (ReliesOnMarkdown events document config) :=
  inferInstanceAs (Decidable (∀ e ∈ _, _))

theorem holds_of_mem_candidates (hw : ReliesOnMarkdown events document config) {cs : List Snippet}
    (h : candidatesWith events document config = .ok cs) : ∀ s ∈ cs, s.span.Holds document := by
  obtain ⟨nodes, hnodes, rfl⟩ := candidatesWith_eq_ok h
  have hopaque (s : Span) (hs : s ∈ opaqueElements document config) : s.FitsIn document :=
    (holds_of_mem_opaqueElements s hs).fitsIn
  intro s hs
  simp only [List.mem_append, Snippet.ofNodes, Container.snippets, DelimitedMath.snippets,
    Verbatim.snippets, List.mem_filterMap, List.mem_map] at hs
  rcases hs with ((⟨n, hn, hs⟩ | ⟨e, he, rfl⟩) | ⟨m, hm, rfl⟩) | ⟨e, he, hs⟩
  · rw [Snippet.span_of_ofNode? hs]
    exact holds_of_mem_parseWith hopaque hw hnodes n hn
  · exact Container.holds_of_mem_elements he
  · have henclosed := DelimitedMath.enclosedBy_of_mem_pairs (mem_of_mem_outermost hm)
    exact henclosed.holds (by cases m.delimiter <;> exact List.cons_ne_nil _ _)
  · rw [Snippet.span_of_verbatim hs]
    exact ElementForm.holds_of_mem_find he

theorem fitsIn_of_mem_candidateReads (hw : ReliesOnMarkdown events document config) :
    ∀ r ∈ candidateReads events document config, r.2.FitsIn r.1 := by
  have hopaque (s : Span) (hs : s ∈ opaqueElements document config) : s.FitsIn document :=
    (holds_of_mem_opaqueElements s hs).fitsIn
  intro r hr
  simp only [candidateReads, List.mem_append, List.mem_map, List.mem_flatMap] at hr
  rcases hr with ((⟨s, ((hs | hs) | ⟨m, hm, rfl⟩) | ⟨e, he, hs⟩, rfl⟩ | hr) | ⟨n, hn, rfl⟩) |
    ⟨e, he, s, hs, rfl⟩
  · exact fitsIn_of_mem_parseReads hopaque (fun e he => (hw e he).fitsIn) _ s hs
  · exact fitsIn_of_mem_lineSpansFrom document.linesAt_rawLines s hs
  · have henclosed := DelimitedMath.enclosedBy_of_mem_pairs (mem_of_mem_outermost hm)
    exact henclosed.fitsIn_inside_of_size m.delimiter.size_opening m.delimiter.size_closing
  · exact fitsIn_of_mem_elementReads (ElementForm.holds_of_mem_find he).fitsIn s hs
  · exact fitsIn_of_mem_maskedReads r hr
  · cases hnodes : parseWith events document
        (Container.elements document ++ Verbatim.elements document config) config.verbatimTags with
    | error err =>
      rw [hnodes] at hn
      cases hn
    | ok nodes =>
      rw [hnodes] at hn
      exact fitsIn_beforeRead (holds_of_mem_parseWith hopaque hw hnodes n hn).fitsIn
  · exact fitsIn_of_mem_tagReads s hs

theorem fitsIn_of_mem_escapeReads (hw : ReliesOnMarkdown events document config) :
    ∀ r ∈ escapeReads events document config, r.2.FitsIn r.1 := by
  intro r hr
  rcases List.mem_append.1 hr with hr | hr
  · exact fitsIn_of_mem_candidateReads hw r hr
  · obtain ⟨gap, hgap, rfl⟩ := List.mem_map.1 hr
    refine fitsIn_of_mem_gapsFrom document.isBoundary_zero (outermost_consecutive _ _) ?_ gap hgap
    intro s hs
    cases hcs : candidatesWith events document config with
    | error err =>
      rw [hcs] at hs
      cases mem_of_mem_outermost hs
    | ok cs =>
      rw [hcs] at hs
      exact (holds_of_mem_candidates hw hcs s (mem_of_mem_outermost hs)).fitsIn

end

theorem candidatesWith_total (events : Text → List MarkdownEvent) (document : Text)
    (config : Config) :
    (∃ nodes cs,
      parseWith events document (opaqueElements document config) config.verbatimTags = .ok nodes ∧
        candidatesWith events document config = .ok cs) ∨
      ∃ tag offset length,
        parseWith events document (opaqueElements document config) config.verbatimTags =
          .error (.unclosedElement tag offset length) ∧
        candidatesWith events document config = .error (.unclosedElement tag offset length) := by
  rw [candidatesWith, opaqueElements]
  rcases parseWith_total events document
    (Container.elements document ++ Verbatim.elements document config) config.verbatimTags with
    ⟨tag, offset, length, herr⟩ | hok
  · rw [herr]
    exact .inr ⟨tag, offset, length, rfl, rfl⟩
  · rw [hok]
    exact .inl ⟨_, _, rfl, rfl⟩

/-- Escaping gives up only for an element that is never closed, as far as what `events` says of the
structure of Markdown can be relied on. Every candidate has a range with a byte in it and the text
there, all that is read on the way is in bounds and on character boundaries, and so the candidates
can be hidden. -/
theorem escape_degrades_for_unclosed (events : Text → List MarkdownEvent)
    (newId : Nat → SnippetId) (source : Text) (config : Config)
    (hw : ReliesOnMarkdown events (Colon.escape source) config) :
    let document := Colon.escape source
    let nodes? := parseWith events document (opaqueElements document config) config.verbatimTags
    (∀ cs, candidatesWith events document config = .ok cs →
      ∀ s ∈ cs, s.span.start < s.span.stop ∧ s.span.FitsIn document ∧
        s.outer? = some (s.span.text document)) ∧
    (∀ r ∈ escapeReads events document config, r.2.FitsIn r.1) ∧
    ((∃ nodes cs, nodes? = .ok nodes ∧ candidatesWith events document config = .ok cs ∧
        hideSnippets newId document cs = .ok (escapeWith events newId source config)) ∨
      ∃ tag offset length, nodes? = .error (.unclosedElement tag offset length) ∧
        escapeWith events newId source config = ⟨document, []⟩) := by
  intro document nodes?
  refine ⟨?_, fitsIn_of_mem_escapeReads hw, ?_⟩
  · intro cs hcs s hs
    obtain ⟨hne, hfit⟩ := holds_of_mem_candidates hw hcs s hs
    refine ⟨hne, hfit, ?_⟩
    rw [(isOf_of_mem_candidates hcs s hs).outer?_eq, hfit.text?_eq]
  · rcases candidatesWith_total events document config with
      ⟨nodes, cs, hnodes, hcs⟩ | ⟨tag, offset, length, hnodes, hcs⟩
    · have hholds := holds_of_mem_candidates hw hcs
      obtain ⟨e, he⟩ : ∃ e, hideSnippets newId document cs = .ok e :=
        exists_hideSnippets (fun s hs => (hholds s hs).nonempty)
          fun s hs => (hholds s (mem_of_mem_outermost hs)).fitsIn
      have hescape : escapeWith events newId source config = e := by
        rw [escapeWith, hcs]
        simp only [Except.bind]
        rw [he]
      refine .inl ⟨nodes, cs, hnodes, hcs, ?_⟩
      rw [hescape]
      exact he
    · refine .inr ⟨tag, offset, length, hnodes, ?_⟩
      rw [escapeWith, hcs]
      rfl

/-- A document with code, math, an interpolation and an element behind characters of two bytes is
escaped, and one with an opening tag alone is not. -/
theorem escape_degrades_for_unclosed_element :
    let newId : Nat → SnippetId := fun n => Text.repeated 31 'a' ++ [Char.ofNat (48 + n)]
    let config : Config := { verbatim := [("Tex".toList, {})] }
    let closed := "é `c` {x}\n\n    ü\n\n$$\né\n$$\n<Tex>é</Tex>".toList
    let unclosed := "é <Tex>".toList
    ReliesOnMarkdown Markdown.events (Colon.escape closed) config ∧
      ReliesOnMarkdown Markdown.events (Colon.escape unclosed) config ∧
      (∃ cs, candidates closed config = .ok cs ∧
        cs.map Snippet.span = [⟨3, 6⟩, ⟨7, 10⟩, ⟨12, 18⟩, ⟨20, 28⟩, ⟨29, 42⟩] ∧
        hideSnippets newId closed cs = .ok (escape newId closed config)) ∧
      escape newId unclosed config = ⟨unclosed, []⟩ := by
  intro newId config closed unclosed
  have hw : ReliesOnMarkdown Markdown.events (Colon.escape closed) config := by decide +kernel
  have hw' : ReliesOnMarkdown Markdown.events (Colon.escape unclosed) config := by decide +kernel
  have hcolon : Colon.escape closed = closed := by decide +kernel
  have hcolon' : Colon.escape unclosed = unclosed := by decide +kernel
  obtain ⟨-, -, hclosed⟩ := escape_degrades_for_unclosed Markdown.events newId closed config hw
  obtain ⟨-, -, hunclosed⟩ := escape_degrades_for_unclosed Markdown.events newId unclosed config hw'
  rw [hcolon] at hclosed
  rw [hcolon'] at hunclosed
  refine ⟨hw, hw', ?_, ?_⟩
  · rcases hclosed with ⟨nodes, cs, -, hcs, hhide⟩ | ⟨tag, offset, length, herr, -⟩
    · refine ⟨cs, hcs, ?_, hhide⟩
      have hspans : (candidatesWith Markdown.events closed config).toOption.map
          (List.map Snippet.span) = some [⟨3, 6⟩, ⟨7, 10⟩, ⟨12, 18⟩, ⟨20, 28⟩, ⟨29, 42⟩] := by
        decide +kernel
      rw [hcs] at hspans
      exact Option.some.inj hspans
    · have hok : (parseWith Markdown.events closed (opaqueElements closed config)
          config.verbatimTags).toOption.isSome := by decide +kernel
      rw [herr] at hok
      cases hok
  · rcases hunclosed with ⟨nodes, cs, hnodes, -, -⟩ | ⟨tag, offset, length, -, hescape⟩
    · have herr : (parseWith Markdown.events unclosed (opaqueElements unclosed config)
          config.verbatimTags).toOption = none := by decide +kernel
      rw [hnodes] at herr
      cases herr
    · exact hescape

end Cloak
