import Cloak.Proofs.Candidates
import Cloak.Proofs.Dict
import Cloak.Proofs.Hiding
import Cloak.Proofs.Matcher

namespace Cloak

theorem ElementForm.start_lt_stop {form : ElementForm} {names : List Text} {t : Text} {s : Span}
    (h : s ∈ find form names t) : s.start < s.stop := by
  obtain ⟨a, b, rest, -, rfl, name, -, c, u, -, rfl⟩ := mem_find h
  exact Nat.lt_add_of_pos_right (Text.size_pos (List.cons_ne_nil _ _))

theorem Container.start_lt_stop {document : Text} {s : Span} (h : s ∈ elements document) :
    s.start < s.stop := by
  rcases List.mem_append.1 ((perm_stableSort _ _).mem_iff.1 h) with h | h
  · exact ElementForm.start_lt_stop h
  · exact ElementForm.start_lt_stop h

theorem Verbatim.exists_snippet {document : Text} {config : Config}
    (hnames : ∀ name ∈ config.verbatimTags, Element.IsPlainName name) {s : Span}
    (hs : s ∈ elements document config)
    (hopen : (Element.openingLength? (s.text document)).isSome) :
    ∃ candidate ∈ snippets document config (elements document config), candidate.span = s := by
  obtain ⟨a, b, rest, hd, hspan, name, hname, c, u, hc, hb⟩ := ElementForm.mem_find hs
  have htext : s.text document = '<' :: (name ++ c :: u) := by
    rw [hspan, hd, Span.text, Text.slice, Text.slice?_append, Option.getD_some, hb]
  obtain ⟨environment, henv⟩ := Dict.exists_find? hname
  have hread := Element.name?_of_plain (hnames name hname) hc u
  rw [← htext] at hread
  rw [Element.openingLength?, Option.isSome_map] at hopen
  obtain ⟨parts, hparts⟩ := Option.isSome_iff_exists.1 hopen
  have hsnippet : ∃ candidate, snippet? document config s = some candidate ∧
      candidate.span = s := by
    simp only [snippet?, Element.parse?, hread, hparts, henv, Option.bind_eq_bind, Option.bind_some,
      Option.pure_def, Option.some.injEq, exists_eq_left']
    rfl
  obtain ⟨candidate, hcand, hcs⟩ := hsnippet
  exact ⟨candidate, List.mem_filterMap.2 ⟨s, hs, hcand⟩, hcs⟩

/-- Elements that hold no Markdown, as far as they can be taken apart. -/
def IsReadableElement (document : Text) (config : Config) (s : Span) : Prop :=
  s ∈ Container.elements document ∨
    s ∈ Verbatim.elements document config ∧ (Element.openingLength? (s.text document)).isSome

theorem exists_candidate {events : Text → List MarkdownEvent} {document : Text} {config : Config}
    {cs : List Snippet} (hnames : ∀ name ∈ config.verbatimTags, Element.IsPlainName name)
    (hc : candidatesWith events document config = .ok cs) {s : Span}
    (hs : IsReadableElement document config s) :
    ∃ candidate ∈ cs, candidate.span = s ∧ s.start < s.stop := by
  obtain ⟨nodes, -, rfl⟩ := candidatesWith_eq_ok hc
  rcases hs with hs | ⟨hs, hopen⟩
  · refine ⟨Container.snippet document s, ?_, rfl, Container.start_lt_stop hs⟩
    apply List.mem_append_left
    apply List.mem_append_left
    apply List.mem_append_right
    exact List.mem_map_of_mem hs
  · obtain ⟨candidate, hmem, hspan⟩ := Verbatim.exists_snippet hnames hs hopen
    exact ⟨candidate, List.mem_append_right _ hmem, hspan, ElementForm.start_lt_stop hs⟩

/-- An element that holds no Markdown lies in the range of one hidden snippet, unless a snippet that
starts before it ends inside it. -/
theorem escape_hides_or_cuts {events : Text → List MarkdownEvent} {newId : Nat → SnippetId}
    {document : Text} {config : Config}
    (hnames : ∀ name ∈ config.verbatimTags, Element.IsPlainName name)
    (hok : EscapableWith events newId document config) {s : Span}
    (hs : IsReadableElement (Colon.escape document) config s) :
    ∃ entry ∈ (escapeWith events newId document config).snippets,
      entry.2.span.HiddenOrCut s := by
  obtain ⟨cs, hc, hh⟩ := escapeWith_of_escapable hok
  obtain ⟨candidate, hmem, rfl, hne⟩ := exists_candidate hnames hc hs
  exact exists_hidden_or_cut hh hmem hne

/-- The script is cut by the math that starts before it, and the element behind is hidden. -/
theorem escape_hides_or_cuts_script :
    let newId : Nat → SnippetId := fun n => Text.repeated 31 'a' ++ [Char.ofNat (48 + n)]
    let document := "\\[<script>\\]</script> <Tex>*y*</Tex>".toList
    let config : Config := { verbatim := [("Tex".toList, {})] }
    let snippets := (escapeWith Markdown.events newId document config).snippets
    (∀ name ∈ config.verbatimTags, Element.IsPlainName name) ∧
      EscapableWith Markdown.events newId document config ∧
      IsReadableElement (Colon.escape document) config ⟨2, 21⟩ ∧
      IsReadableElement (Colon.escape document) config ⟨22, 36⟩ ∧
      (∃ entry ∈ snippets, entry.2.span.HiddenOrCut ⟨2, 21⟩) ∧
      ∃ entry ∈ snippets, entry.2.span.HiddenOrCut ⟨22, 36⟩ := by
  intro newId document config snippets
  have hnames : ∀ name ∈ config.verbatimTags, Element.IsPlainName name := by decide
  have hok : EscapableWith Markdown.events newId document config := by decide +kernel
  have hscript : IsReadableElement (Colon.escape document) config ⟨2, 21⟩ :=
    .inl (by decide +kernel)
  have htex : IsReadableElement (Colon.escape document) config ⟨22, 36⟩ :=
    .inr (by decide +kernel)
  exact ⟨hnames, hok, hscript, htex, escape_hides_or_cuts hnames hok hscript,
    escape_hides_or_cuts hnames hok htex⟩

/-- Wherever Markdown finds nothing but text, no snippet hides a script that math cuts, and its end
stays in the document. -/
theorem not_hidden_script :
    let newId : Nat → SnippetId := fun n => Text.repeated 31 'a' ++ [Char.ofNat (48 + n)]
    let document := "\\[<script>\\]</script>".toList
    let masked := (hideOpaque document [⟨2, 21⟩]).text
    markdownNodes document (Markdown.events masked) = [] ∧
      ∀ events : Text → List MarkdownEvent, markdownNodes document (events masked) = [] →
        EscapableWith events newId document {} ∧
        (⟨2, 21⟩ : Span) ∈ Container.elements (Colon.escape document) ∧
        (∀ entry ∈ (escapeWith events newId document {}).snippets,
          ¬ entry.2.span.contains ⟨2, 21⟩) ∧
        "</script>".toList <:+ (escapeWith events newId document {}).document := by
  intro newId document masked
  refine ⟨by decide +kernel, ?_⟩
  intro events hnone
  have hcandidates : candidatesWith events (Colon.escape document) {} =
      candidatesWith (fun _ => []) (Colon.escape document) {} := by
    have hdocument : Colon.escape document = document := by decide +kernel
    have hspans : opaqueElements document {} = [⟨2, 21⟩] := by decide +kernel
    rw [hdocument]
    apply candidatesWith_congr
    rw [hspans]
    exact hnone
  rw [EscapableWith, escapeWith, hcandidates]
  decide +kernel

end Cloak
