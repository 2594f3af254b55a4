import Cloak.Escape

namespace Cloak

namespace Snippet

/-- A snippet of a document knows the text at its range, and is padded only if it may give up a
paragraph. -/
structure IsOf (document : Text) (s : Snippet) : Prop where
  outer?_eq : s.outer? = s.span.text? document
  unpadded : s.dropParagraph = false → ∀ t, padText t s.padding = t

variable {document : Text} {s : Snippet}

theorem isOf_passthrough (type : SnippetType) (span : Span) {padding : Option Padding}
    {dropParagraph : Bool} (h : dropParagraph = false → ∀ t, padText t padding = t) :
    (passthrough type document span padding dropParagraph).IsOf document :=
  ⟨rfl, h⟩

theorem isOf_forBackend (type : SnippetType) (span : Span) (content : Text)
    (options : ProcessorOptions) {padding : Padding} {dropParagraph : Bool}
    (h : dropParagraph = false → ∀ t, padText t (some padding) = t) :
    (forBackend type document span content options padding dropParagraph).IsOf document :=
  ⟨rfl, h⟩

theorem padText_none (t : Text) : padText t (some .none) = t :=
  List.append_nil t

theorem padText_newlines {drop : Bool} (h : drop = false) (t : Text) :
    padText t (some (.both (.newlines (if drop then 2 else 0)))) = t := by
  rw [h]
  exact List.append_nil t

theorem isOf_ofMath (span : Span) (display : Bool) (value : Text) :
    (ofMath document span display value).IsOf document :=
  isOf_forBackend _ _ _ _ padText_newlines

theorem isOf_of_ofExpression? {directives : DirectiveSettings} {span : Span} {inner : Text}
    (h : ofExpression? document directives span inner = some s) : s.IsOf document := by
  rw [ofExpression?] at h
  split at h
  · cases h
    exact isOf_passthrough _ _ fun hd => nomatch hd
  · split at h
    · cases h
    · cases h
      exact isOf_passthrough _ _ fun _ => padText_none

theorem isOf_of_ofNode? {config : Config} {n : Node} (h : ofNode? document config n = some s) :
    s.IsOf document := by
  rw [ofNode?] at h
  split at h
  · cases h
    exact isOf_forBackend _ _ _ _ fun _ => padText_none
  · cases h
    exact isOf_forBackend _ _ _ _ fun hd => nomatch hd
  · split at h
    · cases h
    · cases h
      exact isOf_ofMath _ _ _
  · exact isOf_of_ofExpression? h
  · cases h
    exact isOf_forBackend _ _ _ _ fun hd => nomatch hd
  · cases h

theorem isOf_of_verbatim {config : Config} {span : Span}
    (h : Verbatim.snippet? document config span = some s) : s.IsOf document := by
  obtain ⟨element, -, h⟩ := Option.bind_eq_some_iff.1 h
  obtain ⟨environment, -, h⟩ := Option.bind_eq_some_iff.1 h
  cases h
  apply isOf_forBackend
  intro hd t
  rw [Bool.not_eq_false'] at hd
  rw [hd]
  exact List.append_nil t

end Snippet

/-- The elements that are kept from the readers of a document. -/
def opaqueElements (document : Text) (config : Config) : List Span :=
  Container.elements document ++ Verbatim.elements document config

section

variable {events events' : Text → List MarkdownEvent} {document : Text} {config : Config}
  {cs : List Snippet}

theorem candidatesWith_congr
    (h : markdownNodes document
        (events (hideOpaque document (opaqueElements document config)).text) =
      markdownNodes document
        (events' (hideOpaque document (opaqueElements document config)).text)) :
    candidatesWith events document config = candidatesWith events' document config := by
  rw [opaqueElements] at h
  rw [candidatesWith, candidatesWith, parseWith, parseWith]
  simp only [structureNodes, h]

theorem candidatesWith_eq_ok (h : candidatesWith events document config = .ok cs) :
    ∃ nodes, parseWith events document
        (Container.elements document ++ Verbatim.elements document config)
        config.verbatimTags = .ok nodes ∧
      cs = Snippet.ofNodes document config nodes ++
        Container.snippets document (Container.elements document) ++
        DelimitedMath.snippets document config.math ++
        Verbatim.snippets document config (Verbatim.elements document config) := by
  rw [candidatesWith] at h
  cases hp : parseWith events document
      (Container.elements document ++ Verbatim.elements document config) config.verbatimTags with
  | error e =>
    simp only [hp, bind, Except.bind] at h
    cases h
  | ok nodes =>
    simp only [hp, bind, Except.bind, pure, Except.pure] at h
    cases h
    exact ⟨nodes, rfl, rfl⟩

theorem isOf_of_mem_candidates (h : candidatesWith events document config = .ok cs) :
    ∀ s ∈ cs, s.IsOf document := by
  obtain ⟨nodes, -, rfl⟩ := candidatesWith_eq_ok h
  intro s hs
  simp only [List.mem_append, Snippet.ofNodes, Container.snippets, DelimitedMath.snippets,
    Verbatim.snippets, List.mem_filterMap, List.mem_map] at hs
  rcases hs with ((⟨n, -, hn⟩ | ⟨e, -, rfl⟩) | ⟨m, -, rfl⟩) | ⟨e, -, he⟩
  · exact Snippet.isOf_of_ofNode? hn
  · exact Snippet.isOf_passthrough _ _ fun hd => nomatch hd
  · exact Snippet.isOf_ofMath _ _ _
  · exact Snippet.isOf_of_verbatim he

end

end Cloak
