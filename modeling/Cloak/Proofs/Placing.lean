import Cloak.Proofs.Hiding

namespace Cloak

namespace Text

theorem isBoundary_size (t : Text) : t.isBoundary t.size :=
  isBoundary_iff.2 ⟨t, [], (List.append_nil t).symm, rfl⟩

theorem le_size_of_isBoundary {t : Text} {n : Nat} (h : t.isBoundary n) : n ≤ t.size := by
  obtain ⟨a, b, rfl, rfl⟩ := isBoundary_iff.1 h
  rw [size_append]
  exact Nat.le_add_right _ _

end Text

/-- The ranges before, between and behind the ranges of some items. -/
def gapsFrom (stop : Nat) (span : α → Span) : Nat → List α → List Span
  | reached, [] => [⟨reached, stop⟩]
  | reached, a :: as => ⟨reached, (span a).start⟩ :: gapsFrom stop span (span a).stop as

theorem fitsIn_of_mem_gapsFrom {document : Text} {span : α → Span} {reached : Nat} {as : List α}
    (hr : document.isBoundary reached) (hc : Consecutive span reached as)
    (hf : ∀ a ∈ as, (span a).FitsIn document) :
    ∀ gap ∈ gapsFrom document.size span reached as, gap.FitsIn document := by
  induction as generalizing reached with
  | nil =>
    intro gap hgap
    rw [List.mem_singleton.1 hgap]
    exact Span.fitsIn_of_isBoundary (Text.le_size_of_isBoundary hr) hr document.isBoundary_size
  | cons a as ih =>
    obtain ⟨hle, hc⟩ := hc
    have ha := hf a List.mem_cons_self
    intro gap hgap
    rcases List.mem_cons.1 hgap with rfl | hgap
    · exact Span.fitsIn_of_isBoundary hle hr ha.isBoundary_start
    · exact ih ha.isBoundary_stop hc (fun b hb => hf b (List.mem_cons_of_mem a hb)) gap hgap

namespace Draft

theorem overwrite_eq_error {d : Draft} {span : Span} {text : Text} {err : EscapeError}
    (hclash : ∀ e ∈ d.edits, clash span e.span = false) (h : d.overwrite span text = .error err) :
    ¬ span.FitsIn d.source ∧
      (err = .outOfBounds span d.source.size ∨ err = .notCharBoundary span) := by
  rw [overwrite] at h
  split at h
  · rename_i hbounds
    cases h
    refine ⟨?_, .inl rfl⟩
    intro hfit
    have hle := hfit.start_le
    have hsize := Text.le_size_of_isBoundary hfit.isBoundary_stop
    simp only [Bool.or_eq_true, decide_eq_true_eq] at hbounds
    omega
  · split at h
    · rename_i hboundary
      cases h
      refine ⟨?_, .inr rfl⟩
      intro hfit
      rw [hfit.isBoundary_start, hfit.isBoundary_stop] at hboundary
      cases hboundary
    · split at h
      · rename_i hany
        obtain ⟨e, he, hc⟩ := List.any_eq_true.1 hany
        rw [hclash e he] at hc
        cases hc
      · cases h

theorem clash_eq_false {a b : Span} (hne : a.start < a.stop) (hle : b.stop ≤ a.start) :
    clash a b = false := by
  have hba : b ≠ a := by
    rintro rfl
    omega
  simp only [clash, hba, decide_false, Bool.false_or, Bool.and_eq_false_iff,
    decide_eq_false_iff_not]
  omega

end Draft

theorem placeNames_cons_eq_error {newId : Nat → SnippetId} {draft : Draft} {number : Nat}
    {s : Snippet} {rest : List Snippet} {err : EscapeError}
    (h : placeNames newId draft number (s :: rest) = .error err) :
    draft.overwrite s.span (padText (newId number) s.padding) = .error err ∨
      placeNames newId { draft with edits := draft.edits ++ [hidingEdit (newId number, s)] }
        (number + 1) rest = .error err := by
  rw [placeNames] at h
  cases ho : draft.overwrite s.span (padText (newId number) s.padding) with
  | error err' =>
    rw [ho] at h
    cases h
    exact .inl rfl
  | ok draft' =>
    obtain ⟨-, rfl⟩ := Draft.overwrite_eq_ok ho
    right
    cases hp : placeNames newId
        { draft with edits := draft.edits ++ [hidingEdit (newId number, s)] } (number + 1) rest with
    | error err' =>
      rw [hidingEdit] at hp
      simp only [ho, hp, bind, Except.bind] at h
      exact h
    | ok escaped =>
      rw [hidingEdit] at hp
      simp only [ho, hp, bind, Except.bind, pure, Except.pure] at h
      cases h

/-- Ranges that follow one another and the edits before them are refused only if one does not
fit. -/
theorem placeNames_eq_error {newId : Nat → SnippetId} {draft : Draft} {number reached : Nat}
    {snippets : List Snippet} {err : EscapeError}
    (hc : Consecutive Snippet.span reached snippets)
    (hne : ∀ s ∈ snippets, s.span.start < s.span.stop)
    (hedits : ∀ e ∈ draft.edits, e.span.stop ≤ reached)
    (h : placeNames newId draft number snippets = .error err) :
    ∃ s ∈ snippets, ¬ s.span.FitsIn draft.source ∧
      (err = .outOfBounds s.span draft.source.size ∨ err = .notCharBoundary s.span) := by
  induction snippets generalizing draft number reached with
  | nil => cases h
  | cons s rest ih =>
    obtain ⟨hle, hc⟩ := hc
    have hs := hne s List.mem_cons_self
    rcases placeNames_cons_eq_error h with ho | hp
    · have hclash : ∀ e ∈ draft.edits, Draft.clash s.span e.span = false := by
        intro e he
        exact Draft.clash_eq_false hs (Nat.le_trans (hedits e he) hle)
      exact ⟨s, List.mem_cons_self, Draft.overwrite_eq_error hclash ho⟩
    · have hedits' : ∀ e ∈ draft.edits ++ [hidingEdit (newId number, s)],
          e.span.stop ≤ s.span.stop := by
        intro e he
        rcases List.mem_append.1 he with he | he
        · have hbefore := hedits e he
          omega
        · rw [List.mem_singleton.1 he]
          exact Nat.le_refl _
      obtain ⟨s', hs', hnot⟩ :=
        ih hc (fun s' hs' => hne s' (List.mem_cons_of_mem s hs')) hedits' hp
      exact ⟨s', List.mem_cons_of_mem s hs', hnot⟩

theorem snippets_of_placeNames {newId : Nat → SnippetId} {draft : Draft} {number : Nat}
    {snippets : List Snippet} {escaped : Escaped}
    (h : placeNames newId draft number snippets = .ok escaped) :
    escaped.snippets = snippets.mapIdx fun n s => (newId (number + n), s) := by
  induction snippets generalizing draft number escaped with
  | nil =>
    cases h
    rfl
  | cons s rest ih =>
    obtain ⟨escaped', -, hp, rfl⟩ := placeNames_cons_eq_ok h
    rw [List.mapIdx_cons, ih hp]
    simp only [Nat.add_zero, Nat.add_assoc, Nat.add_comm 1]

section

variable {newId : Nat → SnippetId} {document : Text} {snippets : List Snippet}

theorem hideSnippets_eq_error (hne : ∀ s ∈ snippets, s.span.start < s.span.stop)
    {err : EscapeError} (h : hideSnippets newId document snippets = .error err) :
    ∃ s ∈ outermost Snippet.span snippets, ¬ s.span.FitsIn document ∧
      (err = .outOfBounds s.span document.size ∨ err = .notCharBoundary s.span) :=
  placeNames_eq_error (outermost_consecutive Snippet.span snippets)
    (fun s hs => hne s (mem_of_mem_outermost hs)) (fun _ he => (List.not_mem_nil he).elim) h

theorem exists_hideSnippets (hne : ∀ s ∈ snippets, s.span.start < s.span.stop)
    (hf : ∀ s ∈ outermost Snippet.span snippets, s.span.FitsIn document) :
    ∃ e, hideSnippets newId document snippets = .ok e := by
  cases h : hideSnippets newId document snippets with
  | ok e => exact ⟨e, rfl⟩
  | error err =>
    obtain ⟨s, hs, hnot, -⟩ := hideSnippets_eq_error hne h
    exact absurd (hf s hs) hnot

end

/-- Hiding snippets with a byte in each succeeds exactly if the outermost ranges fit, and is refused
for the range of one that does not. It gives out the names in document order, and leaves the gaps
between the outermost ranges, with the padded names between them. -/
theorem hideSnippets_fills_gaps (newId : Nat → SnippetId) (document : Text)
    (snippets : List Snippet) (hne : ∀ s ∈ snippets, s.span.start < s.span.stop) :
    let kept := outermost Snippet.span snippets
    ((∃ e, hideSnippets newId document snippets = .ok e) ↔
      ∀ s ∈ kept, s.span.FitsIn document) ∧
    (∀ err, hideSnippets newId document snippets = .error err →
      ∃ s ∈ kept, ¬ s.span.FitsIn document ∧
        (err = .outOfBounds s.span document.size ∨ err = .notCharBoundary s.span)) ∧
    ∀ e, hideSnippets newId document snippets = .ok e →
      e.snippets = kept.mapIdx (fun n s => (newId n, s)) ∧
      Consecutive Snippet.span 0 kept ∧
      (∀ gap ∈ gapsFrom document.size Snippet.span 0 kept, gap.FitsIn document) ∧
      e.document = fillFrom document (fun entry => entry.2.span)
        (fun entry => padText entry.1 entry.2.padding) 0 e.snippets := by
  intro kept
  have hc : Consecutive Snippet.span 0 kept := outermost_consecutive Snippet.span snippets
  have hfit {e : Escaped} (he : hideSnippets newId document snippets = .ok e) :
      ∀ s ∈ kept, s.span.FitsIn document := (placeNames_eq_ok he).2.1
  refine ⟨⟨?_, exists_hideSnippets hne⟩, fun err => hideSnippets_eq_error hne, ?_⟩
  · rintro ⟨e, he⟩
    exact hfit he
  · intro e he
    obtain ⟨-, -, -, hdocument⟩ := hideSnippets_eq_ok he
    have hnames := snippets_of_placeNames he
    simp only [Nat.zero_add] at hnames
    exact ⟨hnames, hc, fitsIn_of_mem_gapsFrom document.isBoundary_zero hc (hfit he), hdocument⟩

/-- Of nested and touching ranges behind a character of two bytes the outer ones are replaced; a
range that starts inside that character is refused. -/
theorem hideSnippets_fills_gaps_touching :
    let newId : Nat → SnippetId := fun n => Text.repeated 31 'a' ++ [Char.ofNat (48 + n)]
    let document := "é`b``c` d".toList
    let snippet : Nat → Nat → Snippet := fun start stop =>
      .passthrough .code document ⟨start, stop⟩ (some .default) true
    let snippets := [snippet 5 8, snippet 3 4, snippet 2 5]
    let astray := [snippet 5 8, snippet 1 5]
    (∀ s ∈ snippets, s.span.start < s.span.stop) ∧ (∀ s ∈ astray, s.span.start < s.span.stop) ∧
      (∃ e, hideSnippets newId document snippets = .ok e ∧
        e.snippets = [(newId 0, snippet 2 5), (newId 1, snippet 5 8)] ∧
        e.document = "é\n".toList ++ newId 0 ++ "\n\n".toList ++ newId 1 ++ "\n d".toList) ∧
      ¬ ∃ e, hideSnippets newId document astray = .ok e := by
  intro newId document snippet snippets astray
  have hne : ∀ s ∈ snippets, s.span.start < s.span.stop := by decide
  have hastray : ∀ s ∈ astray, s.span.start < s.span.stop := by decide
  obtain ⟨hiff, -, hok⟩ := hideSnippets_fills_gaps newId document snippets hne
  have hfit : ∀ s ∈ outermost Snippet.span snippets, s.span.FitsIn document := by decide
  obtain ⟨e, he⟩ := hiff.2 hfit
  obtain ⟨hs, -, -, hd⟩ := hok e he
  have hsnippets : e.snippets = [(newId 0, snippet 2 5), (newId 1, snippet 5 8)] :=
    hs.trans (by decide)
  refine ⟨hne, hastray, ⟨e, he, hsnippets, ?_⟩, ?_⟩
  · rw [hd, hsnippets]
    decide
  · intro h
    exact absurd ((hideSnippets_fills_gaps newId document astray hastray).1.1 h) (by decide)

end Cloak
