import Cloak.Escape
import Cloak.Proofs.Outermost
import Cloak.Proofs.Slice

namespace Cloak

/-- A document from an offset on, with the ranges of some items replaced. -/
def fillFrom (document : Text) (span : α → Span) (fill : α → Text) : Nat → List α → Text
  | reached, [] => (document.from? reached).getD []
  | reached, a :: as =>
    document.slice reached (span a).start ++
      (fill a ++ fillFrom document span fill (span a).stop as)

theorem fillFrom_map (document : Text) (span : β → Span) (fill : β → Text) (f : α → β)
    (reached : Nat) (as : List α) :
    fillFrom document span fill reached (as.map f) =
      fillFrom document (fun a => span (f a)) (fun a => fill (f a)) reached as := by
  induction as generalizing reached with
  | nil => rfl
  | cons a as ih => rw [List.map_cons, fillFrom, fillFrom, ih]

theorem fillFrom_congr {document : Text} {span : α → Span} {fill fill' : α → Text} {reached : Nat}
    {as : List α} (h : ∀ a ∈ as, fill a = fill' a) :
    fillFrom document span fill reached as = fillFrom document span fill' reached as := by
  induction as generalizing reached with
  | nil => rfl
  | cons a as ih =>
    rw [fillFrom, fillFrom, h a List.mem_cons_self,
      ih fun b hb => h b (List.mem_cons_of_mem a hb)]

theorem fillFrom_text {document : Text} {span : α → Span} {a b : Text} {as : List α}
    (hd : document = a ++ b) (hc : Consecutive span a.size as)
    (hf : ∀ x ∈ as, (span x).FitsIn document) :
    fillFrom document span (fun x => (span x).text document) a.size as = b := by
  induction as generalizing a b with
  | nil =>
    rw [fillFrom, hd, Text.from?_append]
    rfl
  | cons x as ih =>
    obtain ⟨hle, hc⟩ := hc
    obtain ⟨a', c, hd', hstart, hstop⟩ := (hf x List.mem_cons_self).exists_append
    obtain ⟨m, rfl, rfl⟩ := Text.append_eq_append_of_size_le (hd.symm.trans hd') (by omega)
    have hslice : document.slice a.size (span x).start = m := by
      have h := Text.slice?_append a m ((span x).text document ++ c)
      rw [Text.slice, hstart, Text.size_append]
      rw [← hd] at h
      rw [h, Option.getD_some]
    have hrest := ih (hd'.trans (List.append_assoc _ _ _).symm)
      (by rw [Text.size_append, ← hstop]; exact hc) fun y hy => hf y (List.mem_cons_of_mem x hy)
    rw [fillFrom, hslice]
    rw [Text.size_append, ← hstop] at hrest
    rw [hrest]

namespace Draft

theorem overwrite_eq_ok {d d' : Draft} {span : Span} {text : Text}
    (h : d.overwrite span text = .ok d') :
    span.FitsIn d.source ∧ d' = { d with edits := d.edits ++ [⟨span, text⟩] } := by
  rw [overwrite] at h
  split at h
  · cases h
  · rename_i hbounds
    split at h
    · cases h
    · rename_i hboundary
      split at h
      · cases h
      · simp only [Bool.or_eq_true, decide_eq_true_eq, Bool.not_eq_eq_eq_not, Bool.not_true,
          not_or, Bool.not_eq_false] at hbounds hboundary
        cases h
        exact ⟨Span.fitsIn_of_isBoundary (Nat.le_of_not_lt hbounds.1) hboundary.1 hboundary.2, rfl⟩

theorem assemble_eq_fillFrom {source : Text} {reached : Nat} {edits : List Edit}
    (hr : source.isBoundary reached) (hc : Consecutive Edit.span reached edits)
    (hf : ∀ e ∈ edits, e.span.FitsIn source) :
    assemble source reached edits = some (fillFrom source Edit.span Edit.text reached edits) := by
  induction edits generalizing reached with
  | nil =>
    obtain ⟨a, b, rfl, rfl⟩ := Text.isBoundary_iff.1 hr
    rw [assemble, fillFrom, Text.from?_append, Option.getD_some]
  | cons e es ih =>
    obtain ⟨hle, hc⟩ := hc
    have he := hf e List.mem_cons_self
    obtain ⟨gap, hgap⟩ := Text.exists_slice? hle hr he.isBoundary_start
    have hrest := ih he.isBoundary_stop hc fun e' he' => hf e' (List.mem_cons_of_mem e he')
    rw [assemble, fillFrom, hgap, hrest, Text.slice, hgap]
    simp only [Option.bind_eq_bind, Option.bind_some, Option.pure_def, Option.getD_some,
      List.append_assoc]

theorem finish_eq_fillFrom {d : Draft} (hc : Consecutive Edit.span 0 d.edits)
    (hf : ∀ e ∈ d.edits, e.span.FitsIn d.source) :
    d.finish = some (fillFrom d.source Edit.span Edit.text 0 d.edits) := by
  have hstart := hc.pairwise_start fun e he => (hf e he).start_le
  have hsort : stableSort (fun a b => decide (a.span.start ≤ b.span.start)) d.edits = d.edits :=
    stableSort_of_pairwise (hstart.imp fun h => decide_eq_true h)
  rw [finish, hsort]
  exact assemble_eq_fillFrom (Text.isBoundary_zero d.source) hc hf

end Draft

def hidingEdit (entry : SnippetId × Snippet) : Edit :=
  ⟨entry.2.span, padText entry.1 entry.2.padding⟩

theorem placeNames_cons_eq_ok {newId : Nat → SnippetId} {draft : Draft} {number : Nat}
    {s : Snippet} {rest : List Snippet} {escaped : Escaped}
    (h : placeNames newId draft number (s :: rest) = .ok escaped) :
    ∃ escaped', s.span.FitsIn draft.source ∧
      placeNames newId { draft with edits := draft.edits ++ [hidingEdit (newId number, s)] }
        (number + 1) rest = .ok escaped' ∧
      escaped = { escaped' with snippets := (newId number, s) :: escaped'.snippets } := by
  rw [placeNames] at h
  cases ho : draft.overwrite s.span (padText (newId number) s.padding) with
  | error e =>
    rw [ho] at h
    cases h
  | ok draft' =>
    cases hp : placeNames newId draft' (number + 1) rest with
    | error e =>
      simp only [ho, hp, bind, Except.bind] at h
      cases h
    | ok escaped' =>
      simp only [ho, hp, bind, Except.bind, pure, Except.pure] at h
      cases h
      obtain ⟨hfit, rfl⟩ := Draft.overwrite_eq_ok ho
      exact ⟨escaped', hfit, hp, rfl⟩

theorem placeNames_eq_ok {newId : Nat → SnippetId} {draft : Draft} {number : Nat}
    {snippets : List Snippet} {escaped : Escaped}
    (h : placeNames newId draft number snippets = .ok escaped) :
    escaped.snippets.map Prod.snd = snippets ∧
      (∀ s ∈ snippets, s.span.FitsIn draft.source) ∧
      escaped.document =
        ({ draft with edits := draft.edits ++ escaped.snippets.map hidingEdit }.finish).getD
          draft.source := by
  induction snippets generalizing draft number escaped with
  | nil =>
    cases h
    refine ⟨rfl, fun s hs => (List.not_mem_nil hs).elim, ?_⟩
    rw [List.map_nil, List.append_nil]
  | cons s rest ih =>
    obtain ⟨escaped', hfit, hp, rfl⟩ := placeNames_cons_eq_ok h
    obtain ⟨hs, hf, hd⟩ := ih hp
    refine ⟨?_, ?_, ?_⟩
    · rw [List.map_cons, hs]
    · intro s' hs'
      rcases List.mem_cons.1 hs' with rfl | hs'
      · exact hfit
      · exact hf s' hs'
    · rw [hd, List.append_assoc]
      rfl

/-- A hidden document has the padded names of the outermost snippets in the place of their ranges,
which fit and follow one another, and is otherwise the document. -/
theorem hideSnippets_eq_ok {newId : Nat → SnippetId} {document : Text} {snippets : List Snippet}
    {escaped : Escaped} (h : hideSnippets newId document snippets = .ok escaped) :
    escaped.snippets.map Prod.snd = outermost Snippet.span snippets ∧
      Consecutive (fun e => e.2.span) 0 escaped.snippets ∧
      (∀ e ∈ escaped.snippets, e.2.span.FitsIn document) ∧
      escaped.document = fillFrom document (fun e => e.2.span)
        (fun e => padText e.1 e.2.padding) 0 escaped.snippets := by
  obtain ⟨hs, hf, hd⟩ := placeNames_eq_ok h
  have hc : Consecutive (fun e : SnippetId × Snippet => e.2.span) 0 escaped.snippets := by
    rw [← consecutive_map, hs]
    exact outermost_consecutive Snippet.span snippets
  have hfit : ∀ e ∈ escaped.snippets, e.2.span.FitsIn document := by
    intro e he
    apply hf
    rw [← hs]
    exact List.mem_map_of_mem he
  refine ⟨hs, hc, hfit, ?_⟩
  have hedits : ∀ e ∈ escaped.snippets.map hidingEdit, e.span.FitsIn document := by
    intro e he
    obtain ⟨e', he', rfl⟩ := List.mem_map.1 he
    exact hfit e' he'
  have hfinish : (Draft.mk document (escaped.snippets.map hidingEdit)).finish =
      some (fillFrom document Edit.span Edit.text 0 (escaped.snippets.map hidingEdit)) :=
    Draft.finish_eq_fillFrom (consecutive_map.2 hc) hedits
  rw [hd, List.nil_append, hfinish, Option.getD_some, fillFrom_map]
  rfl

/-- Where a snippet starts, one that is hidden holds all of it, or ends inside it. -/
theorem exists_hidden_or_cut {newId : Nat → SnippetId} {document : Text} {snippets : List Snippet}
    {escaped : Escaped} (h : hideSnippets newId document snippets = .ok escaped) {s : Snippet}
    (hs : s ∈ snippets) (hne : s.span.start < s.span.stop) :
    ∃ entry ∈ escaped.snippets, entry.2.span.HiddenOrCut s.span := by
  obtain ⟨kept, hkept, hcovers⟩ : ∃ k ∈ outermost Snippet.span snippets,
      k.span.HiddenOrCut s.span := outermost_covers hs hne
  rw [← (hideSnippets_eq_ok h).1] at hkept
  obtain ⟨entry, hentry, rfl⟩ := List.mem_map.1 hkept
  exact ⟨entry, hentry, hcovers⟩

/-- Whether the snippets of a document can be read and hidden, given the Markdown structure of a
text. -/
def EscapableWith (events : Text → List MarkdownEvent) (newId : Nat → SnippetId) (document : Text)
    (config : Config) : Prop :=
  ((candidatesWith events (Colon.escape document) config).bind
    (hideSnippets newId (Colon.escape document))).isOk

instance (events : Text → List MarkdownEvent) (newId : Nat → SnippetId) (document : Text)
    (config : Config) : Decidable (EscapableWith events newId document config) :=
  inferInstanceAs (Decidable (_ = true))

variable {events : Text → List MarkdownEvent} {newId : Nat → SnippetId} {document : Text}
  {config : Config}

theorem escapeWith_of_escapable (h : EscapableWith events newId document config) :
    ∃ snippets, candidatesWith events (Colon.escape document) config = .ok snippets ∧
      hideSnippets newId (Colon.escape document) snippets =
        .ok (escapeWith events newId document config) := by
  rw [EscapableWith] at h
  rw [escapeWith]
  cases hc : candidatesWith events (Colon.escape document) config with
  | error err =>
    rw [hc] at h
    cases h
  | ok snippets =>
    rw [hc] at h
    simp only [Except.bind] at h ⊢
    cases hh : hideSnippets newId (Colon.escape document) snippets with
    | error err =>
      rw [hh] at h
      cases h
    | ok e => exact ⟨snippets, rfl, hh⟩

theorem escapeWith_of_not_escapable (h : ¬ EscapableWith events newId document config) :
    escapeWith events newId document config = ⟨Colon.escape document, []⟩ := by
  rw [EscapableWith] at h
  rw [escapeWith]
  cases hb : (candidatesWith events (Colon.escape document) config).bind
      (hideSnippets newId (Colon.escape document)) with
  | error err => rfl
  | ok e =>
    rw [hb] at h
    exact absurd rfl h

end Cloak
