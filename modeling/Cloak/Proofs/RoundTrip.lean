import Cloak.Proofs.Candidates
import Cloak.Proofs.Interleave
import Cloak.Proofs.Marks
import Cloak.Proofs.Restore

namespace Cloak

namespace Text

/-- A word stands at one place of a text at most. -/
def OccursOnce (word t : Text) : Prop :=
  ∀ m ≤ t.length, word <+: t.drop m → ∀ n ≤ t.length, word <+: t.drop n → m = n

instance (word t : Text) : Decidable (word.OccursOnce t) :=
  inferInstanceAs (Decidable (∀ m ≤ t.length, word <+: t.drop m → ∀ n ≤ t.length, _ → _))

theorem OccursOnce.append_inj {word t a b a' b' : Text} (h : word.OccursOnce t)
    (ha : t = a ++ (word ++ b)) (ha' : t = a' ++ (word ++ b')) : a = a' := by
  have hlen : a.length ≤ t.length := by
    rw [ha, List.length_append]
    omega
  have hlen' : a'.length ≤ t.length := by
    rw [ha', List.length_append]
    omega
  have hp : word <+: t.drop a.length := by
    rw [ha, List.drop_left]
    exact List.prefix_append word b
  have hp' : word <+: t.drop a'.length := by
    rw [ha', List.drop_left]
    exact List.prefix_append word b'
  exact (List.append_inj (ha.symm.trans ha') (h _ hlen hp _ hlen' hp')).1

/-- Some paragraph of a text holds a word and white space alone. -/
def AloneInParagraph (word t : Text) : Prop :=
  ∃ u v, (∀ c ∈ u, isBlank c) ∧ (∀ c ∈ v, isBlank c) ∧
    "<p>".toList ++ (u ++ (word ++ (v ++ "</p>".toList))) <:+: t

theorem not_aloneInParagraph {t : Text} (h : ¬ "<p>".toList <:+: t) (word : Text) :
    ¬ word.AloneInParagraph t := by
  rintro ⟨u, v, -, -, hp⟩
  exact h ((List.prefix_append _ _).isInfix.trans hp)

end Text

namespace Escaped

def originals (e : Escaped) : Processed.Names :=
  e.snippets.map fun (id, s) => (id, ⟨s.outer, s.dropParagraph⟩)

theorem map_fst_originals (e : Escaped) : e.originals.map Prod.fst = e.snippets.map Prod.fst := by
  rw [originals, List.map_map]
  rfl

theorem mem_originals {e : Escaped} {id : SnippetId} {p : Processed} (h : (id, p) ∈ e.originals) :
    ∃ s, (id, s) ∈ e.snippets ∧ p = ⟨s.outer, s.dropParagraph⟩ := by
  obtain ⟨⟨id', s⟩, hs, he⟩ := List.mem_map.1 h
  cases he
  exact ⟨s, hs, rfl⟩

/-- The names are distinct, and each of them stands in the document for its snippet alone. -/
structure WellNamed (e : Escaped) : Prop where
  isName : ∀ id ∈ e.snippets.map Prod.fst, Substitution.IsName id
  distinct : (e.snippets.map Prod.fst).Nodup
  once : ∀ id ∈ e.snippets.map Prod.fst, id.OccursOnce e.document

theorem WellNamed.isName_originals {e : Escaped} (h : e.WellNamed) :
    ∀ entry ∈ e.originals, Substitution.IsName entry.1 := by
  intro entry hentry
  apply h.isName
  rw [← e.map_fst_originals]
  exact List.mem_map_of_mem hentry

/-- No name stands alone in a paragraph that it would give up. -/
def KeepsParagraphs (e : Escaped) : Prop :=
  ∀ entry ∈ e.snippets, entry.2.dropParagraph → ¬ entry.1.AloneInParagraph e.document

end Escaped

/-- A document with pads around the ranges of some snippets. -/
def padded (document : Text) (snippets : List Snippet) : Text :=
  fillFrom document Snippet.span (fun s => padText (s.span.text document) s.padding) 0 snippets

theorem padded_nil (document : Text) : padded document [] = document := by
  rw [padded, fillFrom, Text.from?, Text.splitAt?_zero]
  rfl

namespace Substitution

theorem onlyMarked_of_wellNamed {e : Escaped} (hw : e.WellNamed) {tail : Text}
    {marks : List (Text × SnippetId × Snippet)} (hmarks : marks.map Prod.snd = e.snippets)
    (hd : e.document = interleave Prod.fst tail marks) :
    OnlyMarked (latest? e.originals) Prod.fst tail marks := by
  intro u v huv hv
  obtain ⟨⟨p, rest⟩, hread⟩ := Option.isSome_iff_exists.1 hv
  obtain ⟨id, rfl, -, hid⟩ := name?_eq_some_iff.1 hread
  obtain ⟨s, hs, -⟩ := Escaped.mem_originals (mem_of_latest? hid)
  obtain ⟨⟨gap, b⟩, hm, hb⟩ := List.mem_map.1 (hmarks ▸ hs)
  obtain ⟨before, after, rfl⟩ := List.append_of_mem hm
  cases hb
  refine ⟨before, gap, (id, s), after, rfl, ?_⟩
  have honce := hw.once id (List.mem_map_of_mem (f := Prod.fst) hs)
  exact honce.append_inj (hd.trans huv) (hd.trans (interleave_append _ _ _ _ _ _))

theorem noLoneName_of_keepsParagraphs {e : Escaped} (hw : e.WellNamed) (hp : e.KeepsParagraphs) :
    NoLoneName (latest? e.originals) e.document := by
  have hk := knowsNames_latest? hw.isName_originals
  intro v hv
  cases hread : paragraph? (latest? e.originals) v with
  | none => rfl
  | some r =>
    obtain ⟨u, id, w, hu, hw', hid, hdrop, rfl⟩ := (paragraph?_eq_some_iff hk).1 hread
    obtain ⟨s, hs, hps⟩ := Escaped.mem_originals (mem_of_latest? hid)
    refine absurd ⟨u, w, hu, hw', ?_⟩ (hp (id, s) hs (by rw [hps] at hdrop; exact hdrop))
    refine List.IsInfix.trans ⟨[], r.2, ?_⟩ hv.isInfix
    simp only [List.nil_append, List.append_assoc]

end Substitution

namespace Escaped

variable {newId : Nat → SnippetId} {document : Text} {e : Escaped} {snippets : List Snippet}

theorem mem_of_mem_snippets (h : hideSnippets newId document snippets = .ok e) :
    ∀ entry ∈ e.snippets, entry.2 ∈ snippets := by
  intro entry hentry
  apply mem_of_mem_outermost
  rw [← (hideSnippets_eq_ok h).1]
  exact List.mem_map_of_mem hentry

theorem outer_eq_text (h : hideSnippets newId document snippets = .ok e)
    (hs : ∀ s ∈ snippets, s.IsOf document) :
    ∀ entry ∈ e.snippets, entry.2.outer = entry.2.span.text document := by
  intro entry hentry
  obtain ⟨-, -, hfit, -⟩ := hideSnippets_eq_ok h
  rw [Snippet.outer, (hs _ (mem_of_mem_snippets h entry hentry)).outer?_eq,
    (hfit _ hentry).text?_eq]
  rfl

/-- Names that are put back as they were leave their pads behind. -/
theorem restoreSnippets_originals (h : hideSnippets newId document snippets = .ok e)
    (hs : ∀ s ∈ snippets, s.IsOf document) (hw : e.WellNamed) (hp : e.KeepsParagraphs) :
    restoreSnippets e.document e.originals = padded document (e.snippets.map Prod.snd) := by
  obtain ⟨-, -, -, hdoc⟩ := hideSnippets_eq_ok h
  have hnd : (e.originals.map Prod.fst).Nodup := by
    rw [e.map_fst_originals]
    exact hw.distinct
  -- the pads belong to the fixed text, and what they surround is exchanged
  obtain ⟨tail, marks, hmarks, hfill⟩ := exists_interleave_eq_fillFrom document
    (fun entry : SnippetId × Snippet => entry.2.span)
    (fun entry => (entry.2.padding.getD .default).left.render)
    (fun entry => (entry.2.padding.getD .default).right.render) [] 0 e.snippets
  have hhidden : e.document = interleave Prod.fst tail marks := by
    rw [hdoc, ← hfill]
    rfl
  have hpadded : padded document (e.snippets.map Prod.snd) =
      interleave (fun entry => entry.2.outer) tail marks := by
    rw [← hfill, padded, fillFrom_map, List.nil_append]
    apply fillFrom_congr
    intro entry hentry
    rw [outer_eq_text h hs entry hentry]
    rfl
  have hknown : ∀ m ∈ marks, ∃ p, Substitution.latest? e.originals m.2.1 = some p ∧
      p.text = m.2.2.outer := by
    intro m hm
    have hentry : m.2 ∈ e.snippets := by
      rw [← hmarks]
      exact List.mem_map_of_mem hm
    exact ⟨⟨m.2.2.outer, m.2.2.dropParagraph⟩,
      Substitution.latest?_of_mem hnd (List.mem_map_of_mem hentry), rfl⟩
  have hlone := Substitution.noLoneName_of_keepsParagraphs hw hp
  have hk := Substitution.knowsNames_latest? hw.isName_originals
  have honly := Substitution.onlyMarked_of_wellNamed hw hmarks hhidden
  rw [Substitution.restoreSnippets_eq hw.isName_originals, hpadded]
  rw [hhidden] at hlone ⊢
  exact Substitution.substitute_interleave hk (fun entry => entry.2.outer) hknown honly hlone

theorem padded_eq_self (h : hideSnippets newId document snippets = .ok e)
    (hpad : ∀ entry ∈ e.snippets, ∀ t, padText t entry.2.padding = t) :
    padded document (e.snippets.map Prod.snd) = document := by
  obtain ⟨-, hc, hfit, -⟩ := hideSnippets_eq_ok h
  have htext := fillFrom_text (List.nil_append document).symm hc hfit
  rw [padded, fillFrom_map, fillFrom_congr fun entry hentry => hpad entry hentry _]
  exact htext

end Escaped

/-- Restoring what was hidden gives the document with the pads of its snippets, and the document
itself where no snippet may give up a paragraph, for only those that may are padded. -/
theorem restore_originals (events : Text → List MarkdownEvent) (newId : Nat → SnippetId)
    (document : Text) (config : Config) :
    let e := escapeWith events newId document config
    (¬ Colon.placeholder <:+: document → e.WellNamed →
      (e.KeepsParagraphs → restore e.document e.originals =
        Colon.unescape (padded (Colon.escape document) (e.snippets.map Prod.snd))) ∧
      ((∀ entry ∈ e.snippets, entry.2.dropParagraph = false) →
        restore e.document e.originals = document)) ∧
    ∀ entry ∈ e.snippets, entry.2.dropParagraph = false → ∀ t, padText t entry.2.padding = t := by
  intro e
  by_cases hok : EscapableWith events newId document config
  · obtain ⟨snippets, hc, hh⟩ := escapeWith_of_escapable hok
    have hs := isOf_of_mem_candidates hc
    have hpad : ∀ entry ∈ e.snippets, entry.2.dropParagraph = false →
        ∀ t, padText t entry.2.padding = t :=
      fun entry hentry => (hs _ (Escaped.mem_of_mem_snippets hh entry hentry)).unpadded
    refine ⟨?_, hpad⟩
    intro hplain hw
    have hrestore : e.KeepsParagraphs → restore e.document e.originals =
        Colon.unescape (padded (Colon.escape document) (e.snippets.map Prod.snd)) := by
      intro hp
      rw [restore, Escaped.restoreSnippets_originals hh hs hw hp]
    refine ⟨hrestore, ?_⟩
    intro hkeep
    have hp : e.KeepsParagraphs := by
      intro entry hentry hdrop
      rw [hkeep entry hentry] at hdrop
      cases hdrop
    rw [hrestore hp, Escaped.padded_eq_self hh fun entry hentry => hpad entry hentry
      (hkeep entry hentry), Colon.unescape_escape hplain]
  · have he : e = ⟨Colon.escape document, []⟩ := escapeWith_of_not_escapable hok
    rw [he]
    refine ⟨?_, fun entry hentry => (List.not_mem_nil hentry).elim⟩
    intro hplain _
    refine ⟨fun _ => ?_, fun _ => Colon.unescape_escape hplain⟩
    rw [List.map_nil, padded_nil]
    rfl

/-- A code block comes back with a newline more, and touching inline snippets as they were. -/
theorem restore_originals_code_block :
    let newId : Nat → SnippetId := fun n => Text.repeated 31 'a' ++ [Char.ofNat (48 + n)]
    let document := "Let `x` be\n\n```js\n1\n```\n<svelte:head/> \x7by\x7d".toList
    let inline := "Let `x`\x7by\x7d`z` be".toList
    let e := escapeWith Markdown.events newId document {}
    let e' := escapeWith Markdown.events newId inline {}
    (¬ Colon.placeholder <:+: document ∧ e.WellNamed ∧ e.KeepsParagraphs ∧
      e.snippets.length = 3 ∧ restore e.document e.originals =
        Colon.unescape (padded (Colon.escape document) (e.snippets.map Prod.snd))) ∧
    ¬ Colon.placeholder <:+: inline ∧ e'.WellNamed ∧
      (∀ entry ∈ e'.snippets, entry.2.dropParagraph = false) ∧
      e'.snippets.length = 3 ∧ restore e'.document e'.originals = inline := by
  intro newId document inline e e'
  have hplain : ¬ Colon.placeholder <:+: document := by decide +kernel
  have hw : e.WellNamed := ⟨by decide +kernel, by decide +kernel, by decide +kernel⟩
  have hp : e.KeepsParagraphs :=
    fun entry _ _ => Text.not_aloneInParagraph (by decide +kernel) entry.1
  have hplain' : ¬ Colon.placeholder <:+: inline := by decide +kernel
  have hw' : e'.WellNamed := ⟨by decide +kernel, by decide +kernel, by decide +kernel⟩
  have hkeep : ∀ entry ∈ e'.snippets, entry.2.dropParagraph = false := by decide +kernel
  exact ⟨⟨hplain, hw, hp, by decide +kernel,
    ((restore_originals Markdown.events newId document {}).1 hplain hw).1 hp⟩,
    hplain', hw', hkeep, by decide +kernel,
    ((restore_originals Markdown.events newId inline {}).1 hplain' hw').2 hkeep⟩

end Cloak
