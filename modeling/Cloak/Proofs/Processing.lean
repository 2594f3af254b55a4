import Cloak.Process
import Cloak.Proofs.Restore

namespace Cloak

namespace Substitution

variable {known known' : Text → Option Processed}

/-- The same names are known, and the same of them give up a paragraph. -/
def Alike (known known' : Text → Option Processed) : Prop :=
  ∀ id, (known id).map Processed.dropParagraph = (known' id).map Processed.dropParagraph

theorem Alike.symm (h : Alike known known') : Alike known' known :=
  fun id => (h id).symm

theorem Alike.exists_known (h : Alike known known') {id : Text} {p : Processed}
    (hid : known id = some p) :
    ∃ p', known' id = some p' ∧ p'.dropParagraph = p.dropParagraph := by
  have hflag := h id
  rw [hid, Option.map_some] at hflag
  exact Option.map_eq_some_iff.1 hflag.symm

theorem Alike.knowsNames (h : Alike known known') (hk : KnowsNames known) : KnowsNames known' := by
  intro id p hid
  obtain ⟨q, hq, -⟩ := h.symm.exists_known hid
  exact hk id q hq

theorem unit?_of_alike (hk : KnowsNames known) {t rest : Text} {p : Processed}
    (h : unit? known t = some (p, rest)) :
    ∃ id, known id = some p ∧ ∀ known', Alike known known' →
      ∃ p', known' id = some p' ∧ unit? known' t = some (p', rest) := by
  rcases Option.or_eq_some_iff.1 h with h | ⟨hnone, h⟩
  · obtain ⟨u, id, v, hu, hv, hid, hdrop, ht⟩ := (paragraph?_eq_some_iff hk).1 h
    refine ⟨id, hid, ?_⟩
    intro known' ha
    obtain ⟨p', hid', hflag⟩ := ha.exists_known hid
    have hp := (paragraph?_eq_some_iff (ha.knowsNames hk)).2
      ⟨u, id, v, hu, hv, hid', hflag.trans hdrop, ht⟩
    exact ⟨p', hid', by rw [unit?, hp, Option.some_or]⟩
  · obtain ⟨id, ht, hlen, hid⟩ := name?_eq_some_iff.1 h
    refine ⟨id, hid, ?_⟩
    intro known' ha
    obtain ⟨p', hid', -⟩ := ha.exists_known hid
    have hn := name?_eq_some_iff.2 ⟨id, ht, hlen, hid'⟩
    have hp : paragraph? known' t = none := by
      cases hp : paragraph? known' t with
      | none => rfl
      | some r =>
        obtain ⟨u, id, v, hu, hv, hid, hdrop, ht⟩ :=
          (paragraph?_eq_some_iff (ha.knowsNames hk)).1 hp
        obtain ⟨q, hq, hflag⟩ := ha.symm.exists_known hid
        rw [(paragraph?_eq_some_iff hk).2 ⟨u, id, v, hu, hv, hq, hflag.trans hdrop, ht⟩] at hnone
        cases hnone
    exact ⟨p', hid', by rw [unit?, hp, Option.none_or, hn]⟩

theorem unit?_eq_none_of_alike (hk : KnowsNames known) (ha : Alike known known') {t : Text}
    (h : unit? known t = none) : unit? known' t = none := by
  cases hu : unit? known' t with
  | none => rfl
  | some r =>
    obtain ⟨id, -, hback⟩ := unit?_of_alike (ha.knowsNames hk) hu
    obtain ⟨p, -, hp⟩ := hback known ha.symm
    rw [h] at hp
    cases hp

theorem intercalate_append_cons (text a u : Text) (us : List Text) :
    text.intercalate ((a ++ u) :: us) = a ++ text.intercalate (u :: us) := by
  cases us with
  | nil => simp only [List.intercalate_singleton]
  | cons v us => simp only [List.intercalate_cons_cons, List.append_assoc]

/-- A text with names replaced is cut into pieces by the text of any one name, and the pieces do not
depend on it. -/
theorem exists_pieces (hk : KnowsNames known) (key t : Text) :
    ∃ u us, ∀ known', Alike known known' → (∀ id, id ≠ key → known' id = known id) →
      ∀ p, known' key = some p → substitute known' t = p.text.intercalate (u :: us) := by
  -- the walk may go on behind a name, so the induction is on the length
  induction hn : t.length using Nat.strongRecOn generalizing t with
  | ind n ih =>
    cases t with
    | nil =>
      refine ⟨[], [], ?_⟩
      intro known' _ _ p _
      rw [substitute_nil, List.intercalate_singleton]
    | cons c t =>
      cases hu : unit? known (c :: t) with
      | none =>
        obtain ⟨u, us, hpieces⟩ := ih t.length (hn ▸ Nat.lt_succ_self _) t rfl
        refine ⟨[c] ++ u, us, ?_⟩
        intro known' ha hothers p hp
        rw [substitute_of_none (unit?_eq_none_of_alike hk ha hu), hpieces known' ha hothers p hp,
          intercalate_append_cons]
        rfl
      | some r =>
        obtain ⟨q, rest⟩ := r
        obtain ⟨id, hid, hback⟩ := unit?_of_alike hk hu
        obtain ⟨u, us, hpieces⟩ := ih rest.length (hn ▸ length_of_unit? hu) rest rfl
        by_cases hkey : id = key
        · subst hkey
          refine ⟨[], u :: us, ?_⟩
          intro known' ha hothers p hp
          obtain ⟨p', hid', hunit⟩ := hback known' ha
          obtain rfl : p' = p := Option.some.inj (hid'.symm.trans hp)
          rw [substitute_of_some hunit, hpieces known' ha hothers p' hp,
            List.intercalate_cons_cons, List.nil_append]
        · refine ⟨q.text ++ u, us, ?_⟩
          intro known' ha hothers p hp
          obtain ⟨p', hid', hunit⟩ := hback known' ha
          obtain rfl : p' = q := by
            rw [hothers id hkey, hid] at hid'
            exact (Option.some.inj hid').symm
          rw [substitute_of_some hunit, hpieces known' ha hothers p hp, intercalate_append_cons]

end Substitution

namespace Backend

variable {escapeHtml : Text → Except Text Text} {backend backend' : Backend} {config : Config}
variable {snippets : List (SnippetId × Snippet)}

/-- Two backends give the same answer, or the same error, on every snippet but the one at `k`. -/
def AlikeExcept (escapeHtml : Text → Except Text Text) (config : Config)
    (snippets : List (SnippetId × Snippet)) (k : Nat) (backend backend' : Backend) : Prop :=
  ∀ i, i ≠ k → ∀ e ∈ snippets[i]?,
    backend.processWith escapeHtml config e.2 = backend'.processWith escapeHtml config e.2

theorem getElem?_processAllWith (escapeHtml : Text → Except Text Text) (backend : Backend)
    (config : Config) (snippets : List (SnippetId × Snippet)) (i : Nat) :
    (backend.processAllWith escapeHtml config snippets)[i]? = snippets[i]?.map fun e =>
      (e.1, ⟨backend.processOrKeep escapeHtml config e.2, e.2.dropParagraph⟩) :=
  List.getElem?_map

theorem processOrKeep_of_error {s : Snippet} {err : ProcessError}
    (h : backend.processWith escapeHtml config s = .error err) :
    backend.processOrKeep escapeHtml config s = s.outer := by
  rw [processOrKeep, h]

theorem map_fst_processAllWith (escapeHtml : Text → Except Text Text) (backend : Backend)
    (config : Config) (snippets : List (SnippetId × Snippet)) :
    (backend.processAllWith escapeHtml config snippets).map Prod.fst = snippets.map Prod.fst := by
  rw [processAllWith, List.map_map]
  rfl

theorem latest?_processAllWith (escapeHtml : Text → Except Text Text) (backend : Backend)
    (config : Config) (hdistinct : (snippets.map Prod.fst).Nodup) {e : SnippetId × Snippet}
    (he : e ∈ snippets) :
    Substitution.latest? (backend.processAllWith escapeHtml config snippets) e.1 =
      some ⟨backend.processOrKeep escapeHtml config e.2, e.2.dropParagraph⟩ := by
  rw [← backend.map_fst_processAllWith escapeHtml config] at hdistinct
  exact Substitution.latest?_of_mem hdistinct (List.mem_map_of_mem he)

theorem latest?_processAllWith_eq_none (escapeHtml : Text → Except Text Text) (backend : Backend)
    (config : Config) {id : SnippetId} (h : id ∉ snippets.map Prod.fst) :
    Substitution.latest? (backend.processAllWith escapeHtml config snippets) id = none := by
  rw [← backend.map_fst_processAllWith escapeHtml config] at h
  exact Substitution.latest?_eq_none h

theorem alike_processAllWith (escapeHtml : Text → Except Text Text) (backend backend' : Backend)
    (config : Config) (hdistinct : (snippets.map Prod.fst).Nodup) :
    Substitution.Alike (Substitution.latest? (backend.processAllWith escapeHtml config snippets))
      (Substitution.latest? (backend'.processAllWith escapeHtml config snippets)) := by
  intro id
  by_cases hid : id ∈ snippets.map Prod.fst
  · obtain ⟨e, he, rfl⟩ := List.mem_map.1 hid
    rw [backend.latest?_processAllWith escapeHtml config hdistinct he,
      backend'.latest?_processAllWith escapeHtml config hdistinct he, Option.map_some,
      Option.map_some]
  · rw [backend.latest?_processAllWith_eq_none escapeHtml config hid,
      backend'.latest?_processAllWith_eq_none escapeHtml config hid]

theorem AlikeExcept.getElem?_eq {k i : Nat}
    (h : AlikeExcept escapeHtml config snippets k backend backend') (hi : i ≠ k) :
    (backend.processAllWith escapeHtml config snippets)[i]? =
      (backend'.processAllWith escapeHtml config snippets)[i]? := by
  rw [getElem?_processAllWith, getElem?_processAllWith]
  apply Option.map_congr
  intro e he
  rw [processOrKeep, processOrKeep, h i hi e he]

theorem AlikeExcept.latest?_eq {k : Nat}
    (h : AlikeExcept escapeHtml config snippets k backend backend')
    (hdistinct : (snippets.map Prod.fst).Nodup) {key : SnippetId × Snippet}
    (hkey : snippets[k]? = some key) {id : SnippetId} (hid : id ≠ key.1) :
    Substitution.latest? (backend'.processAllWith escapeHtml config snippets) id =
      Substitution.latest? (backend.processAllWith escapeHtml config snippets) id := by
  by_cases hmem : id ∈ snippets.map Prod.fst
  · obtain ⟨e, he, rfl⟩ := List.mem_map.1 hmem
    obtain ⟨i, hi⟩ := List.mem_iff_getElem?.1 he
    have hne : i ≠ k := by
      rintro rfl
      rw [hi] at hkey
      exact hid (congrArg Prod.fst (Option.some.inj hkey))
    rw [backend.latest?_processAllWith escapeHtml config hdistinct he,
      backend'.latest?_processAllWith escapeHtml config hdistinct he, processOrKeep, processOrKeep,
      h i hne e hi]
  · rw [backend.latest?_processAllWith_eq_none escapeHtml config hmem,
      backend'.latest?_processAllWith_eq_none escapeHtml config hmem]

end Backend

/-- One snippet's processing cannot disturb another's. Every backend leaves the names and what they
give up as they were, in order, and the original text where it fails. Backends that answer alike on
all snippets but the one at `k` give the same entries but that one, and its text is all that tells
the restored documents apart: they are the same pieces, joined by it. -/
theorem processAll_isolated (escapeHtml : Text → Except Text Text) (backend : Backend)
    (config : Config) {snippets : List (SnippetId × Snippet)}
    (hnames : ∀ e ∈ snippets, Substitution.IsName e.1)
    (hdistinct : (snippets.map Prod.fst).Nodup) {k : Nat} (hk : k < snippets.length) :
    (∀ b : Backend,
      (b.processAllWith escapeHtml config snippets).map (fun e => (e.1, e.2.dropParagraph)) =
          snippets.map (fun e => (e.1, e.2.dropParagraph)) ∧
        ∀ (i : Nat) (e : SnippetId × Snippet) (err : ProcessError), snippets[i]? = some e →
          b.processWith escapeHtml config e.2 = .error err →
            (b.processAllWith escapeHtml config snippets)[i]? =
              some (e.1, ⟨e.2.outer, e.2.dropParagraph⟩)) ∧
    (∀ b : Backend, backend.AlikeExcept escapeHtml config snippets k b → ∀ i, i ≠ k →
      (b.processAllWith escapeHtml config snippets)[i]? =
        (backend.processAllWith escapeHtml config snippets)[i]?) ∧
    ∀ document, ∃ u us, ∀ b : Backend, backend.AlikeExcept escapeHtml config snippets k b →
      ∃ e, (b.processAllWith escapeHtml config snippets)[k]? = some e ∧
        restoreSnippets document (b.processAllWith escapeHtml config snippets) =
          e.2.text.intercalate (u :: us) := by
  refine ⟨?_, fun b h i hi => (h.getElem?_eq hi).symm, ?_⟩
  · intro b
    constructor
    · rw [Backend.processAllWith, List.map_map]
      rfl
    · intro i e err he herr
      rw [b.getElem?_processAllWith, he, Option.map_some, Backend.processOrKeep_of_error herr]
  · intro document
    obtain ⟨key, hkey⟩ : ∃ key, snippets[k]? = some key := ⟨_, List.getElem?_eq_getElem hk⟩
    have hisName (b : Backend) :
        ∀ e ∈ b.processAllWith escapeHtml config snippets, Substitution.IsName e.1 := by
      intro e he
      obtain ⟨entry, hentry, rfl⟩ := List.mem_map.1 he
      exact hnames entry hentry
    obtain ⟨u, us, hpieces⟩ := Substitution.exists_pieces
      (Substitution.knowsNames_latest? (hisName backend)) key.1 document
    refine ⟨u, us, ?_⟩
    intro b h
    have hlatest := b.latest?_processAllWith escapeHtml config hdistinct (List.mem_of_getElem? hkey)
    refine ⟨(key.1, ⟨b.processOrKeep escapeHtml config key.2, key.2.dropParagraph⟩), ?_, ?_⟩
    · rw [b.getElem?_processAllWith, hkey, Option.map_some]
    · rw [Substitution.restoreSnippets_eq (hisName b)]
      exact hpieces _ (backend.alike_processAllWith escapeHtml b config hdistinct)
        (fun id hid => h.latest?_eq hdistinct hkey hid) _ hlatest

/-- A backend that answers with the name of another snippet and a tag, and one that fails. -/
theorem processAll_isolated_hostile :
    let name : Char → SnippetId := fun c => Text.repeated 31 'a' ++ [c]
    let source := "`x`$y$".toList
    let code := Snippet.forBackend .code source ⟨0, 3⟩ ['x'] (.code ⟨true, none, none⟩) .none false
    let math := Snippet.forBackend .math source ⟨3, 6⟩ ['y'] (.math true) .none true
    let snippets := [(name '0', code), (name '1', math)]
    let hostile := { Backend.passthrough with math := fun _ _ => .ok (name '0' ++ "<p>".toList) }
    let failing := { Backend.passthrough with math := fun _ _ => .error (.unsupported []) }
    let document := "<p>".toList ++ name '1' ++ "</p>".toList ++ name '0' ++ name '1'
    let restored : Backend → Text := fun b =>
      restoreSnippets document (b.processAllWith escapeHtml {} snippets)
    (∀ e ∈ snippets, Substitution.IsName e.1) ∧ (snippets.map Prod.fst).Nodup ∧
      Backend.passthrough.AlikeExcept escapeHtml {} snippets 1 hostile ∧
      Backend.passthrough.AlikeExcept escapeHtml {} snippets 1 failing ∧
      (failing.processAllWith escapeHtml {} snippets)[1]? = some (name '1', ⟨"$y$".toList, true⟩) ∧
      ∃ u us, restored hostile = (name '0' ++ "<p>".toList).intercalate (u :: us) ∧
        restored failing = "$y$".toList.intercalate (u :: us) := by
  intro name source code math snippets hostile failing document restored
  have hnames : ∀ e ∈ snippets, Substitution.IsName e.1 := by decide
  have hdistinct : (snippets.map Prod.fst).Nodup := by decide
  have alike {b : Backend} (hb : Backend.passthrough.processWith escapeHtml {} code =
      b.processWith escapeHtml {} code) :
      Backend.passthrough.AlikeExcept escapeHtml {} snippets 1 b := by
    intro i hi e he
    match i with
    | 0 =>
      cases he
      exact hb
    | 1 => exact absurd rfl hi
    | i + 2 => cases he
  have hhostile : Backend.passthrough.AlikeExcept escapeHtml {} snippets 1 hostile := alike rfl
  have hfailing : Backend.passthrough.AlikeExcept escapeHtml {} snippets 1 failing := alike rfl
  obtain ⟨hentries, -, hpieces⟩ := processAll_isolated escapeHtml Backend.passthrough {} hnames
    hdistinct (k := 1) (by decide)
  refine ⟨hnames, hdistinct, hhostile, hfailing, (hentries failing).2 1 _ _ rfl rfl, ?_⟩
  obtain ⟨u, us, hjoin⟩ := hpieces document
  obtain ⟨e, he, hrestored⟩ := hjoin hostile hhostile
  obtain ⟨e', he', hrestored'⟩ := hjoin failing hfailing
  cases he
  cases he'
  exact ⟨u, us, hrestored, hrestored'⟩

end Cloak
