import Cloak.Proofs.Agreement
import Cloak.Proofs.Transparency

namespace Cloak

namespace Text

variable {p : Char → Bool} {c : Char}

theorem offsetOf?_append (hc : p c) {a : Text} (ha : ∀ d ∈ a, p d = false) (b : Text) :
    offsetOf? p (a ++ c :: b) = some a.size := by
  induction a with
  | nil => exact if_pos hc
  | cons d a ih =>
    obtain ⟨hd, ha⟩ := List.forall_mem_cons.1 ha
    rw [List.cons_append, offsetOf?, hd, if_neg Bool.false_ne_true, ih ha]
    rfl

theorem lastOffsetOf?_eq_none_iff {t : Text} :
    lastOffsetOf? p t = none ↔ ∀ d ∈ t, p d = false := by
  induction t with
  | nil => exact iff_of_true rfl (List.forall_mem_nil _)
  | cons d t ih =>
    rw [lastOffsetOf?, List.forall_mem_cons, ← ih]
    cases lastOffsetOf? p t <;> cases p d <;> simp

theorem lastOffsetOf?_append (hc : p c) (a : Text) {b : Text} (hb : ∀ d ∈ b, p d = false) :
    lastOffsetOf? p (a ++ c :: b) = some a.size := by
  induction a with
  | nil =>
    rw [List.nil_append, lastOffsetOf?, lastOffsetOf?_eq_none_iff.2 hb]
    exact if_pos hc
  | cons d a ih => rw [List.cons_append, lastOffsetOf?, ih, size_cons]

end Text

namespace Span

theorem filter_holds_flatMap {spans : List Span} {f : Span → List Nat} {r : Span}
    (hapart : spans.Pairwise fun a b => a.stop ≤ b.start)
    (hf : ∀ a ∈ spans, ∀ n ∈ f a, a.holds n) (hr : r ∈ spans) :
    (spans.flatMap f).filter r.holds = f r := by
  obtain ⟨before, behind, rfl⟩ := List.append_of_mem hr
  obtain ⟨-, hbehind, hbefore⟩ := List.pairwise_append.1 hapart
  have hnone : ∀ a ∈ before ++ behind, ∀ n ∈ f a, ¬ r.holds n := by
    intro a ha n hn hother
    have hmem : a ∈ before ++ r :: behind := by
      rw [List.mem_append] at ha ⊢
      exact ha.imp_right (List.mem_cons_of_mem r)
    have hown := hf a hmem n hn
    rw [holds_iff] at hown hother
    rcases List.mem_append.1 ha with ha | ha
    · have hle := hbefore a ha r List.mem_cons_self
      omega
    · have hle := (List.pairwise_cons.1 hbehind).1 a ha
      omega
  have hnil : ∀ as, as ⊆ before ++ behind → (as.flatMap f).filter r.holds = [] := by
    intro as has
    refine List.filter_eq_nil_iff.2 fun n hn => ?_
    obtain ⟨a, ha, hn⟩ := List.mem_flatMap.1 hn
    exact hnone a (has ha) n hn
  rw [List.flatMap_append, List.flatMap_cons, List.filter_append, List.filter_append,
    hnil before (List.subset_append_left before behind),
    hnil behind (List.subset_append_right before behind), List.filter_eq_self.2 (hf r hr),
    List.append_nil, List.nil_append]

end Span

namespace Colon

open ElementForm (Reads endsHere)

theorem mem_offsetsFrom (pre : Text) {before after : Text}
    (h : isReplaced (pre ++ before) ':' after) :
    Text.size (pre ++ before) ∈ offsetsFrom pre (before ++ ':' :: after) := by
  induction before generalizing pre with
  | nil =>
    rw [List.append_nil] at h ⊢
    change pre.size ∈ (if isReplaced pre ':' after then [pre.size] else []) ++ _
    rw [if_pos h]
    exact List.mem_append_left _ List.mem_cons_self
  | cons c before ih =>
    rw [List.append_cons pre c before] at h ⊢
    exact List.mem_append_right _ (ih (pre ++ [c]) h)

theorem mem_offsets {before after : Text} (h : isReplaced before ':' after) :
    before.size ∈ offsets (before ++ ':' :: after) :=
  mem_offsetsFrom [] h

theorem wordAt_placeholder {before after : Text} (h : isReplaced before ':' after) :
    (escape (before ++ ':' :: after)).WordAt (moved (before ++ ':' :: after) before.size)
      placeholder := by
  have hplain : plain (marks (before ++ ':' :: after)) = before ++ ':' :: after :=
    plain_marksFrom [] _
  obtain ⟨a, m, hmarks, ha, hm⟩ := List.map_eq_append_iff.1 hplain
  obtain ⟨x, r, rfl, hx, hr⟩ := List.map_eq_cons_iff.1 hm
  have hreplaced : x.replaced = true := by
    rw [← ha, ← hr, ← hx] at h
    exact (marksFrom_split hmarks).trans h
  obtain ⟨c, replaced⟩ := x
  cases hreplaced
  refine ⟨expand a, expand r, ?_, ?_⟩
  · rw [escape_eq_expand, hmarks, expand_append, expand_cons_replaced]
  · rw [← moved_size hmarks]
    exact congrArg (fun t => moved _ (Text.size t)) ha.symm

theorem not_slash_mem_names : ∀ name ∈ names, '/' ∉ name := by
  decide

section

variable {name opening body close : Text} {selfClosing : Bool}

theorem firstColon_of_reads (h : Reads (scope ++ ':' :: name) selfClosing opening body close) :
    ∃ rest, endsHere rest ∧
      opening ++ (body ++ close) = '<' :: scope ++ ':' :: (name ++ rest) := by
  obtain ⟨c, u, hc, rfl⟩ := h.opens
  refine ⟨c :: (u ++ (body ++ close)), ElementForm.endsHere_cons.2 hc, ?_⟩
  simp only [List.cons_append, List.append_assoc]

theorem lastColon_of_reads (h : Reads (scope ++ ':' :: name) false opening body close) :
    ∃ w, (∀ c ∈ w, isBlank c) ∧
      opening ++ (body ++ close) =
        opening ++ body ++ '<' :: '/' :: scope ++ ':' :: (name ++ w) ++ ['>'] := by
  obtain ⟨w, hw, rfl⟩ := h.isCloseTag
  refine ⟨w, hw, ?_⟩
  simp only [List.cons_append, List.append_assoc]

theorem slash_suffix_of_reads {t : Text} (h : Reads t true opening body close) :
    "/>".toList <:+ opening ++ (body ++ close) := by
  cases h with
  | bare =>
    rw [List.append_nil, List.append_nil]
    exact List.suffix_append ('<' :: t) "/>".toList
  | selfClosing ha =>
    obtain ⟨-, -, hslash⟩ := ElementForm.attributes?_ends ha
    rw [List.append_nil, List.append_nil]
    exact (hslash rfl).trans (List.suffix_append ('<' :: t) _)

theorem ne_of_mem_closeTag (hname : name ∈ names) {w : Text} (hw : ∀ c ∈ w, isBlank c) :
    ∀ c ∈ name ++ w, c ≠ ':' ∧ c ≠ '/' := by
  intro c hc
  rcases List.mem_append.1 hc with hc | hc
  · refine ⟨?_, ?_⟩
    · rintro rfl
      exact not_colon_mem_names name hname hc
    · rintro rfl
      exact not_slash_mem_names name hname hc
  · have hblank := hw c hc
    refine ⟨?_, ?_⟩
    · rintro rfl
      cases hblank
    · rintro rfl
      cases hblank

theorem not_slash_suffix_of_reads (hname : name ∈ names)
    (h : Reads (scope ++ ':' :: name) false opening body close) :
    ¬ "/>".toList <:+ opening ++ (body ++ close) := by
  obtain ⟨w, hw, ht⟩ := lastColon_of_reads h
  rintro ⟨u, hu⟩
  have hends : u ++ ['/'] ++ ['>'] =
      opening ++ body ++ '<' :: '/' :: scope ++ ':' :: (name ++ w) ++ ['>'] := by
    rw [← ht, ← hu, List.append_assoc]
    rfl
  have hlast := congrArg List.getLast? (List.append_cancel_right hends)
  rw [List.getLast?_concat, List.getLast?_append_of_ne_nil _ (List.cons_ne_nil _ _)] at hlast
  rcases List.mem_cons.1 (List.mem_of_getLast? hlast.symm) with hslash | hslash
  · cases hslash
  · exact (ne_of_mem_closeTag hname hw _ hslash).2 rfl

theorem size_opening : Text.size ('<' :: scope) = 7 := by
  decide

theorem size_opening_lt (t : Text) : 7 < Text.size (t ++ '<' :: '/' :: scope) := by
  have hsize : Text.size ('<' :: '/' :: scope) = 8 := by decide
  rw [Text.size_append, hsize]
  omega

/-- The colons to report of an element are those of its tags. -/
theorem offsetsIn_of_reads (hname : name ∈ names)
    (h : Reads (scope ++ ':' :: name) selfClosing opening body close) :
    offsetsIn (opening ++ (body ++ close)) =
      7 :: if selfClosing then [] else [Text.size (opening ++ body ++ '<' :: '/' :: scope)] := by
  have hcolon : (':' == ':') = true := beq_self_eq_true ':'
  obtain ⟨rest, -, ht⟩ := firstColon_of_reads h
  have hfirst : Text.offsetOf? (· == ':') (opening ++ (body ++ close)) = some 7 := by
    have hnone := not_colon_mem_heads ('<' :: scope) List.mem_cons_self
    rw [ht, ← size_opening]
    refine Text.offsetOf?_append (p := (· == ':')) hcolon (fun c hc => ?_) _
    exact beq_eq_false_iff_ne.2 fun he => hnone (he ▸ hc)
  cases selfClosing with
  | true =>
    have hslash := List.isSuffixOf_iff_suffix.2 (slash_suffix_of_reads h)
    have hmem : ':' ∈ opening ++ (body ++ close) := by
      rw [ht]
      exact List.mem_append_right _ List.mem_cons_self
    obtain ⟨last, hlast⟩ :
        ∃ last, Text.lastOffsetOf? (· == ':') (opening ++ (body ++ close)) = some last := by
      refine Option.ne_none_iff_exists'.1 fun hnone => ?_
      cases Text.lastOffsetOf?_eq_none_iff.1 hnone ':' hmem
    simp only [offsetsIn, hfirst, hlast, hslash, Bool.true_or, if_true]
  | false =>
    have hslash :=
      Bool.eq_false_iff.2 (mt List.isSuffixOf_iff_suffix.1 (not_slash_suffix_of_reads hname h))
    obtain ⟨w, hw, ht⟩ := lastColon_of_reads h
    have hlast : Text.lastOffsetOf? (· == ':') (opening ++ (body ++ close)) =
        some (Text.size (opening ++ body ++ '<' :: '/' :: scope)) := by
      rw [ht, List.append_assoc _ _ ['>'], List.cons_append]
      refine Text.lastOffsetOf?_append (p := (· == ':')) hcolon _ fun c hc => ?_
      rcases List.mem_append.1 hc with hc | hc
      · exact beq_eq_false_iff_ne.2 (ne_of_mem_closeTag hname hw c hc).1
      · obtain rfl := List.mem_singleton.1 hc
        rfl
    have hne := Nat.ne_of_gt (size_opening_lt (opening ++ body))
    simp only [offsetsIn, hfirst, hlast, hslash, Bool.false_or, decide_eq_true_eq, hne, if_false,
      Bool.false_eq_true]

theorem isReplaced_of_suffix {head before rest : Text} (hhead : head ∈ heads)
    (hbefore : head <:+ before) (hname : name ∈ names) (hends : endsHere rest) :
    ∀ a b, isReplaced (a ++ before) ':' (name ++ rest ++ b) := by
  intro a b
  refine isReplaced_iff.2 ⟨rfl, ⟨head, hhead, hbefore.trans (List.suffix_append a before)⟩, ?_⟩
  rw [List.append_assoc]
  exact ElementForm.isSome_name?_append hname (ElementForm.endsHere_append hends b)

theorem exists_replaced_of_mem_offsetsIn (hname : name ∈ names)
    (h : Reads (scope ++ ':' :: name) selfClosing opening body close) {n : Nat}
    (hn : n ∈ offsetsIn (opening ++ (body ++ close))) :
    ∃ before after, opening ++ (body ++ close) = before ++ ':' :: after ∧ n = before.size ∧
      ∀ a b, isReplaced (a ++ before) ':' (after ++ b) := by
  rw [offsetsIn_of_reads hname h] at hn
  rcases List.mem_cons.1 hn with rfl | hn
  · obtain ⟨rest, hends, ht⟩ := firstColon_of_reads h
    exact ⟨_, _, ht, size_opening.symm,
      isReplaced_of_suffix List.mem_cons_self List.suffix_rfl hname hends⟩
  · cases selfClosing with
    | true => cases hn
    | false =>
      obtain ⟨w, hw, ht⟩ := lastColon_of_reads h
      have hends : endsHere (w ++ ['>']) := by
        cases w with
        | nil => rfl
        | cons c w => exact ElementForm.endsHere_cons.2 (.inl (hw c List.mem_cons_self))
      refine ⟨_, name ++ (w ++ ['>']), ?_, List.mem_singleton.1 hn,
        isReplaced_of_suffix (List.mem_cons_of_mem _ List.mem_cons_self) (List.suffix_append _ _)
          hname hends⟩
      rw [ht, List.append_assoc _ _ ['>'], List.cons_append, List.append_assoc name]

theorem pairwise_offsetsIn (hname : name ∈ names)
    (h : Reads (scope ++ ':' :: name) selfClosing opening body close) :
    (offsetsIn (opening ++ (body ++ close))).Pairwise (· < ·) := by
  rw [offsetsIn_of_reads hname h]
  cases selfClosing with
  | true => exact List.pairwise_singleton _ 7
  | false => exact List.pairwise_pair.2 (size_opening_lt (opening ++ body))

end

theorem exists_reads_of_mem_elements {document : Text} {r : Span} (h : r ∈ elements document) :
    ∃ name ∈ names, ∃ selfClosing opening body close,
      Reads (scope ++ ':' :: name) selfClosing opening body close ∧
        r.text document = opening ++ (body ++ close) := by
  obtain ⟨name, hmem, hreads⟩ := ElementForm.reads_of_mem_find h
  obtain ⟨special, hspecial, rfl⟩ := List.mem_map.1 hmem
  exact ⟨special, hspecial, hreads⟩

theorem exists_split_of_mem_elements {document : Text} {r : Span} (h : r ∈ elements document) :
    ∃ a b, document = a ++ (r.text document ++ b) ∧
      r = ⟨a.size, a.size + (r.text document).size⟩ := by
  obtain ⟨a, element, b, hd, hr, -⟩ := ElementForm.exists_element?_of_mem_find h
  have htext : r.text document = element := by
    rw [Span.text, Text.slice, hd, hr, Text.slice?_append, Option.getD_some]
  exact ⟨a, b, by rw [htext, hd], by rw [htext, hr]⟩

theorem pairwise_elements (document : Text) :
    (elements document).Pairwise fun a b => a.stop ≤ b.start := by
  have hconsecutive : Consecutive id 0 (elements document) :=
    consecutive_map.2 (Text.consecutive_matchesFrom _ 0 0 document)
  refine hconsecutive.pairwise_stop_le fun r hr => ?_
  obtain ⟨a, b, -, hr⟩ := exists_split_of_mem_elements hr
  rw [hr]
  exact Nat.le_add_right _ _

theorem exists_replaced_of_mem_elements {document : Text} {r : Span} (h : r ∈ elements document)
    {n : Nat} (hn : n ∈ offsetsIn (r.text document)) :
    r.holds (r.start + n) ∧ ∃ before after, document = before ++ ':' :: after ∧
      r.start + n = before.size ∧ isReplaced before ':' after := by
  obtain ⟨a, b, hd, hr⟩ := exists_split_of_mem_elements h
  obtain ⟨name, hname, selfClosing, opening, body, close, hreads, htext⟩ :=
    exists_reads_of_mem_elements h
  rw [htext] at hn hd hr
  obtain ⟨before, after, ht, rfl, hreplaced⟩ := exists_replaced_of_mem_offsetsIn hname hreads hn
  rw [ht] at hd hr
  refine ⟨?_, a ++ before, after ++ b, ?_, ?_, hreplaced a b⟩
  · have hpos := Char.utf8Size_pos ':'
    rw [Span.holds_iff, hr, Text.size_append, Text.size_cons]
    simp only
    omega
  · rw [hd]
    simp only [List.cons_append, List.append_assoc]
  · rw [hr]
    exact (Text.size_append a before).symm

/-- The places of the colons that are reported of an element. -/
def colonsOf (document : Text) (element : Span) : List Nat :=
  (offsetsIn (element.text document)).map (element.start + ·)

theorem starts_snippets (document : Text) :
    (snippets document).map (fun s => s.span.start) =
      (elements document).flatMap (colonsOf document) := by
  rw [snippets, List.map_flatMap]
  refine congrArg (List.flatMap · _) (funext fun element => ?_)
  rw [List.map_map]
  rfl

theorem holds_of_mem_colonsOf {document : Text} {r : Span} (h : r ∈ elements document) :
    ∀ n ∈ colonsOf document r, r.holds n := by
  intro n hn
  obtain ⟨k, hk, rfl⟩ := List.mem_map.1 hn
  exact (exists_replaced_of_mem_elements h hk).1

theorem pairwise_colonsOf {document : Text} {r : Span} (h : r ∈ elements document) :
    (colonsOf document r).Pairwise (· < ·) := by
  obtain ⟨name, hname, selfClosing, opening, body, close, hreads, htext⟩ :=
    exists_reads_of_mem_elements h
  rw [colonsOf, htext, List.pairwise_map]
  exact (pairwise_offsetsIn hname hreads).imp fun hlt => Nat.add_lt_add_left hlt _

theorem pairwise_starts (document : Text) :
    ((elements document).flatMap (colonsOf document)).Pairwise (· < ·) := by
  refine List.pairwise_flatMap.2 ⟨fun r hr => pairwise_colonsOf hr, ?_⟩
  refine (pairwise_elements document).imp_of_mem ?_
  intro r r' hr hr' hapart m hm n hn
  have hleft := Span.holds_iff.1 (holds_of_mem_colonsOf hr m hm)
  have hright := Span.holds_iff.1 (holds_of_mem_colonsOf hr' n hn)
  omega

theorem replaced_of_mem_snippets {document : Text} {s : Snippet} (h : s ∈ snippets document) :
    s.span.stop = s.span.start + 1 ∧ s.outer? = some [':'] ∧ s.span.start ∈ offsets document ∧
      (escape document).WordAt (moved document s.span.start) placeholder := by
  obtain ⟨r, hr, hs⟩ := List.mem_flatMap.1 h
  obtain ⟨n, hn, rfl⟩ := List.mem_map.1 hs
  obtain ⟨-, before, after, rfl, hstart, hreplaced⟩ := exists_replaced_of_mem_elements hr hn
  rw [hstart]
  exact ⟨rfl, Text.slice?_append before [':'] after, mem_offsets hreplaced,
    wordAt_placeholder hreplaced⟩

/-- The colons that are reported of the special elements of a document are of one byte, ascend
strictly and are all replaced. In each element, which is read with one of the special names, they
are the colon of its opening tag and, unless it closes itself, the colon of its close tag. -/
theorem name_colons_reported (document : Text) :
    let colons := (snippets document).map fun s => s.span.start
    (∀ s ∈ snippets document, s.span.stop = s.span.start + 1 ∧ s.outer? = some [':'] ∧
      s.span.start ∈ offsets document ∧
      (escape document).WordAt (moved document s.span.start) placeholder) ∧
    colons.Pairwise (· < ·) ∧
    (∀ n ∈ colons, ∃ r ∈ elements document, r.holds n) ∧
    ∀ r ∈ elements document,
      (∃ name ∈ names, ∃ selfClosing opening body close,
        Reads (scope ++ ':' :: name) selfClosing opening body close ∧
          r.text document = opening ++ (body ++ close)) ∧
      ∀ name ∈ names, ∀ selfClosing opening body close,
        Reads (scope ++ ':' :: name) selfClosing opening body close →
        r.text document = opening ++ (body ++ close) →
          colons.filter r.holds = (r.start + 7) ::
            if selfClosing then []
            else [r.start + Text.size (opening ++ body ++ '<' :: '/' :: scope)] := by
  intro colons
  have hcolons : colons = (elements document).flatMap (colonsOf document) :=
    starts_snippets document
  refine ⟨fun s => replaced_of_mem_snippets, ?_, ?_, ?_⟩
  · rw [hcolons]
    exact pairwise_starts document
  · rw [hcolons]
    intro n hn
    obtain ⟨r, hr, hn⟩ := List.mem_flatMap.1 hn
    exact ⟨r, hr, holds_of_mem_colonsOf hr n hn⟩
  · intro r hr
    refine ⟨exists_reads_of_mem_elements hr, ?_⟩
    intro name hname selfClosing opening body close hreads htext
    rw [hcolons, Span.filter_holds_flatMap (pairwise_elements document)
      (fun a ha => holds_of_mem_colonsOf ha) hr, colonsOf, htext, offsetsIn_of_reads hname hreads,
      List.map_cons]
    cases selfClosing <;> rfl

/-- Neither the colons of an attribute nor the one of an element in the body are reported. -/
theorem name_colons_reported_nested :
    let opening := "<svelte:head a=\"x:y\">".toList
    let body := "é:<svelte:body />".toList
    let close := "</svelte:head >".toList
    let single := "<svelte:self b=\x7bc:d\x7d/>".toList
    let document := opening ++ (body ++ close) ++ single
    elements document = [⟨0, 54⟩, ⟨54, 76⟩] ∧
      Reads (scope ++ ':' :: "head".toList) false opening body close ∧
      Reads (scope ++ ':' :: "self".toList) true single [] [] ∧
      ((snippets document).map fun s => s.span.start).filter (Span.holds ⟨0, 54⟩) = [7, 47] ∧
      ((snippets document).map fun s => s.span.start).filter (Span.holds ⟨54, 76⟩) = [61] := by
  intro opening body close single document
  have helements : elements document = [⟨0, 54⟩, ⟨54, 76⟩] := by decide +kernel
  have hreads : Reads (scope ++ ':' :: "head".toList) false opening body close :=
    .paired rfl ⟨[' '], List.forall_mem_singleton.2 rfl, rfl⟩
  have hreads' : Reads (scope ++ ':' :: "self".toList) true single [] [] :=
    .selfClosing rfl
  have hmem : ⟨0, 54⟩ ∈ elements document := by
    rw [helements]
    exact List.mem_cons_self
  have hmem' : ⟨54, 76⟩ ∈ elements document := by
    rw [helements]
    exact List.mem_cons_of_mem _ List.mem_cons_self
  have htext : (⟨0, 54⟩ : Span).text document = opening ++ (body ++ close) := by decide +kernel
  have htext' : (⟨54, 76⟩ : Span).text document = single ++ ([] ++ []) := by decide +kernel
  obtain ⟨-, -, -, hcolons⟩ := name_colons_reported document
  refine ⟨helements, hreads, hreads', ?_, ?_⟩
  · refine ((hcolons _ hmem).2 "head".toList (by decide) _ _ _ _ hreads htext).trans ?_
    decide +kernel
  · exact (hcolons _ hmem').2 "self".toList (by decide) _ _ _ _ hreads' htext'

end Colon

end Cloak
