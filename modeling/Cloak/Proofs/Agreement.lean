import Cloak.Proofs.Opening
import Cloak.Proofs.OpeningTag

namespace Cloak

namespace Text

theorem lastOffsetFrom_of_not_occurs {word t : Text} {offset : Nat} {best : Option Nat}
    (h : ∀ v, v <:+ t → ¬ word <+: v) : lastOffsetFrom word offset best t = best := by
  induction t generalizing offset with
  | nil =>
    have hnil := h [] List.suffix_rfl
    rw [lastOffsetFrom, if_neg (by rwa [List.isPrefixOf_iff_prefix])]
  | cons c t ih =>
    have hhead := h _ List.suffix_rfl
    rw [lastOffsetFrom, if_neg (by rwa [List.isPrefixOf_iff_prefix])]
    exact ih fun v hv => h v (hv.trans (List.suffix_cons c t))

theorem lastOffsetFrom_append {word a b : Text} {c : Char} {offset : Nat} {best : Option Nat}
    (hword : word <+: c :: b) (h : ∀ v, v <:+ b → ¬ word <+: v) :
    lastOffsetFrom word offset best (a ++ c :: b) = some (offset + a.size) := by
  induction a generalizing offset best with
  | nil =>
    rw [List.nil_append, lastOffsetFrom, if_pos (List.isPrefixOf_iff_prefix.2 hword)]
    exact lastOffsetFrom_of_not_occurs h
  | cons d a ih =>
    rw [List.cons_append, lastOffsetFrom, ih, size_cons, Nat.add_assoc]

end Text

namespace ElementForm

theorem attributesFrom?_eq_true {closer : Option Char} {slash : Bool} {t : Text}
    (h : attributesFrom? closer slash t = some (true, [])) :
    (t = ['>'] ∧ slash = true) ∨ "/>".toList <:+ t := by
  induction t generalizing closer slash with
  | nil => cases h
  | cons c cs ih =>
    rcases attributesFrom?_cons h with ⟨rfl, -, he⟩ | ⟨closer', slash', hslash, hstep⟩
    · cases he
      exact .inl ⟨rfl, rfl⟩
    · right
      rcases ih ((hstep cs).symm.trans h) with ⟨rfl, hs⟩ | hs
      · rw [hslash hs]
        exact List.suffix_rfl
      · exact hs.trans (List.suffix_cons c cs)

def IsCloseTag (name close : Text) : Prop :=
  ∃ w, (∀ c ∈ w, isBlank c) ∧ close = '<' :: '/' :: name ++ (w ++ ['>'])

/-- An element of a name as the matcher reads it: whether it closes itself, its opening tag up to
the `>` at which the attributes end, its body and its close tag. -/
inductive Reads (name : Text) : Bool → (opening body close : Text) → Prop
  | bare : Reads name true ('<' :: (name ++ "/>".toList)) [] []
  | selfClosing {attributes : Text} (h : attributes? attributes = some (true, [])) :
      Reads name true ('<' :: (name ++ attributes)) [] []
  | paired {attributes body close : Text} (h : attributes? attributes = some (false, []))
      (hclose : IsCloseTag name close) :
      Reads name false ('<' :: (name ++ attributes)) body close

theorem attributes?_split {s : Bool} {t rest : Text} (h : attributes? t = some (s, rest)) :
    ∃ attributes, t = attributes ++ rest ∧ attributes? attributes = some (s, []) := by
  cases t with
  | nil => cases h
  | cons c cs =>
    rw [attributes?] at h
    split at h
    · rename_i hc
      cases h
      exact ⟨[c], rfl, by rw [attributes?, if_pos hc]⟩
    · rename_i hgt
      split at h
      · rename_i hc
        obtain ⟨u, rfl, hu⟩ := attributesFrom?_eq_some h
        refine ⟨c :: (u ++ ['>']), ?_, ?_⟩
        · rw [List.cons_append, List.append_assoc]
          rfl
        · rw [attributes?, if_neg hgt, if_pos hc, hu]
      · cases h

theorem closeTag?_eq_some {name t rest : Text} (h : closeTag? name t = some rest) :
    ∃ close, IsCloseTag name close ∧ t = close ++ rest := by
  obtain ⟨after, hl, hafter⟩ := Option.bind_eq_some_iff.1 h
  split at hafter
  · rename_i cs hd
    cases hafter
    refine ⟨_, ⟨after.takeWhile isBlank, fun c => Text.of_mem_takeWhile, rfl⟩, ?_⟩
    have hafter : after = after.takeWhile isBlank ++ '>' :: rest := by
      rw [← hd, List.takeWhile_append_dropWhile]
    rw [Text.literal?_eq_some_iff.1 hl, List.append_assoc, List.append_assoc]
    exact congrArg _ hafter
  · cases hafter

theorem afterClose?_eq_some {name t rest : Text} (h : afterClose? name t = some rest) :
    ∃ body close, IsCloseTag name close ∧ t = body ++ (close ++ rest) ∧
      ¬ Element.Closes name body := by
  induction t with
  | nil => cases h
  | cons c cs ih =>
    rw [afterClose?] at h
    split at h
    · rename_i hc
      cases h
      obtain ⟨close, hclose, he⟩ := closeTag?_eq_some hc
      refine ⟨[], close, hclose, he, ?_⟩
      rw [← Element.afterClose?_eq_none_iff]
      rfl
    · rename_i hc
      obtain ⟨body, close, hclose, rfl, hbody⟩ := ih h
      refine ⟨c :: body, close, hclose, rfl, ?_⟩
      rintro ⟨v, hv, hstart⟩
      rcases List.suffix_cons_iff.1 hv with rfl | hv
      · have hsome : (closeTag? name (c :: (body ++ (close ++ rest)))).isSome :=
          Element.isSome_closeTag?_iff.2 (hstart.append (close ++ rest))
        rw [hc] at hsome
        cases hsome
      · exact hbody ⟨v, hv, hstart⟩

theorem reads_of_element? {name t rest : Text}
    (h : element? .selfClosingOrPaired name t = some rest) :
    ∃ selfClosing opening body close, Reads name selfClosing opening body close ∧
      t = opening ++ (body ++ close) ++ rest := by
  obtain ⟨after, hl, hafter⟩ := Option.bind_eq_some_iff.1 h
  rw [Text.literal?_eq_some_iff.1 hl]
  simp only [decide_true, Bool.true_and] at hafter
  split at hafter
  · rename_i hslash
    cases hafter
    obtain ⟨cs, rfl⟩ := List.isPrefixOf_iff_prefix.1 hslash
    refine ⟨true, _, [], [], .bare, ?_⟩
    simp only [List.append_nil, List.cons_append, List.append_assoc]
    rfl
  · obtain ⟨⟨slash, rest'⟩, ha, hrest⟩ := Option.bind_eq_some_iff.1 hafter
    obtain ⟨attributes, rfl, hattributes⟩ := attributes?_split ha
    simp only at hrest
    split at hrest
    · rename_i hslash
      cases hrest
      rw [hslash] at hattributes
      refine ⟨true, _, [], [], .selfClosing hattributes, ?_⟩
      simp only [List.append_nil, List.cons_append, List.append_assoc]
    · rename_i hslash
      rw [Bool.eq_false_iff.2 hslash] at hattributes
      obtain ⟨body, close, hclose, rfl, -⟩ := afterClose?_eq_some hrest
      refine ⟨false, _, body, close, .paired hattributes hclose, ?_⟩
      simp only [List.cons_append, List.append_assoc]

theorem reads_of_mem_find {names : List Text} {t : Text} {s : Span}
    (h : s ∈ find .selfClosingOrPaired names t) :
    ∃ name ∈ names, ∃ selfClosing opening body close,
      Reads name selfClosing opening body close ∧ s.text t = opening ++ (body ++ close) := by
  obtain ⟨a, b, rest, rfl, rfl, name, hname, he⟩ := exists_element?_of_mem_find h
  obtain ⟨selfClosing, opening, body, close, hreads, hb⟩ := reads_of_element? he
  obtain rfl := List.append_cancel_right hb
  refine ⟨name, hname, selfClosing, opening, body, close, hreads, ?_⟩
  rw [Span.text, Text.slice, Text.slice?_append, Option.getD_some]

theorem Reads.opens {name opening body close : Text} {selfClosing : Bool}
    (h : Reads name selfClosing opening body close) :
    ∃ c u, EndsName c ∧ opening = '<' :: (name ++ c :: u) := by
  cases h with
  | bare => exact ⟨'/', ['>'], .inr (.inr rfl), rfl⟩
  | selfClosing ha =>
    obtain ⟨c, u, rfl, hc, -⟩ := attributes?_eq_some ha
    exact ⟨c, u, hc, rfl⟩
  | paired ha =>
    obtain ⟨c, u, rfl, hc, -⟩ := attributes?_eq_some ha
    exact ⟨c, u, hc, rfl⟩

theorem attributes?_ends {s : Bool} {attributes : Text}
    (h : attributes? attributes = some (s, [])) :
    ∃ u, attributes = u ++ ['>'] ∧ (s = true → "/>".toList <:+ attributes) := by
  cases attributes with
  | nil => cases h
  | cons c cs =>
    rw [attributes?] at h
    split at h
    · rename_i hc
      cases h
      rw [hc]
      exact ⟨[], rfl, fun hs => absurd hs Bool.false_ne_true⟩
    · split at h
      · obtain ⟨u, rfl, -⟩ := attributesFrom?_eq_some h
        refine ⟨c :: u, rfl, ?_⟩
        rintro rfl
        rcases attributesFrom?_eq_true h with ⟨-, hs⟩ | hs
        · cases hs
        · exact hs.trans (List.suffix_cons c _)
      · cases h

theorem Reads.ends {name opening body close : Text} {selfClosing : Bool}
    (h : Reads name selfClosing opening body close) : ∃ u, opening = u ++ ['>'] := by
  cases h with
  | bare => exact ⟨'<' :: (name ++ ['/']), by rw [List.cons_append, List.append_assoc]; rfl⟩
  | selfClosing ha =>
    obtain ⟨u, rfl, -⟩ := attributes?_ends ha
    exact ⟨'<' :: (name ++ u), by rw [List.cons_append, List.append_assoc]⟩
  | paired ha =>
    obtain ⟨u, rfl, -⟩ := attributes?_ends ha
    exact ⟨'<' :: (name ++ u), by rw [List.cons_append, List.append_assoc]⟩

theorem Reads.isCloseTag {name opening body close : Text}
    (h : Reads name false opening body close) : IsCloseTag name close := by
  cases h with
  | paired _ hclose => exact hclose

theorem Reads.nothing_behind {name opening body close : Text}
    (h : Reads name true opening body close) : body = [] ∧ close = [] := by
  cases h <;> exact ⟨rfl, rfl⟩

end ElementForm

namespace Element

open ElementForm (Reads IsCloseTag)

theorem not_angle_mem_plain {name : Text} (h : IsPlainName name) : '<' ∉ name := by
  intro hmem
  have hc := isNameChar_of_mem_plain h hmem
  revert hc
  decide

theorem exists_of_isCloseTag {name close : Text} (hname : IsPlainName name)
    (hclose : IsCloseTag name close) : ∃ u, close = '<' :: '/' :: u ∧ '<' ∉ '/' :: u := by
  obtain ⟨w, hw, rfl⟩ := hclose
  refine ⟨name ++ (w ++ ['>']), rfl, ?_⟩
  intro hmem
  simp only [List.mem_cons, List.mem_append, List.not_mem_nil, or_false] at hmem
  rcases hmem with h | h | h | h
  · revert h
    decide
  · exact not_angle_mem_plain hname h
  · have hb := hw _ h
    revert hb
    decide
  · revert h
    decide

theorem beforeLastClose_of_not_mem {u : Text} (hu : '<' ∉ '/' :: u) (body : Text) :
    beforeLastClose (body ++ '<' :: '/' :: u) = body := by
  have hlast : Text.lastOffset? (body ++ '<' :: '/' :: u) "</".toList = some (0 + body.size) := by
    apply Text.lastOffsetFrom_append ⟨u, rfl⟩
    intro v hv hp
    exact hu (hv.mem (hp.mem List.mem_cons_self))
  rw [beforeLastClose, hlast, Nat.zero_add]
  simp only [Text.before?_append, Option.getD_some]

theorem beforeLastClose_append {name close : Text} (hname : IsPlainName name)
    (hclose : IsCloseTag name close) (body : Text) : beforeLastClose (body ++ close) = body := by
  obtain ⟨u, rfl, hnone⟩ := exists_of_isCloseTag hname hclose
  exact beforeLastClose_of_not_mem hnone body

/-- The parts of an element with a name, an opening tag and a rest. -/
def ofParts (name opening rest : Text) : Element :=
  let selfClosing := rest.isEmpty && (Text.trimEndBy isBlank opening.dropLast).getLast? == some '/'
  { tag := name
    attributes := Attributes.ofText
      (Text.trimEndBy isAttributesEnd (opening.dropLast.drop (name.length + 1)))
    inner := if selfClosing then [] else beforeLastClose rest
    selfClosing }

theorem parse?_eq {name outer : Text} (h : name? outer = some name) :
    parse? outer = (splitOpening? outer).map fun parts => ofParts name parts.1 parts.2 := by
  rw [parse?, h]
  cases splitOpening? outer <;> rfl

/-- An element is taken apart as the matcher read it. -/
def TakesApart (name : Text) (selfClosing : Bool) (body outer : Text) : Prop :=
  ∃ p, parse? outer = some p ∧ p.tag = name ∧ p.selfClosing = selfClosing ∧
    (selfClosing = false → p.inner = body)

section

variable {name opening body close : Text} {selfClosing : Bool}

theorem name?_of_reads (hname : IsPlainName name) (h : Reads name selfClosing opening body close) :
    name? (opening ++ (body ++ close)) = some name := by
  obtain ⟨c, u, hc, rfl⟩ := h.opens
  have he : '<' :: (name ++ c :: u) ++ (body ++ close) =
      '<' :: (name ++ c :: (u ++ (body ++ close))) := by
    simp only [List.cons_append, List.append_assoc]
  rw [he]
  exact name?_of_plain hname hc _

theorem selfClosing_ofParts (name v : Text) :
    (ofParts name (v ++ "/>".toList) []).selfClosing = true := by
  have hend : v ++ "/>".toList = v ++ ['/'] ++ ['>'] := (List.append_assoc v ['/'] ['>']).symm
  have hsplit : (v ++ "/>".toList).dropLast = v ++ ['/'] := by
    rw [hend, List.dropLast_concat]
  simp only [ofParts, List.isEmpty_nil, Bool.true_and, hsplit,
    Text.trimEndBy_append_singleton (show isBlank '/' = false by decide),
    List.getLast?_append, List.getLast?_singleton, Option.some_or, beq_self_eq_true]

theorem ofParts_closeTag (hname : IsPlainName name) (hclose : IsCloseTag name close)
    (opening body : Text) :
    (ofParts name opening (body ++ close)).selfClosing = false ∧
      (ofParts name opening (body ++ close)).inner = body := by
  have hbody := beforeLastClose_append hname hclose body
  obtain ⟨w, -, rfl⟩ := hclose
  have hne : (body ++ ('<' :: '/' :: name ++ (w ++ ['>']))).isEmpty = false := by
    cases body <;> rfl
  simp only [ofParts, hne, Bool.false_and, Bool.false_eq_true, if_false, hbody, true_and]

theorem ofParts_of_reads (hname : IsPlainName name)
    (h : Reads name selfClosing opening body close) :
    (ofParts name opening (body ++ close)).selfClosing = selfClosing ∧
      (selfClosing = false → (ofParts name opening (body ++ close)).inner = body) := by
  cases h with
  | bare => exact ⟨selfClosing_ofParts name ('<' :: name), fun h => nomatch h⟩
  | selfClosing ha =>
    obtain ⟨u, -, hslash⟩ := ElementForm.attributes?_ends ha
    obtain ⟨v, rfl⟩ := hslash rfl
    rw [← List.append_assoc, ← List.cons_append]
    exact ⟨selfClosing_ofParts name _, fun h => nomatch h⟩
  | paired ha hclose =>
    obtain ⟨hself, hinner⟩ := ofParts_closeTag hname hclose _ body
    exact ⟨hself, fun _ => hinner⟩

theorem takesApart_of_splitOpening? (hname : IsPlainName name)
    (h : Reads name selfClosing opening body close)
    (hs : splitOpening? (opening ++ (body ++ close)) = some (opening, body ++ close)) :
    TakesApart name selfClosing body (opening ++ (body ++ close)) := by
  obtain ⟨hself, hinner⟩ := ofParts_of_reads hname h
  refine ⟨ofParts name opening (body ++ close), ?_, rfl, hself, hinner⟩
  rw [parse?_eq (name?_of_reads hname h), hs, Option.map_some]

theorem eq_of_append_eq_append_singleton {c : Char} {a b t : Text} (ha : c ∉ a)
    (h : a ++ [c] = b ++ c :: t) : b = a ∧ t = [] := by
  rcases List.append_eq_append_iff.1 h with ⟨m, rfl, hm⟩ | ⟨m, rfl, hm⟩
  · cases m with
    | nil =>
      cases hm
      exact ⟨List.append_nil a, rfl⟩
    | cons d m =>
      cases m <;> cases hm
  · cases m with
    | nil =>
      cases hm
      exact ⟨(List.append_nil b).symm, rfl⟩
    | cons d m =>
      cases hm
      exact absurd (List.mem_append_right b List.mem_cons_self) ha

theorem ordinary_of_mem_closeTag {w : Text} (hname : IsPlainName name) (hw : ∀ c ∈ w, isBlank c) :
    ∀ c ∈ '<' :: '/' :: name ++ w, IsOrdinary c := by
  intro c hc
  simp only [List.cons_append, List.mem_cons, List.mem_append] at hc
  rcases hc with rfl | rfl | hc | hc
  · exact ⟨by decide, by decide, by decide, by decide, by decide⟩
  · exact ⟨by decide, by decide, by decide, by decide, by decide⟩
  · exact isOrdinary_of_isNameChar (isNameChar_of_mem_plain hname hc)
  · exact isOrdinary_of_isBlank (hw c hc)

theorem not_passes_closeTag {u w : Text} (hname : IsPlainName name) (hw : ∀ c ∈ w, isBlank c) :
    ¬ Passes (none, 0) (u ++ '>' :: ('<' :: '/' :: name ++ w)) (none, 0) := by
  intro h
  obtain ⟨s, hu, hopen, htail⟩ := passes_append.1 h
  have hs : IsQuoted s := isQuoted_none.of_passes hu
  have hgt : IsInert '>' := ⟨by decide, by decide, by decide, by decide⟩
  rw [advance_of_inert hs hgt] at htail
  have he := eq_of_passes_inert hs (fun c hc => (ordinary_of_mem_closeTag hname hw c hc).2) htail
  exact hopen ⟨rfl, he.symm⟩

/-- A paired element that is taken apart into the body that the matcher read has the opening tag
that the matcher read. -/
theorem eq_opening_of_inner {opening' rest' : Text} (hname : IsPlainName name)
    (h : Reads name false opening body close)
    (hs : splitOpening? (opening ++ (body ++ close)) = some (opening', rest'))
    (hinner : beforeLastClose rest' = body) : opening' = opening := by
  obtain ⟨u, hu⟩ := h.ends
  obtain ⟨w, hw, hclose⟩ := h.isCloseTag
  have hread (m : Text) : beforeLastClose (m ++ close) = m :=
    beforeLastClose_append hname ⟨w, hw, hclose⟩ m
  obtain ⟨u', hu', hsplit, hpass⟩ := splitOpening?_eq_some_iff.1 hs
  rcases List.append_eq_append_iff.1 hsplit with ⟨m, ho, hrest⟩ | ⟨m, ho, hrest⟩
  · rcases List.append_eq_append_iff.1 hrest with ⟨k, hm, hk⟩ | ⟨k, hk, hm⟩
    · rcases List.eq_nil_or_concat k with rfl | ⟨k, c, rfl⟩
      · rw [List.nil_append] at hk
        have hbody := hread []
        rw [List.nil_append, hk, hinner] at hbody
        rw [ho, hm, hbody, List.append_nil, List.append_nil]
      · -- the opening tag would end with the close tag, and the body be empty
        exfalso
        rw [List.concat_eq_append] at hm hk
        rw [hu', hm, ← List.append_assoc, ← List.append_assoc] at ho
        obtain ⟨hu'', hc⟩ := List.append_inj' ho rfl
        cases hc
        have hk' : '<' :: '/' :: name ++ w ++ ['>'] = k ++ '>' :: rest' := by
          rw [List.append_assoc, ← hclose, hk, List.append_assoc]
          rfl
        have hnone : '>' ∉ '<' :: '/' :: name ++ w :=
          fun hmem => (ordinary_of_mem_closeTag hname hw _ hmem).1 rfl
        obtain ⟨rfl, rfl⟩ := eq_of_append_eq_append_singleton hnone hk'
        have hbody : body = [] := hinner.symm
        rw [hu'', hbody, hu, List.append_nil, List.append_assoc] at hpass
        exact not_passes_closeTag hname hw hpass
    · rw [hm, hread] at hinner
      have hm : m = [] := by
        rw [hinner] at hk
        exact List.self_eq_append_left.1 hk
      rw [ho, hm, List.append_nil]
  · rw [hrest, ← List.append_assoc, hread] at hinner
    have hm : m = [] := List.append_left_eq_self.1 hinner
    rw [ho, hm, List.append_nil]

/-- An element is taken apart as the matcher read it exactly if its opening tag ends where the
matcher ends it. -/
theorem takesApart_iff (hname : IsPlainName name) (h : Reads name selfClosing opening body close) :
    TakesApart name selfClosing body (opening ++ (body ++ close)) ↔
      splitOpening? (opening ++ (body ++ close)) = some (opening, body ++ close) := by
  refine ⟨?_, takesApart_of_splitOpening? hname h⟩
  rintro ⟨p, hp, -, hself, hinner⟩
  rw [parse?_eq (name?_of_reads hname h)] at hp
  obtain ⟨⟨opening', rest'⟩, hs, rfl⟩ := Option.map_eq_some_iff.1 hp
  obtain ⟨-, -, hsplit, -⟩ := splitOpening?_eq_some_iff.1 hs
  have ho : opening' = opening := by
    cases selfClosing with
    | true =>
      obtain ⟨rfl, rfl⟩ := h.nothing_behind
      simp only [ofParts, Bool.and_eq_true, List.isEmpty_iff] at hself
      rw [hself.1, List.append_nil, List.append_nil, List.append_nil] at hsplit
      exact hsplit.symm
    | false =>
      have hi := hinner rfl
      rw [show (ofParts name opening' rest').inner = if (ofParts name opening' rest').selfClosing
        then [] else beforeLastClose rest' from rfl, hself] at hi
      exact eq_opening_of_inner hname h hs hi
  rw [hs, ho]
  rw [ho] at hsplit
  rw [← List.append_cancel_left hsplit]

/-- The text of an expression: its strings are whole, and braces outside them come in pairs. -/
inductive IsExpression : Text → Prop
  | nil : IsExpression []
  | char {c : Char} {t : Text} (hc : IsInert c) (ht : IsExpression t) : IsExpression (c :: t)
  | string {q : Char} {v t : Text} (hq : q = '"' ∨ q = '\'') (hv : q ∉ v) (ht : IsExpression t) :
      IsExpression (q :: (v ++ q :: t))
  | braces {e t : Text} (he : IsExpression e) (ht : IsExpression t) :
      IsExpression ('\x7b' :: (e ++ '\x7d' :: t))

/-- Well-formed attributes: words, strings, and expressions in braces, with no `>` elsewhere. -/
inductive IsAttributes : Text → Prop
  | nil : IsAttributes []
  | char {c : Char} {t : Text} (hc : IsOrdinary c) (ht : IsAttributes t) : IsAttributes (c :: t)
  | string {q : Char} {v t : Text} (hq : q = '"' ∨ q = '\'') (hv : q ∉ v) (ht : IsAttributes t) :
      IsAttributes (q :: (v ++ q :: t))
  | braces {e t : Text} (he : IsExpression e) (ht : IsAttributes t) :
      IsAttributes ('\x7b' :: (e ++ '\x7d' :: t))

theorem passes_quoted {q : Char} {v : Text} (hv : q ∉ v) (depth : Nat) :
    Passes (some q, depth) v (some q, depth) := by
  induction v with
  | nil => rfl
  | cons c v ih =>
    rw [List.mem_cons, not_or] at hv
    have hc : advance (some q, depth) c = (some q, depth) := by
      simp only [advance, if_neg (Ne.symm hv.1)]
    refine ⟨fun h => Option.some_ne_none q (congrArg Prod.fst h.2), ?_⟩
    rw [hc]
    exact ih hv.2

theorem passes_string {q : Char} (hq : q = '"' ∨ q = '\'') {v t : Text} (hv : q ∉ v) {depth : Nat}
    {s : OpenState} (ht : Passes (none, depth) t s) :
    Passes (none, depth) (q :: (v ++ q :: t)) s := by
  have hopen : advance (none, depth) q = (some q, depth) := by
    rcases hq with rfl | rfl <;> rfl
  have hclose : advance (some q, depth) q = (none, depth) := by
    simp only [advance, if_true]
  refine ⟨?_, ?_⟩
  · rintro ⟨rfl, -⟩
    rcases hq with h | h <;> cases h
  · rw [hopen]
    have hquote := passes_quoted hv depth
    refine passes_append.2 ⟨_, hquote, fun h => Option.some_ne_none q (congrArg Prod.fst h.2), ?_⟩
    rw [hclose]
    exact ht

theorem passes_braces {e t : Text} {depth : Nat} {s : OpenState}
    (he : Passes (none, depth + 1) e (none, depth + 1)) (ht : Passes (none, depth) t s) :
    Passes (none, depth) ('\x7b' :: (e ++ '\x7d' :: t)) s :=
  ⟨(fun h => nomatch h.1), passes_append.2 ⟨_, he, (fun h => nomatch h.1), ht⟩⟩

theorem IsExpression.passes {e : Text} (h : IsExpression e) (depth : Nat) :
    Passes (none, depth + 1) e (none, depth + 1) := by
  induction h generalizing depth with
  | nil => rfl
  | char hc _ ih =>
    refine ⟨(fun h => nomatch h.2), ?_⟩
    rw [advance_of_inert isQuoted_none hc]
    exact ih depth
  | string hq hv _ ih => exact passes_string hq hv (ih depth)
  | braces _ _ ihe iht => exact passes_braces (ihe (depth + 1)) (iht depth)

theorem IsAttributes.passes {a : Text} (h : IsAttributes a) : Passes (none, 0) a (none, 0) := by
  induction h with
  | nil => rfl
  | char hc _ ih =>
    refine ⟨fun h => hc.1 h.1, ?_⟩
    rw [advance_of_inert isQuoted_none hc.2]
    exact ih
  | string hq hv _ ih => exact passes_string hq hv ih
  | braces he _ ih => exact passes_braces (he.passes 0) ih

theorem passes_of_ordinary {u : Text} (h : ∀ c ∈ u, IsOrdinary c) :
    Passes (none, 0) u (none, 0) := by
  induction u with
  | nil => rfl
  | cons c u ih =>
    have hc := h c List.mem_cons_self
    refine ⟨fun h => hc.1 h.1, ?_⟩
    rw [advance_of_inert isQuoted_none hc.2]
    exact ih fun d hd => h d (List.mem_cons_of_mem c hd)

theorem splitOpening?_of_isAttributes {attributes rest : Text} (hname : IsPlainName name)
    (h : IsAttributes attributes) :
    splitOpening? ('<' :: (name ++ (attributes ++ ['>'])) ++ rest) =
      some ('<' :: (name ++ (attributes ++ ['>'])), rest) := by
  refine splitOpening?_eq_some_iff.2 ⟨'<' :: name ++ attributes, ?_, rfl, ?_⟩
  · rw [List.cons_append, List.cons_append, List.append_assoc]
  · exact passes_append.2 ⟨_, passes_of_ordinary (isOrdinary_of_mem_opening hname), h.passes⟩

end

/-- Every element that is found was read as an element of one of the names. However it was read, it
is taken apart under that name or not at all, and as it was read exactly if its opening tag ends
where the matcher ends it; so it does if the attributes are well formed. -/
theorem found_taken_apart {names : List Text} (hnames : ∀ name ∈ names, IsPlainName name) (t : Text)
    {s : Span} (hs : s ∈ ElementForm.find .selfClosingOrPaired names t) :
    (∃ name ∈ names, ∃ selfClosing opening body close,
      Reads name selfClosing opening body close ∧ s.text t = opening ++ (body ++ close)) ∧
    ∀ name ∈ names, ∀ selfClosing opening body close,
      Reads name selfClosing opening body close → s.text t = opening ++ (body ++ close) →
        (∀ p, parse? (s.text t) = some p → p.tag = name) ∧
        (TakesApart name selfClosing body (s.text t) ↔
          openingLength? (s.text t) = some opening.size) ∧
        ∀ attributes, IsAttributes attributes →
          opening = '<' :: (name ++ (attributes ++ ['>'])) →
            TakesApart name selfClosing body (s.text t) := by
  refine ⟨ElementForm.reads_of_mem_find hs, ?_⟩
  intro name hmem selfClosing opening body close h htext
  have hname := hnames name hmem
  rw [htext]
  refine ⟨?_, ?_, ?_⟩
  · intro p hp
    rw [parse?_eq (name?_of_reads hname h)] at hp
    obtain ⟨parts, -, rfl⟩ := Option.map_eq_some_iff.1 hp
    rfl
  · rw [takesApart_iff hname h, openingLength?]
    constructor
    · intro hsplit
      rw [hsplit, Option.map_some]
    · intro hlength
      obtain ⟨⟨opening', rest'⟩, hsplit, hsize⟩ := Option.map_eq_some_iff.1 hlength
      obtain ⟨-, -, he, -⟩ := splitOpening?_eq_some_iff.1 hsplit
      obtain ⟨rfl, rfl⟩ := Text.append_inj_of_size_eq he hsize.symm
      exact hsplit
  · rintro attributes ha rfl
    exact takesApart_of_splitOpening? hname h (splitOpening?_of_isAttributes hname ha)

/-- An element whose braces hold another opening brace is not taken apart; the one behind it is. -/
theorem found_taken_apart_nested_braces :
    let tag := "Tex".toList
    let nested := "<Tex \x7b\x7b\x7d>x</Tex>".toList
    let opening := "<Tex a=\x7b\">\"\x7d b='\x7b' >".toList
    let body := "y</z>".toList
    let close := "</Tex >".toList
    let plain := opening ++ (body ++ close)
    let t := nested ++ plain
    (∀ name ∈ [tag], IsPlainName name) ∧
      ⟨0, 16⟩ ∈ ElementForm.find .selfClosingOrPaired [tag] t ∧
      Reads tag false "<Tex \x7b\x7b\x7d>".toList "x".toList "</Tex>".toList ∧
      ¬ TakesApart tag false "x".toList nested ∧
      ⟨16, 48⟩ ∈ ElementForm.find .selfClosingOrPaired [tag] t ∧
      Reads tag false opening body close ∧ TakesApart tag false body plain := by
  intro tag nested opening body close plain t
  have hnames : ∀ name ∈ [tag], IsPlainName name := by decide
  have hnested : ⟨0, 16⟩ ∈ ElementForm.find .selfClosingOrPaired [tag] t := by decide +kernel
  have hplain : ⟨16, 48⟩ ∈ ElementForm.find .selfClosingOrPaired [tag] t := by decide +kernel
  have hreads : Reads tag false "<Tex \x7b\x7b\x7d>".toList "x".toList "</Tex>".toList :=
    .paired rfl ⟨[], List.forall_mem_nil _, rfl⟩
  have hreads' : Reads tag false opening body close :=
    .paired rfl ⟨[' '], List.forall_mem_singleton.2 rfl, rfl⟩
  have htext : (⟨0, 16⟩ : Span).text t = nested := by decide +kernel
  have htext' : (⟨16, 48⟩ : Span).text t = plain := by decide +kernel
  have hiff :=
    ((found_taken_apart hnames t hnested).2 tag List.mem_cons_self _ _ _ _ hreads htext).2.1
  have hiff' :=
    ((found_taken_apart hnames t hplain).2 tag List.mem_cons_self _ _ _ _ hreads' htext').2.1
  rw [htext] at hiff
  rw [htext'] at hiff'
  refine ⟨hnames, hnested, hreads, ?_, hplain, hreads', ?_⟩
  · rw [hiff]
    decide +kernel
  · rw [hiff']
    decide +kernel

end Element

end Cloak
