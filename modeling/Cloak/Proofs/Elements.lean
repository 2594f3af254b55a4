import Cloak.Proofs.Agreement
import Cloak.Proofs.Outermost

namespace Cloak.ElementForm

open Element (IsOrdinary IsPlainName Closes)

/-- A piece of attributes: a string, braces up to the first that closes, or another character. -/
inductive IsPiece : Text → Prop
  | string {q : Char} {v : Text} (hq : q = '"' ∨ q = '\'') (hv : q ∉ v) : IsPiece (q :: (v ++ [q]))
  | braces {v : Text} (hv : '\x7d' ∉ v) : IsPiece ('\x7b' :: (v ++ ['\x7d']))
  | char {c : Char} (hc : IsOrdinary c) : IsPiece [c]

/-- The attributes of a tag: none, or white space and pieces. -/
inductive IsAttributePart : Text → Prop
  | none : IsAttributePart []
  | pieces {c : Char} {ps : List Text} (hc : isBlank c) (hps : ∀ p ∈ ps, IsPiece p) :
      IsAttributePart (c :: ps.flatten)

def IsSelfClosing (name element : Text) : Prop :=
  ∃ attributes blanks, IsAttributePart attributes ∧ (∀ c ∈ blanks, isBlank c) ∧
    element = '<' :: (name ++ (attributes ++ (blanks ++ "/>".toList)))

/-- An element of a name with a body in which no close tag of the name stands. -/
def IsPaired (name element : Text) : Prop :=
  ∃ attributes body close, IsAttributePart attributes ∧ ¬ Closes name body ∧
    IsCloseTag name close ∧ element = '<' :: (name ++ (attributes ++ '>' :: (body ++ close)))

/-- An element of a name in one of the forms in which elements may be written. -/
def IsElement (form : ElementForm) (name element : Text) : Prop :=
  IsPaired name element ∨ form = selfClosingOrPaired ∧ IsSelfClosing name element

theorem attributesFrom?_end (slash : Bool) (t : Text) :
    attributesFrom? none slash ('>' :: t) = some (slash, t) :=
  rfl

theorem attributesFrom?_ordinary {c : Char} (hc : IsOrdinary c) (slash : Bool) (t : Text) :
    attributesFrom? none slash (c :: t) = attributesFrom? none (c == '/') t := by
  obtain ⟨hgt, hdouble, hsingle, hopen, hclose⟩ := hc
  have hquote : ¬ (c = '"' || c = '\'') = true := by
    simp only [hdouble, hsingle, decide_false, Bool.or_self, Bool.false_eq_true, not_false_eq_true]
  rw [attributesFrom?, if_neg hgt, if_neg hclose, if_neg hquote, if_neg hopen]

theorem attributesFrom?_quote {q : Char} (hq : q = '"' ∨ q = '\'') (slash : Bool) (t : Text) :
    attributesFrom? none slash (q :: t) = attributesFrom? (some q) false t := by
  rcases hq with rfl | rfl <;> rfl

theorem attributesFrom?_brace (slash : Bool) (t : Text) :
    attributesFrom? none slash ('\x7b' :: t) = attributesFrom? (some '\x7d') false t :=
  rfl

theorem attributesFrom?_closer {q : Char} {v : Text} (hv : q ∉ v) (slash : Bool) (t : Text) :
    attributesFrom? (some q) slash (v ++ q :: t) = attributesFrom? none false t := by
  induction v generalizing slash with
  | nil => rw [List.nil_append, attributesFrom?, if_pos rfl]
  | cons c v ih =>
    obtain ⟨hc, hv⟩ := not_or.1 (mt List.mem_cons.2 hv)
    rw [List.cons_append, attributesFrom?, if_neg (Ne.symm hc), ih hv]

theorem exists_closer {q : Char} {slash : Bool} {t : Text} {r : Bool × Text}
    (h : attributesFrom? (some q) slash t = some r) :
    ∃ v rest, q ∉ v ∧ t = v ++ q :: rest ∧ attributesFrom? none false rest = some r := by
  induction t generalizing slash with
  | nil => cases h
  | cons c t ih =>
    rw [attributesFrom?] at h
    by_cases hc : c = q
    · subst hc
      rw [if_pos rfl] at h
      exact ⟨[], t, List.not_mem_nil, rfl, h⟩
    · rw [if_neg hc] at h
      obtain ⟨v, rest, hv, rfl, hrest⟩ := ih h
      refine ⟨c :: v, rest, ?_, rfl, hrest⟩
      rw [List.mem_cons, not_or]
      exact ⟨Ne.symm hc, hv⟩

theorem IsPiece.pass {p : Text} (h : IsPiece p) (slash : Bool) (t : Text) :
    ∃ slash', attributesFrom? none slash (p ++ t) = attributesFrom? none slash' t := by
  cases h with
  | @string q v hq hv =>
    refine ⟨false, ?_⟩
    rw [List.cons_append, attributesFrom?_quote hq, List.append_assoc, List.singleton_append,
      attributesFrom?_closer hv]
  | @braces v hv =>
    refine ⟨false, ?_⟩
    rw [List.cons_append, attributesFrom?_brace, List.append_assoc, List.singleton_append,
      attributesFrom?_closer hv]
  | @char c hc => exact ⟨c == '/', attributesFrom?_ordinary hc slash t⟩

theorem attributesFrom?_flatten {ps : List Text} (hps : ∀ p ∈ ps, IsPiece p) (slash : Bool)
    (t : Text) : ∃ slash', attributesFrom? none slash (ps.flatten ++ t) =
      attributesFrom? none slash' t := by
  induction ps generalizing slash with
  | nil => exact ⟨slash, rfl⟩
  | cons p ps ih =>
    obtain ⟨hp, hps⟩ := List.forall_mem_cons.1 hps
    obtain ⟨slash₁, h₁⟩ := hp.pass slash (ps.flatten ++ t)
    obtain ⟨slash₂, h₂⟩ := ih hps slash₁
    refine ⟨slash₂, ?_⟩
    rw [List.flatten_cons, List.append_assoc, h₁, h₂]

/-- What is read as attributes are pieces up to a `>`, the last of them a slash if one is
reported. -/
theorem exists_pieces {slash s : Bool} {t rest : Text}
    (h : attributesFrom? none slash t = some (s, rest)) :
    ∃ ps, (∀ p ∈ ps, IsPiece p) ∧ t = ps.flatten ++ '>' :: rest ∧
      (s = true → ps = [] ∧ slash = true ∨ ∃ ps', ps = ps' ++ [['/']]) := by
  -- behind a string or braces the attributes go on with any rest
  induction hn : t.length using Nat.strongRecOn generalizing slash t with
  | ind n ih =>
    -- a piece goes before the pieces of the rest
    have later {p t' : Text} (slash' : Bool) (hp : IsPiece p) (ht : t = p ++ t')
        (hpos : p ≠ []) (hslash : slash' = true → p = ['/'])
        (h' : attributesFrom? none slash' t' = some (s, rest)) :
        ∃ ps, (∀ p ∈ ps, IsPiece p) ∧ t = ps.flatten ++ '>' :: rest ∧
          (s = true → ps = [] ∧ slash = true ∨ ∃ ps', ps = ps' ++ [['/']]) := by
      have hlt : t'.length < n := by
        have hlength := List.length_pos_iff.2 hpos
        rw [← hn, ht, List.length_append]
        omega
      obtain ⟨ps, hps, rfl, hs⟩ := ih t'.length hlt h' rfl
      refine ⟨p :: ps, List.forall_mem_cons.2 ⟨hp, hps⟩, ?_, ?_⟩
      · rw [ht, List.flatten_cons, List.append_assoc]
      · intro hs'
        right
        rcases hs hs' with ⟨rfl, hsl⟩ | ⟨ps', rfl⟩
        · exact ⟨[], by rw [hslash hsl]; rfl⟩
        · exact ⟨p :: ps', rfl⟩
    cases t with
    | nil => cases h
    | cons c t =>
      by_cases hgt : c = '>'
      · subst hgt
        cases h
        exact ⟨[], List.forall_mem_nil _, rfl, fun hs => .inl ⟨rfl, hs⟩⟩
      by_cases hclose : c = '\x7d'
      · rw [attributesFrom?, if_neg hgt, if_pos hclose] at h
        cases h
      by_cases hquote : c = '"' ∨ c = '\''
      · rw [attributesFrom?_quote hquote] at h
        obtain ⟨v, t', hv, rfl, hrest⟩ := exists_closer h
        refine later false (.string hquote hv) ?_ (List.cons_ne_nil _ _)
          (fun hs => Bool.noConfusion hs) hrest
        rw [List.cons_append, List.append_assoc, List.singleton_append]
      by_cases hopen : c = '\x7b'
      · subst hopen
        rw [attributesFrom?_brace] at h
        obtain ⟨v, t', hv, rfl, hrest⟩ := exists_closer h
        refine later false (.braces hv) ?_ (List.cons_ne_nil _ _) (fun hs => Bool.noConfusion hs)
          hrest
        rw [List.cons_append, List.append_assoc, List.singleton_append]
      · obtain ⟨hdouble, hsingle⟩ := not_or.1 hquote
        have hc : IsOrdinary c := ⟨hgt, hdouble, hsingle, hopen, hclose⟩
        rw [attributesFrom?_ordinary hc] at h
        refine later (c == '/') (.char hc) rfl (List.cons_ne_nil _ _) ?_ h
        intro hs
        rw [beq_iff_eq.1 hs]

theorem exists_attributePart {s : Bool} {t rest : Text} (h : attributes? t = some (s, rest)) :
    ∃ attributes, IsAttributePart attributes ∧ t = attributes ++ '>' :: rest ∧
      (s = true →
        ∃ attributes', IsAttributePart attributes' ∧ attributes = attributes' ++ ['/']) := by
  cases t with
  | nil => cases h
  | cons c t =>
    rw [attributes?] at h
    split at h
    · rename_i hgt
      subst hgt
      cases h
      exact ⟨[], .none, rfl, fun hs => Bool.noConfusion hs⟩
    · split at h
      · rename_i hc
        obtain ⟨ps, hps, rfl, hs⟩ := exists_pieces h
        refine ⟨c :: ps.flatten, .pieces hc hps, rfl, ?_⟩
        intro hs'
        rcases hs hs' with ⟨-, hfalse⟩ | ⟨ps', rfl⟩
        · cases hfalse
        · refine ⟨c :: ps'.flatten, .pieces hc fun p hp => hps p (List.mem_append_left _ hp), ?_⟩
          rw [List.flatten_append]
          rfl
      · cases h

theorem ne_gt_of_isBlank {c : Char} (h : isBlank c) : c ≠ '>' :=
  (Element.isOrdinary_of_isBlank h).1

theorem IsAttributePart.attributes?_eq {attributes : Text} (h : IsAttributePart attributes)
    (rest : Text) : ∃ s, attributes? (attributes ++ '>' :: rest) = some (s, rest) := by
  cases h with
  | none => exact ⟨false, rfl⟩
  | @pieces c ps hc hps =>
    obtain ⟨s, hs⟩ := attributesFrom?_flatten hps false ('>' :: rest)
    refine ⟨s, ?_⟩
    rw [List.cons_append, attributes?, if_neg (ne_gt_of_isBlank hc), if_pos hc, hs,
      attributesFrom?_end]

theorem isPiece_of_mem_blanks {blanks : Text} (h : ∀ c ∈ blanks, isBlank c) :
    ∀ p ∈ blanks.map fun c => [c], IsPiece p := by
  intro p hp
  obtain ⟨c, hc, rfl⟩ := List.mem_map.1 hp
  exact .char (Element.isOrdinary_of_isBlank (h c hc))

theorem flatten_blanks (blanks : Text) : (blanks.map fun c => [c]).flatten = blanks := by
  rw [← List.flatMap_def, List.flatMap_singleton']

theorem IsAttributePart.append_blanks {attributes blanks : Text} (h : IsAttributePart attributes)
    (hblanks : ∀ c ∈ blanks, isBlank c) : IsAttributePart (attributes ++ blanks) := by
  cases h with
  | none =>
    cases blanks with
    | nil => exact .none
    | cons c blanks =>
      obtain ⟨hc, hblanks⟩ := List.forall_mem_cons.1 hblanks
      rw [List.nil_append, ← flatten_blanks blanks]
      exact .pieces hc (isPiece_of_mem_blanks hblanks)
  | @pieces c ps hc hps =>
    rw [List.cons_append, ← flatten_blanks blanks, ← List.flatten_append]
    refine .pieces hc ?_
    intro p hp
    rcases List.mem_append.1 hp with hp | hp
    · exact hps p hp
    · exact isPiece_of_mem_blanks hblanks p hp

theorem attributes?_slash {c : Char} {ps : List Text} (hc : isBlank c) (hps : ∀ p ∈ ps, IsPiece p)
    (rest : Text) :
    attributes? (c :: ps.flatten ++ ("/>".toList ++ rest)) = some (true, rest) := by
  obtain ⟨s, hs⟩ := attributesFrom?_flatten hps false ("/>".toList ++ rest)
  rw [List.cons_append, attributes?, if_neg (ne_gt_of_isBlank hc), if_pos hc, hs]
  rfl

theorem element?_opening (form : ElementForm) (name t : Text) :
    element? form name ('<' :: (name ++ t)) =
      if form = selfClosingOrPaired && "/>".toList.isPrefixOf t then some (t.drop 2)
      else (attributes? t).bind fun r =>
        if form = selfClosingOrPaired && r.1 then some r.2 else afterClose? name r.2 := by
  rw [element?, ← List.cons_append, Text.literal?_append]
  rfl

theorem not_slash_of_isBlank {c : Char} (hc : isBlank c) (t : Text) :
    "/>".toList.isPrefixOf (c :: t) = false := by
  have hne : ('/' == c) = false := by
    rw [beq_eq_false_iff_ne]
    rintro rfl
    revert hc
    decide
  change ('/' == c && _) = false
  rw [hne, Bool.false_and]

theorem element?_of_isSelfClosing {name element : Text} (h : IsSelfClosing name element)
    (rest : Text) : element? .selfClosingOrPaired name (element ++ rest) = some rest := by
  obtain ⟨attributes, blanks, hattributes, hblanks, rfl⟩ := h
  have hsplit : '<' :: (name ++ (attributes ++ (blanks ++ "/>".toList))) ++ rest =
      '<' :: (name ++ (attributes ++ blanks ++ ("/>".toList ++ rest))) := by
    simp only [List.cons_append, List.append_assoc]
  have hpart := hattributes.append_blanks hblanks
  rw [hsplit, element?_opening]
  generalize attributes ++ blanks = part at hpart
  cases hpart with
  | none => rfl
  | pieces hc hps =>
    rw [attributes?_slash hc hps, List.cons_append, not_slash_of_isBlank hc]
    rfl

theorem closeTag?_append {name close : Text} (h : IsCloseTag name close) (rest : Text) :
    closeTag? name (close ++ rest) = some rest := by
  obtain ⟨w, hw, rfl⟩ := h
  have hd : (w ++ ['>'] ++ rest).dropWhile isBlank = '>' :: rest := by
    rw [List.append_assoc]
    exact Text.dropWhile_append_stop hw (Text.stopsBy_cons_iff.2 (by decide))
  rw [closeTag?, List.append_assoc, Text.literal?_append]
  simp only [Option.bind_eq_bind, Option.bind_some, hd]

theorem startsClose_of_append {name body close rest : Text} {c : Char} (hname : IsPlainName name)
    (hclose : IsCloseTag name close)
    (h : Element.StartsClose name (c :: body ++ (close ++ rest))) :
    Element.StartsClose name (c :: body) := by
  obtain ⟨w, b, hw, he⟩ := h
  have hclose' : IsCloseTag name ('<' :: '/' :: name ++ (w ++ ['>'])) := ⟨w, hw, rfl⟩
  have hsplit : c :: body ++ (close ++ rest) = '<' :: '/' :: name ++ (w ++ ['>']) ++ b := by
    rw [he]
    simp only [List.append_assoc, List.singleton_append]
  rcases List.append_eq_append_iff.1 hsplit with ⟨m, hm, hrest⟩ | ⟨m, hm, -⟩
  · cases m with
    | nil =>
      refine ⟨w, [], hw, ?_⟩
      rw [← List.append_nil (c :: body), ← hm]
    | cons d m =>
      -- the bracket of the close tag would be another one in the first close tag
      exfalso
      obtain ⟨u, hu, hnone⟩ := Element.exists_of_isCloseTag hname hclose'
      obtain ⟨u', rfl, -⟩ := Element.exists_of_isCloseTag hname hclose
      rw [hm, List.cons_append] at hu
      rw [← (List.cons.inj hrest).1] at hu
      rw [← (List.cons.inj hu).2] at hnone
      exact hnone (List.mem_append_right body List.mem_cons_self)
  · refine ⟨w, m, hw, ?_⟩
    rw [hm]
    simp only [List.append_assoc, List.singleton_append]

theorem afterClose?_nearest {name body close : Text} (hname : IsPlainName name)
    (hbody : ¬ Closes name body) (hclose : IsCloseTag name close) (rest : Text) :
    afterClose? name (body ++ (close ++ rest)) = some rest := by
  induction body with
  | nil =>
    have hread := closeTag?_append hclose rest
    obtain ⟨u, rfl, -⟩ := Element.exists_of_isCloseTag hname hclose
    rw [List.nil_append, List.cons_append, afterClose?, ← List.cons_append, hread]
  | cons c body ih =>
    have hnone : closeTag? name (c :: (body ++ (close ++ rest))) = none := by
      rw [← Option.not_isSome_iff_eq_none, Element.isSome_closeTag?_iff]
      intro hstart
      exact hbody ⟨_, List.suffix_rfl, startsClose_of_append hname hclose hstart⟩
    rw [List.cons_append, afterClose?, hnone]
    apply ih
    rintro ⟨v, hv, hstart⟩
    exact hbody ⟨v, hv.trans (List.suffix_cons c body), hstart⟩

theorem IsAttributePart.not_slash {attributes : Text} (h : IsAttributePart attributes)
    (rest : Text) : "/>".toList.isPrefixOf (attributes ++ '>' :: rest) = false := by
  cases h with
  | none => rfl
  | pieces hc => exact not_slash_of_isBlank hc _

/-- Where an element stands the matcher reads one, which is not longer. -/
theorem exists_element?_of_isElement {form : ElementForm} {name element : Text}
    (hname : IsPlainName name) (h : IsElement form name element) (b : Text) :
    ∃ rest, element? form name (element ++ b) = some rest ∧ b <:+ rest := by
  rcases h with ⟨attributes, body, close, hattributes, hbody, hclose, rfl⟩ | ⟨rfl, hself⟩
  · have hsplit : '<' :: (name ++ (attributes ++ '>' :: (body ++ close))) ++ b =
        '<' :: (name ++ (attributes ++ '>' :: (body ++ (close ++ b)))) := by
      simp only [List.cons_append, List.append_assoc]
    obtain ⟨s, hs⟩ := hattributes.attributes?_eq (body ++ (close ++ b))
    rw [hsplit, element?_opening, hattributes.not_slash, hs, Bool.and_false,
      if_neg Bool.false_ne_true, Option.bind_some]
    split
    · refine ⟨_, rfl, ?_⟩
      rw [← List.append_assoc]
      exact List.suffix_append _ b
    · exact ⟨b, afterClose?_nearest hname hbody hclose b, List.suffix_rfl⟩
  · exact ⟨b, element?_of_isSelfClosing hself b, List.suffix_rfl⟩

theorem exists_isElement_of_element? {form : ElementForm} {name t rest : Text}
    (h : element? form name t = some rest) :
    ∃ element, t = element ++ rest ∧ IsElement form name element := by
  obtain ⟨after, hl, -⟩ := Option.bind_eq_some_iff.1 h
  have ht := Text.literal?_eq_some_iff.1 hl
  rw [List.cons_append] at ht
  subst ht
  rw [element?_opening] at h
  split at h
  · rename_i hslash
    obtain ⟨hform, hslash⟩ := Bool.and_eq_true_iff.1 hslash
    obtain ⟨u, rfl⟩ := List.isPrefixOf_iff_prefix.1 hslash
    cases h
    refine ⟨'<' :: (name ++ "/>".toList), ?_, .inr ⟨of_decide_eq_true hform, [], [], .none,
      List.forall_mem_nil _, rfl⟩⟩
    rw [List.cons_append, List.append_assoc]
    rfl
  · obtain ⟨⟨slash, rest'⟩, hread, hrest⟩ := Option.bind_eq_some_iff.1 h
    obtain ⟨attributes, hattributes, rfl, hlast⟩ := exists_attributePart hread
    simp only at hrest
    split at hrest
    · rename_i hslash
      cases hrest
      obtain ⟨hform, rfl⟩ := Bool.and_eq_true_iff.1 hslash
      obtain ⟨attributes', hattributes', rfl⟩ := hlast rfl
      refine ⟨'<' :: (name ++ (attributes' ++ "/>".toList)), ?_, .inr ⟨of_decide_eq_true hform,
        attributes', [], hattributes', List.forall_mem_nil _, rfl⟩⟩
      simp only [List.cons_append, List.append_assoc]
      rfl
    · obtain ⟨body, close, hclose, rfl, hbody⟩ := afterClose?_eq_some hrest
      refine ⟨'<' :: (name ++ (attributes ++ '>' :: (body ++ close))), ?_,
        .inl ⟨attributes, body, close, hattributes, hbody, hclose, rfl⟩⟩
      simp only [List.cons_append, List.append_assoc]

theorem IsElement.pos {form : ElementForm} {name element : Text}
    (h : IsElement form name element) : 0 < element.size := by
  apply Text.size_pos
  rintro rfl
  rcases h with ⟨_, _, _, -, -, -, he⟩ | ⟨-, _, _, -, -, he⟩ <;> cases he

theorem exists_mem_find {form : ElementForm} {names : List Text}
    (hnames : ∀ name ∈ names, IsPlainName name) {name a element b : Text} (hname : name ∈ names)
    (h : IsElement form name element) :
    ∃ s ∈ find form names (a ++ (element ++ b)), s.start ≤ a.size ∧ a.size < s.stop ∧
      (s.start = a.size → s.stop ≤ a.size + element.size) := by
  obtain ⟨rest, hread, hb⟩ := exists_element?_of_isElement (hnames name hname) h b
  have hne : element ++ b ≠ [] := by
    intro he
    rw [(List.append_eq_nil_iff.1 he).1] at h
    exact absurd h.pos (Nat.lt_irrefl 0)
  have hsome : (anyElement? form names (element ++ b)).isSome := by
    rw [anyElement?, List.findSome?_isSome_iff]
    exact ⟨name, hname, by rw [hread]; rfl⟩
  have hcover : a.length < 0 ∨
      ∃ found ∈ Text.matchesFrom (anyElement? form names) 0 0 (a ++ (element ++ b)),
        found.span.start ≤ 0 + a.size ∧ 0 + a.size < found.span.stop :=
    Text.exists_match_covering (anyElement?_pos form names) rfl hne hsome
  obtain ⟨found, hfound, hstart, hstop⟩ := hcover.resolve_left (Nat.not_lt_zero a.length)
  rw [Nat.zero_add] at hstart hstop
  have hmem : found.span ∈ find form names (a ++ (element ++ b)) := List.mem_map_of_mem hfound
  refine ⟨found.span, hmem, hstart, hstop, ?_⟩
  intro hhere
  -- an element that begins there has the same name, so that it was read up to the same place
  obtain ⟨a', short, rest', hsplit, hspan, name', hname', hread'⟩ :=
    exists_element?_of_mem_find hmem
  rw [hspan] at hhere ⊢
  obtain ⟨rfl, htail⟩ := Text.append_inj_of_size_eq hsplit hhere.symm
  rw [← htail] at hread'
  obtain ⟨c, u, hc, ht⟩ := element?_eq_some hread
  obtain ⟨c', u', hc', ht'⟩ := element?_eq_some hread'
  obtain rfl := Element.Opens.unique hnames hname hname' ⟨c, _, hc, ht⟩ ⟨c', _, hc', ht'⟩
  obtain rfl : rest = rest' := Option.some.inj (hread.symm.trans hread')
  obtain ⟨k, rfl⟩ := hb
  rw [← List.append_assoc] at htail
  rw [List.append_cancel_right htail, Text.size_append]
  exact Nat.add_le_add_left (Nat.le_add_right _ _) _

theorem exists_isElement_of_mem_find {form : ElementForm} {names : List Text} {t : Text} {s : Span}
    (h : s ∈ find form names t) :
    ∃ element, s.start + element.size = s.stop ∧ s.text? t = some element ∧
      ∃ name ∈ names, IsElement form name element := by
  obtain ⟨a, b, rest, rfl, rfl, name, hname, hread⟩ := exists_element?_of_mem_find h
  obtain ⟨element, hb, helement⟩ := exists_isElement_of_element? hread
  obtain rfl := List.append_cancel_right hb
  exact ⟨b, rfl, Text.slice?_append a b rest, name, hname, helement⟩

/-- Of some plain names the matcher finds exactly the elements: what it finds are elements, apart
and in ascending order, and where an element begins one is found that covers the place and that, if
it begins there, is not longer. -/
theorem find_exactly (form : ElementForm) {names : List Text} (hne : names ≠ [])
    (hnames : ∀ name ∈ names, IsPlainName name) (t : Text) :
    ∃ spans, find? form names t = some spans ∧ (∀ s ∈ spans, s.start < s.stop) ∧
      spans.Pairwise (fun r s => r.stop ≤ s.start) ∧
      (∀ s ∈ spans, ∃ element, s.text? t = some element ∧
        ∃ name ∈ names, IsElement form name element) ∧
      ∀ a element b, t = a ++ (element ++ b) → (∃ name ∈ names, IsElement form name element) →
        ∃ s ∈ spans, s.start ≤ a.size ∧ a.size < s.stop ∧
          (s.start = a.size → s.stop ≤ a.size + element.size) := by
  have hpos : ∀ s ∈ find form names t, s.start < s.stop := by
    intro s hs
    obtain ⟨element, hstop, -, name, -, helement⟩ := exists_isElement_of_mem_find hs
    have hsize := helement.pos
    omega
  refine ⟨find form names t, ?_, hpos, ?_, ?_, ?_⟩
  · rw [find?, if_neg (by rwa [List.isEmpty_iff])]
  · have hconsecutive : Consecutive id 0 (find form names t) :=
      consecutive_map.2 (Text.consecutive_matchesFrom (anyElement? form names) 0 0 t)
    exact hconsecutive.pairwise_stop_le fun s hs => Nat.le_of_lt (hpos s hs)
  · intro s hs
    obtain ⟨element, -, htext, hname⟩ := exists_isElement_of_mem_find hs
    exact ⟨element, htext, hname⟩
  · rintro a element b rfl ⟨name, hname, helement⟩
    exact exists_mem_find hnames hname helement

/-- Of two names of which one starts with the other each has its own close tag. -/
theorem find_exactly_of_nested_names :
    let names : List Text := ["Te".toList, "Tex".toList]
    let t : Text := "<Tex a=\"/>\" b=\x7b'>'\x7d>x</Te></Tex >y<Te/><Te >z</Tex><Te/>é</Te>".toList
    let spans : List Span := [⟨0, 33⟩, ⟨34, 39⟩, ⟨39, 63⟩]
    names ≠ [] ∧ (∀ name ∈ names, IsPlainName name) ∧
      find? .selfClosingOrPaired names t = some spans ∧
      (∀ s ∈ spans, ∃ element, s.text? t = some element ∧
        ∃ name ∈ names, IsElement .selfClosingOrPaired name element) ∧
      ∀ a element b : Text, t = a ++ (element ++ b) →
        (∃ name ∈ names, IsElement .selfClosingOrPaired name element) →
          ∃ s ∈ spans, s.start ≤ a.size ∧ a.size < s.stop ∧
            (s.start = a.size → s.stop ≤ a.size + element.size) := by
  intro names t spans
  have hne : names ≠ [] := List.cons_ne_nil _ _
  have hnames : ∀ name ∈ names, IsPlainName name := by decide
  have hfind : find? .selfClosingOrPaired names t = some spans := by decide +kernel
  obtain ⟨spans', hspans, -, -, hsound, hcomplete⟩ := find_exactly .selfClosingOrPaired hne hnames t
  obtain rfl : spans = spans' := Option.some.inj (hfind.symm.trans hspans)
  exact ⟨hne, hnames, hfind, hsound, hcomplete⟩

end Cloak.ElementForm
