import Cloak.Proofs.Candidates
import Cloak.Proofs.Opening

namespace Cloak

namespace Unclosed

open Element (Opens Closes Misread IsSimple afterOpening)

theorem endsName_iff {c : Char} :
    ElementForm.EndsName c ↔ (isBlank c || c == '>' || c == '/') = true := by
  simp only [ElementForm.EndsName, Bool.or_eq_true, beq_iff_eq, or_assoc]

theorem openTag?_eq_some_iff {names : List Text}
    (hnames : ∀ name ∈ names, Element.IsPlainName name) {t tag : Text} {n : Nat} :
    openTag? names t = some (n, tag) ↔ tag ∈ names ∧ Opens tag t ∧ n = tag.length + 2 := by
  have sound {n : Nat} {tag : Text} (h : openTag? names t = some (n, tag)) :
      tag ∈ names ∧ Opens tag t ∧ n = tag.length + 2 := by
    obtain ⟨name, hname, hread⟩ := List.exists_of_findSome?_eq_some h
    split at hread
    · rename_i c u hl
      split at hread
      · rename_i hc
        cases hread
        exact ⟨hname, ⟨c, u, endsName_iff.2 hc, Text.literal?_eq_some_iff.1 hl⟩, rfl⟩
      · cases hread
    · cases hread
  constructor
  · exact sound
  · rintro ⟨htag, ht, rfl⟩
    have hsome : (openTag? names t).isSome := by
      obtain ⟨c, u, hc, rfl⟩ := ht
      rw [openTag?, List.findSome?_isSome_iff]
      refine ⟨tag, htag, ?_⟩
      simp only [Element.literal?_opening, endsName_iff.1 hc, if_true, Option.isSome_some]
    obtain ⟨⟨n, tag'⟩, hread⟩ := Option.isSome_iff_exists.1 hsome
    obtain ⟨htag', ht', rfl⟩ := sound hread
    rw [hread, ht.unique hnames htag htag' ht']

variable (events : Text → List MarkdownEvent) (document : Text) (config : Config)

/-- The ranges in which an opening tag may stay open: elements, comments outside them, code, math
between dollars, and metadata. -/
def sheltered : List Span :=
  let masked := hideOpaque document (opaqueElements document config)
  opaqueElements document config ++ (masked.text.allMatches comment?).map Found.span ++
    ((structureNodes document masked events).filter Node.isLiteral).map Node.span

/-- Whether nothing is said of an opening tag at an offset. -/
def isExcused (offset : Nat) : Bool :=
  inSome (sheltered events document config) offset || isSelfClosing document offset

/-- The first opening tag of a verbatim name that is not excused, with what stands before it and
what starts with it. -/
structure ReportedAt (tag a b : Text) : Prop where
  mem : tag ∈ config.verbatimTags
  split : document = a ++ b
  opens : Opens tag b
  notExcused : isExcused events document config a.size = false
  first : ∀ tag' ∈ config.verbatimTags, ∀ a' b', document = a' ++ b' → a'.length < a.length →
    Opens tag' b' → isExcused events document config a'.size = true

variable {events document config}

theorem parseWith_eq_error_iff_unclosed? {err : EscapeError} :
    parseWith events document (opaqueElements document config) config.verbatimTags = .error err ↔
      unclosed? document (hideOpaque document (opaqueElements document config)).text
        config.verbatimTags (opaqueElements document config)
        (structureNodes document (hideOpaque document (opaqueElements document config)) events) =
          some err := by
  rw [parseWith]
  simp only
  split
  · rename_i h
    rw [h, Except.error.injEq, Option.some.injEq]
  · rename_i h
    rw [h]
    simp only [reduceCtorEq]

theorem openTag?_nil {names : List Text}
    (hnames : ∀ name ∈ names, Element.IsPlainName name) : openTag? names [] = none := by
  cases hr : openTag? names [] with
  | none => rfl
  | some read? =>
    obtain ⟨-, ⟨c, u, -, ht⟩, -⟩ := (openTag?_eq_some_iff hnames).1 hr
    cases ht

theorem openTag?_none_of_inside {names : List Text}
    (hnames : ∀ name ∈ names, Element.IsPlainName name) {s tag u w : Text} {n : Nat}
    (h : openTag? names s = some (n, tag)) (hs : s = u ++ w) (hpos : 0 < u.length)
    (hlt : u.length < n) : openTag? names w = none := by
  obtain ⟨htag, ⟨c, v, hc, rfl⟩, rfl⟩ := (openTag?_eq_some_iff hnames).1 h
  cases hr : openTag? names w with
  | none => rfl
  | some read? =>
    exfalso
    obtain ⟨n, tag'⟩ := read?
    obtain ⟨-, ⟨d, v', -, rfl⟩, -⟩ := (openTag?_eq_some_iff hnames).1 hr
    cases u with
    | nil => exact absurd hpos (Nat.lt_irrefl 0)
    | cons e u =>
      -- the second `<` would be a character of the name or the one behind it
      have hinside : tag ++ c :: v = u ++ '<' :: (tag' ++ d :: v') := (List.cons.inj hs).2
      have hmem : '<' ∈ tag ++ [c] := by
        have htake := congrArg (List.take (tag.length + 1)) hinside
        have hleft : (tag ++ c :: v).take (tag.length + 1) = tag ++ [c] := by
          rw [List.take_length_add_append]
          rfl
        rw [hleft, List.take_append] at htake
        rw [htake]
        apply List.mem_append_right
        obtain ⟨k, hk⟩ : ∃ k, tag.length + 1 - u.length = k + 1 := by
          rw [List.length_cons] at hlt
          exact ⟨tag.length - u.length, by omega⟩
        rw [hk, List.take_succ_cons]
        exact List.mem_cons_self
      rcases List.mem_append.1 hmem with hmem | hmem
      · exact absurd (Element.isNameChar_of_mem_plain (hnames tag htag) hmem) (by decide)
      · rw [← List.mem_singleton.1 hmem] at hc
        exact absurd hc (by rw [endsName_iff]; decide)

theorem isExcused_eq (offset : Nat) :
    isExcused events document config offset =
      (inSome (opaqueElements document config) offset ||
        inSome ((Text.allMatches comment?
          (hideOpaque document (opaqueElements document config)).text).map Found.span) offset ||
        inSome (((structureNodes document (hideOpaque document (opaqueElements document config))
          events).filter Node.isLiteral).map Node.span) offset ||
        isSelfClosing document offset) := by
  simp only [isExcused, sheltered, inSome, List.any_append]

def report (events : Text → List MarkdownEvent) (document : Text) (config : Config) (offset : Nat)
    (tag : Text) : Option EscapeError :=
  if isExcused events document config offset then none
  else some (.unclosedElement tag offset (1 + tag.size))

theorem report_eq_none_iff {offset : Nat} {tag : Text} :
    report events document config offset tag = none ↔
      isExcused events document config offset = true := by
  rw [report]
  split
  · rename_i h
    exact iff_of_true rfl h
  · rename_i h
    exact iff_of_false (fun h' => nomatch h') h

theorem report_eq_some_iff {offset : Nat} {tag : Text} {err : EscapeError} :
    report events document config offset tag = some err ↔
      isExcused events document config offset = false ∧
        err = .unclosedElement tag offset (1 + tag.size) := by
  rw [report]
  split
  · rename_i h
    exact iff_of_false (fun h' => nomatch h') fun h' => by rw [h] at h'; cases h'.1
  · rename_i h
    rw [Option.some.injEq, eq_comm, and_iff_right (Bool.eq_false_iff.2 h)]

theorem firstUse_report_iff (hnames : ∀ name ∈ config.verbatimTags, Element.IsPlainName name)
    {err : EscapeError} :
    Text.FirstUse (openTag? config.verbatimTags) (report events document config) 0 document err ↔
      ∃ tag a b, ReportedAt events document config tag a b ∧
        err = .unclosedElement tag a.size (1 + tag.size) := by
  constructor
  · rintro ⟨a, b, n, tag, hd, hread, huse, hbefore⟩
    obtain ⟨htag, hb, -⟩ := (openTag?_eq_some_iff hnames).1 hread
    rw [Nat.zero_add] at huse
    obtain ⟨hexcused, herr⟩ := report_eq_some_iff.1 huse
    refine ⟨tag, a, b, ⟨htag, hd, hb, hexcused, ?_⟩, herr⟩
    intro tag' htag' a' b' hd' hlt hb'
    have h := hbefore a' b' _ tag' hd' hlt
      ((openTag?_eq_some_iff hnames).2 ⟨htag', hb', rfl⟩)
    rw [Nat.zero_add] at h
    exact report_eq_none_iff.1 h
  · rintro ⟨tag, a, b, hr, herr⟩
    have hread := (openTag?_eq_some_iff hnames).2 ⟨hr.mem, hr.opens, rfl⟩
    refine ⟨a, b, _, tag, hr.split, hread, ?_, ?_⟩
    · rw [Nat.zero_add]
      exact report_eq_some_iff.2 ⟨hr.notExcused, herr⟩
    · intro a' b' n' tag' hd' hlt hread'
      obtain ⟨htag', hb', -⟩ := (openTag?_eq_some_iff hnames).1 hread'
      rw [Nat.zero_add]
      exact report_eq_none_iff.2 (hr.first tag' htag' a' b' hd' hlt hb')

theorem parseWith_eq_error_iff (hnames : ∀ name ∈ config.verbatimTags, Element.IsPlainName name)
    {err : EscapeError} :
    parseWith events document (opaqueElements document config) config.verbatimTags = .error err ↔
      ∃ tag a b, ReportedAt events document config tag a b ∧
        err = .unclosedElement tag a.size (1 + tag.size) := by
  rw [parseWith_eq_error_iff_unclosed?, unclosed?]
  split
  · rename_i hempty
    refine iff_of_false (fun h => nomatch h) ?_
    rintro ⟨tag, a, b, hr, -⟩
    have hmem := hr.mem
    rw [List.isEmpty_iff.1 hempty] at hmem
    exact List.not_mem_nil hmem
  · have hfirst : (document.allMatches (openTag? config.verbatimTags)).findSome?
        (fun found => report events document config found.span.start found.value) = some err ↔
          Text.FirstUse (openTag? config.verbatimTags) (report events document config) 0 document
            err :=
      Text.findSome?_matchesFrom (openTag?_nil hnames)
        (fun s n tag h u w hs hpos hlt => openTag?_none_of_inside hnames h hs hpos hlt)
        fun u w _ hlt => absurd hlt (Nat.not_lt_zero _)
    simp only [← isExcused_eq]
    exact hfirst.trans (firstUse_report_iff hnames)

theorem element?_eq_none_of_not_inSome {tag a b : Text} (htag : tag ∈ config.verbatimTags)
    (hd : document = a ++ b) (hb : b ≠ [])
    (ho : inSome (opaqueElements document config) a.size = false) :
    ElementForm.element? .selfClosingOrPaired tag b = none := by
  cases he : ElementForm.element? .selfClosingOrPaired tag b with
  | none => rfl
  | some rest =>
    exfalso
    have hsome : (ElementForm.anyElement? .selfClosingOrPaired config.verbatimTags b).isSome := by
      rw [ElementForm.anyElement?, List.findSome?_isSome_iff]
      exact ⟨tag, htag, by rw [he]; rfl⟩
    rcases Text.exists_match_covering (ElementForm.anyElement?_pos _ _) hd hb hsome with
      h | ⟨found, hm, hle, hlt⟩
    · exact absurd h (Nat.not_lt_zero _)
    · rw [Nat.zero_add] at hle hlt
      have hspan : found.span ∈ opaqueElements document config :=
        List.mem_append_right _ (List.mem_map_of_mem hm)
      have hin : inSome (opaqueElements document config) a.size = true := by
        rw [inSome, List.any_eq_true]
        refine ⟨found.span, hspan, ?_⟩
        rw [Span.holds, Bool.and_eq_true, decide_eq_true_eq, decide_eq_true_eq]
        exact ⟨hle, hlt⟩
      rw [ho] at hin
      cases hin

/-- Behind a reported opening tag a close tag of its name stands exactly if the matcher has misread
the opening tag. -/
theorem ReportedAt.closes_iff {tag a b : Text} (h : ReportedAt events document config tag a b) :
    Closes tag (afterOpening b) ↔ Misread tag b := by
  have hout : inSome (opaqueElements document config) a.size = false := by
    have hn := h.notExcused
    rw [isExcused_eq] at hn
    simp only [Bool.or_eq_false_iff] at hn
    exact hn.1.1.1
  have hb : b ≠ [] := by
    obtain ⟨c, u, -, hb⟩ := h.opens
    rw [hb]
    exact List.cons_ne_nil _ _
  have he := element?_eq_none_of_not_inSome h.mem h.split hb hout
  constructor
  · rintro ⟨v, hv, hclose⟩
    refine ⟨v, hv, hclose, ?_⟩
    intro rest hrest hvr
    exact Element.not_closes_of_element?_eq_none h.opens he hrest ⟨v, hvr, hclose⟩
  · rintro ⟨v, hv, hclose, -⟩
    exact ⟨v, hv, hclose⟩

def hiddenMath (document : Text) (config : Config) : List Span :=
  (DelimitedMath.snippets document config.math).map Snippet.span

/-- Whether an opening tag is open to the end of a document, and outside hidden math. -/
def IsUnclosed (document : Text) (config : Config) (tag a b : Text) : Prop :=
  ¬ Closes tag (afterOpening b) ∧ inSome (hiddenMath document config) a.size = false

/-- The opening tag that is reported is the first one that is not excused. It is unclosed and
outside hidden math unless it was misread or stands in such math, neither of which excuses it; a
simple one is not misread. -/
theorem parse_unclosed (hnames : ∀ name ∈ config.verbatimTags, Element.IsPlainName name)
    (events : Text → List MarkdownEvent) (document : Text) :
    (∀ err, parseWith events document
        (Container.elements document ++ Verbatim.elements document config)
        config.verbatimTags = .error err ↔
      ∃ tag a b, ReportedAt events document config tag a b ∧
        err = .unclosedElement tag a.size (1 + tag.size)) ∧
    ∀ tag a b, ReportedAt events document config tag a b →
      (IsUnclosed document config tag a b ↔
        ¬ Misread tag b ∧ inSome (hiddenMath document config) a.size = false) ∧
      (IsSimple tag b → ¬ Misread tag b) := by
  refine ⟨fun err => parseWith_eq_error_iff hnames, ?_⟩
  intro tag a b h
  refine ⟨and_congr_left' (not_congr h.closes_iff), ?_⟩
  intro hsimple
  exact hsimple.not_misread (hnames tag h.mem)

/-- A closed element whose opening tag holds nested braces is reported, and so is an opening tag in
math between escaped brackets. -/
theorem parse_unclosed_nested_braces :
    let config : Config := { verbatim := [("Tex".toList, {})] }
    let tag := "Tex".toList
    let nested := "<Tex opts=\x7b\x7ba: 1\x7d\x7d>x</Tex>".toList
    let before := "\\(".toList
    let behind := "<Tex>\\)".toList
    (∀ name ∈ config.verbatimTags, Element.IsPlainName name) ∧
      ReportedAt Markdown.events nested config tag [] nested ∧ Misread tag nested ∧
      ¬ IsUnclosed nested config tag [] nested ∧
      ReportedAt Markdown.events (before ++ behind) config tag before behind ∧ IsSimple tag behind ∧
      ¬ Misread tag behind ∧ ¬ IsUnclosed (before ++ behind) config tag before behind := by
  intro config tag nested before behind
  have hnames : ∀ name ∈ config.verbatimTags, Element.IsPlainName name := by decide
  have hnested : ReportedAt Markdown.events nested config tag [] nested :=
    ⟨by decide, rfl, ⟨' ', _, .inl rfl, rfl⟩, by decide +kernel,
      fun _ _ _ _ _ hlt => absurd hlt (Nat.not_lt_zero _)⟩
  have hmisread : Misread tag nested := by
    refine ⟨"</Tex>".toList, by decide +kernel, ⟨[], [], List.forall_mem_nil _, rfl⟩, ?_⟩
    have hnone : Element.afterMatched? tag nested = none := by decide +kernel
    intro rest hrest
    rw [hnone] at hrest
    cases hrest
  have hmath : ReportedAt Markdown.events (before ++ behind) config tag before behind := by
    refine ⟨by decide, rfl, ⟨'>', _, .inr (.inl rfl), rfl⟩, by decide +kernel, ?_⟩
    intro tag' _ a' b' hd hlt hopens
    obtain ⟨c, u, -, rfl⟩ := hopens
    cases a' with
    | nil => cases hd
    | cons d a' =>
      cases a' with
      | nil => cases hd
      | cons e a' =>
        have hlen : before.length = 2 := rfl
        rw [hlen, List.length_cons, List.length_cons] at hlt
        omega
  have hsimple : IsSimple tag behind :=
    ⟨'>', _, _, _, rfl, .inr (.inl rfl), by decide, rfl, by decide, by decide⟩
  have hin : inSome (hiddenMath (before ++ behind) config) (Text.size before) = true := by
    decide +kernel
  obtain ⟨-, hexact⟩ := parse_unclosed hnames Markdown.events nested
  obtain ⟨-, hexact'⟩ := parse_unclosed hnames Markdown.events (before ++ behind)
  refine ⟨hnames, hnested, hmisread, ?_, hmath, hsimple, (hexact' _ _ _ hmath).2 hsimple, ?_⟩
  · intro h
    exact ((hexact _ _ _ hnested).1.1 h).1 hmisread
  · intro h
    have hout := ((hexact' _ _ _ hmath).1.1 h).2
    rw [hin] at hout
    cases hout

end Unclosed

end Cloak
