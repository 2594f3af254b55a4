import Cloak.Proofs.Matcher

namespace Cloak

namespace Element

def Opens (tag t : Text) : Prop :=
  ∃ c u, ElementForm.EndsName c ∧ t = '<' :: (tag ++ c :: u)

def StartsClose (tag t : Text) : Prop :=
  ∃ w b, (∀ c ∈ w, isBlank c) ∧ t = '<' :: '/' :: tag ++ (w ++ '>' :: b)

theorem StartsClose.append {tag t : Text} (h : StartsClose tag t) (rest : Text) :
    StartsClose tag (t ++ rest) := by
  obtain ⟨w, b, hw, rfl⟩ := h
  refine ⟨w, b ++ rest, hw, ?_⟩
  simp only [List.append_assoc, List.cons_append]

def Closes (tag t : Text) : Prop :=
  ∃ v, v <:+ t ∧ StartsClose tag v

/-- What follows the opening tag at the head of a text, or the text if that tag has no end. -/
def afterOpening (t : Text) : Text :=
  match splitOpening? t with
  | some (_, rest) => rest
  | none => t

/-- What follows the opening tag of a name as the matcher reads it. -/
def afterMatched? (tag t : Text) : Option Text :=
  (ElementForm.attributes? (t.drop (1 + tag.length))).map Prod.snd

/-- Behind the opening tag stands a close tag that the matcher takes for a part of the opening tag,
or any close tag if the matcher cannot read the opening tag. -/
def Misread (tag t : Text) : Prop :=
  ∃ v, v <:+ afterOpening t ∧ StartsClose tag v ∧ ∀ rest, afterMatched? tag t = some rest →
    ¬ v <:+ rest

theorem literal?_opening (tag : Text) (c : Char) (u : Text) :
    Text.literal? ('<' :: tag) ('<' :: (tag ++ c :: u)) = some (c :: u) :=
  Text.literal?_append ('<' :: tag) (c :: u)

theorem afterMatched?_opening (tag : Text) (c : Char) (u : Text) :
    afterMatched? tag ('<' :: (tag ++ c :: u)) =
      (ElementForm.attributes? (c :: u)).map Prod.snd := by
  rw [afterMatched?, Nat.add_comm, List.drop_succ_cons, List.drop_left]

theorem isSome_closeTag?_iff {tag t : Text} :
    (ElementForm.closeTag? tag t).isSome ↔ StartsClose tag t := by
  constructor
  · intro h
    obtain ⟨rest, hr⟩ := Option.isSome_iff_exists.1 h
    obtain ⟨after, hl, hafter⟩ := Option.bind_eq_some_iff.1 hr
    split at hafter
    · rename_i cs hd
      refine ⟨after.takeWhile isBlank, cs, fun c => Text.of_mem_takeWhile, ?_⟩
      rw [← hd, List.takeWhile_append_dropWhile]
      exact Text.literal?_eq_some_iff.1 hl
    · cases hafter
  · rintro ⟨w, b, hw, rfl⟩
    have hd : (w ++ '>' :: b).dropWhile isBlank = '>' :: b :=
      Text.dropWhile_append_stop hw (Text.stopsBy_cons_iff.2 (by decide))
    simp only [ElementForm.closeTag?, Text.literal?_append, Option.bind_eq_bind, Option.bind_some,
      hd, Option.isSome_some]

theorem afterClose?_eq_none_iff {tag t : Text} :
    ElementForm.afterClose? tag t = none ↔ ¬ Closes tag t := by
  induction t with
  | nil =>
    refine iff_of_true rfl ?_
    rintro ⟨v, hv, w, b, -, rfl⟩
    cases List.suffix_nil.1 hv
  | cons c t ih =>
    rw [ElementForm.afterClose?]
    cases hc : ElementForm.closeTag? tag (c :: t) with
    | some rest =>
      have hstart : StartsClose tag (c :: t) := isSome_closeTag?_iff.1 (by rw [hc]; rfl)
      refine iff_of_false ?_ fun h => h ⟨_, List.suffix_rfl, hstart⟩
      intro h
      cases h
    | none =>
      simp only [ih]
      apply not_congr
      constructor
      · rintro ⟨v, hv, hstart⟩
        exact ⟨v, hv.trans (List.suffix_cons c t), hstart⟩
      · rintro ⟨v, hv, hstart⟩
        rcases List.suffix_cons_iff.1 hv with rfl | hv
        · rw [← isSome_closeTag?_iff, hc] at hstart
          cases hstart
        · exact ⟨v, hv, hstart⟩

/-- If no element of a name starts with its opening tag, no close tag follows where the matcher ends
the opening tag. -/
theorem not_closes_of_element?_eq_none {tag t rest : Text} (ht : Opens tag t)
    (he : ElementForm.element? .selfClosingOrPaired tag t = none)
    (hr : afterMatched? tag t = some rest) : ¬ Closes tag rest := by
  obtain ⟨c, u, -, rfl⟩ := ht
  rw [afterMatched?_opening] at hr
  obtain ⟨⟨slash, rest'⟩, ha, rfl⟩ := Option.map_eq_some_iff.1 hr
  rw [← afterClose?_eq_none_iff]
  simp only [ElementForm.element?, literal?_opening, ha, Option.bind_eq_bind, Option.bind_some,
    decide_true, Bool.true_and, Option.pure_def] at he
  split at he
  · cases he
  · split at he
    · cases he
    · exact he

theorem Opens.unique {names : List Text} (hnames : ∀ name ∈ names, IsPlainName name)
    {tag tag' t : Text} (htag : tag ∈ names) (htag' : tag' ∈ names) (h : Opens tag t)
    (h' : Opens tag' t) : tag = tag' := by
  obtain ⟨c, u, hc, ht⟩ := h
  obtain ⟨c', u', hc', rfl⟩ := h'
  have hread := name?_of_plain (hnames tag htag) hc u
  rw [← ht, name?_of_plain (hnames tag' htag') hc' u'] at hread
  exact (Option.some.inj hread).symm

/-- An opening tag without braces, with no slash directly behind its name. -/
def IsSimple (tag t : Text) : Prop :=
  ∃ c u opening rest, t = '<' :: (tag ++ c :: u) ∧ ElementForm.EndsName c ∧ c ≠ '/' ∧
    splitOpening? t = some (opening, rest) ∧ '\x7b' ∉ opening ∧ '\x7d' ∉ opening

theorem attributesFrom?_of_splitOpeningFrom {quote : Option Char} {slash : Bool}
    {t opening rest : Text} (h : splitOpeningFrom quote 0 t = some (opening, rest))
    (hopen : '\x7b' ∉ opening) (hclose : '\x7d' ∉ opening) :
    ∃ s, ElementForm.attributesFrom? quote slash t = some (s, rest) := by
  induction t generalizing quote slash opening with
  | nil => cases h
  | cons c cs ih =>
    cases quote with
    | some q =>
      simp only [splitOpeningFrom, Option.isNone_some, Bool.false_and, Bool.false_eq_true,
        if_false] at h
      obtain ⟨⟨opening', rest'⟩, hrec, he⟩ := Option.map_eq_some_iff.1 h
      cases he
      rw [List.mem_cons, not_or] at hopen hclose
      exact ih hrec hopen.2 hclose.2
    | none =>
      simp only [splitOpeningFrom, Option.isNone_none, beq_self_eq_true, Bool.true_and,
        beq_iff_eq] at h
      split at h
      · rename_i hend
        cases h
        exact ⟨slash, by simp only [ElementForm.attributesFrom?, hend, if_true]⟩
      · rename_i hend
        obtain ⟨⟨opening', rest'⟩, hrec, he⟩ := Option.map_eq_some_iff.1 h
        cases he
        rw [List.mem_cons, not_or] at hopen hclose
        have hbrace := Ne.symm hopen.1
        have hbrace' := Ne.symm hclose.1
        by_cases hq : c = '"' ∨ c = '\''
        · rw [if_pos (by simpa using hq)] at hrec
          have hs := @ih (some c) false opening' hrec hopen.2 hclose.2
          simpa only [ElementForm.attributesFrom?, if_neg hend, if_neg hbrace', Bool.or_eq_true,
            decide_eq_true_eq, if_pos hq] using hs
        · rw [if_neg (by simpa using hq), if_neg hbrace, if_neg hbrace'] at hrec
          have hs := @ih none (c == '/') opening' hrec hopen.2 hclose.2
          simpa only [ElementForm.attributesFrom?, if_neg hend, if_neg hbrace', Bool.or_eq_true,
            decide_eq_true_eq, if_neg hq, if_neg hbrace] using hs

/-- What stands in an opening tag without a meaning for its end: no `>`, no quote and no brace. -/
def IsOrdinary (c : Char) : Prop :=
  c ≠ '>' ∧ c ≠ '"' ∧ c ≠ '\'' ∧ c ≠ '\x7b' ∧ c ≠ '\x7d'

theorem isOrdinary_of_isBlank {c : Char} (h : isBlank c) : IsOrdinary c := by
  refine ⟨?_, ?_, ?_, ?_, ?_⟩ <;> rintro rfl <;> revert h <;> decide

theorem isOrdinary_of_isNameChar {c : Char} (h : isNameChar c) : IsOrdinary c := by
  refine ⟨?_, ?_, ?_, ?_, ?_⟩ <;> rintro rfl <;> revert h <;> decide

theorem isOrdinary_of_mem_opening {name : Text} (hname : IsPlainName name) :
    ∀ c ∈ '<' :: name, IsOrdinary c := by
  intro c hc
  rcases List.mem_cons.1 hc with rfl | hc
  · exact ⟨by decide, by decide, by decide, by decide, by decide⟩
  · exact isOrdinary_of_isNameChar (isNameChar_of_mem_plain hname hc)

theorem splitOpeningFrom_append {a t : Text} (ha : ∀ c ∈ a, IsOrdinary c) :
    splitOpeningFrom none 0 (a ++ t) =
      (splitOpeningFrom none 0 t).map fun parts => (a ++ parts.1, parts.2) := by
  induction a with
  | nil => exact Option.map_id'.symm
  | cons c a ih =>
    obtain ⟨hgt, hq, hq', hopen, hclose⟩ := ha c List.mem_cons_self
    rw [List.cons_append]
    simp only [splitOpeningFrom, Option.isNone_none, beq_self_eq_true, Bool.true_and,
      beq_iff_eq, hgt, hq, hq', hopen, hclose, decide_false, Bool.or_self, if_false,
      Bool.false_eq_true]
    rw [ih fun d hd => ha d (List.mem_cons_of_mem c hd), Option.map_map]
    rfl

theorem exists_attributes?_of_splitOpeningFrom {c : Char} {u opening rest : Text}
    (hc : ElementForm.EndsName c) (hslash : c ≠ '/')
    (h : splitOpeningFrom none 0 (c :: u) = some (opening, rest))
    (hopen : '\x7b' ∉ opening) (hclose : '\x7d' ∉ opening) :
    ∃ s, ElementForm.attributes? (c :: u) = some (s, rest) := by
  rcases hc with hblank | rfl | hc
  · have hc := isOrdinary_of_isBlank hblank
    have hne : ∀ d ∈ [c], IsOrdinary d := by
      intro d hd
      rwa [List.mem_singleton.1 hd]
    have h' : (splitOpeningFrom none 0 u).map (fun parts => ([c] ++ parts.1, parts.2)) =
        some (opening, rest) := (splitOpeningFrom_append hne).symm.trans h
    obtain ⟨⟨opening', rest'⟩, hrec, he⟩ := Option.map_eq_some_iff.1 h'
    cases he
    rw [List.mem_append, not_or] at hopen hclose
    rw [ElementForm.attributes?, if_neg hc.1, if_pos hblank]
    exact attributesFrom?_of_splitOpeningFrom hrec hopen.2 hclose.2
  · cases h
    exact ⟨false, rfl⟩
  · exact absurd hc hslash

theorem IsSimple.not_misread {tag t : Text} (htag : IsPlainName tag)
    (h : IsSimple tag t) : ¬ Misread tag t := by
  obtain ⟨c, u, opening, rest, rfl, hc, hslash, hread, hopen, hclose⟩ := h
  have hafter : afterMatched? tag ('<' :: (tag ++ c :: u)) = some rest := by
    rw [afterMatched?_opening]
    have hread' := hread
    rw [splitOpening?, ← List.cons_append,
      splitOpeningFrom_append (isOrdinary_of_mem_opening htag)] at hread'
    obtain ⟨⟨opening', rest'⟩, hrec, he⟩ := Option.map_eq_some_iff.1 hread'
    cases he
    rw [List.mem_append, not_or] at hopen hclose
    obtain ⟨slash, hs⟩ :=
      exists_attributes?_of_splitOpeningFrom hc hslash hrec hopen.2 hclose.2
    rw [hs, Option.map_some]
  rintro ⟨v, hv, hstart, hunseen⟩
  rw [afterOpening, hread] at hv
  exact hunseen rest hafter hv

end Element

end Cloak
