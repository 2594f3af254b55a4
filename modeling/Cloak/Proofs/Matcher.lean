import Cloak.Element.Matcher
import Cloak.Element.Tag
import Cloak.Proofs.Matches
import Cloak.Proofs.Search

namespace Cloak

namespace ElementForm

/-- What may stand behind a tag name. -/
def EndsName (c : Char) : Prop :=
  isBlank c ∨ c = '>' ∨ c = '/'

theorem attributesFrom?_cons {closer : Option Char} {slash : Bool} {c : Char} {cs : Text}
    {r : Bool × Text} (h : attributesFrom? closer slash (c :: cs) = some r) :
    (c = '>' ∧ closer = none ∧ r = (slash, cs)) ∨
      ∃ closer' slash', (slash' = true → c = '/') ∧
        ∀ t, attributesFrom? closer slash (c :: t) = attributesFrom? closer' slash' t := by
  cases closer with
  | some q => exact .inr ⟨_, false, fun hs => absurd hs Bool.false_ne_true, fun _ => rfl⟩
  | none =>
    by_cases hgt : c = '>'
    · rw [attributesFrom?, if_pos hgt] at h
      cases h
      exact .inl ⟨hgt, rfl, rfl⟩
    right
    by_cases hclose : c = '\x7d'
    · rw [attributesFrom?, if_neg hgt, if_pos hclose] at h
      cases h
    by_cases hquote : (c = '"' || c = '\'') = true
    · refine ⟨some c, false, fun hs => absurd hs Bool.false_ne_true, fun t => ?_⟩
      rw [attributesFrom?, if_neg hgt, if_neg hclose, if_pos hquote]
    by_cases hopen : c = '\x7b'
    · refine ⟨some '\x7d', false, fun hs => absurd hs Bool.false_ne_true, fun t => ?_⟩
      rw [attributesFrom?, if_neg hgt, if_neg hclose, if_neg hquote, if_pos hopen]
    · refine ⟨none, c == '/', beq_iff_eq.1, fun t => ?_⟩
      rw [attributesFrom?, if_neg hgt, if_neg hclose, if_neg hquote, if_neg hopen]

theorem attributesFrom?_eq_some {closer : Option Char} {slash s : Bool} {t rest : Text}
    (h : attributesFrom? closer slash t = some (s, rest)) :
    ∃ u, t = u ++ '>' :: rest ∧ attributesFrom? closer slash (u ++ ['>']) = some (s, []) := by
  induction t generalizing closer slash with
  | nil => cases h
  | cons c cs ih =>
    rcases attributesFrom?_cons h with ⟨rfl, rfl, he⟩ | ⟨closer', slash', -, hstep⟩
    · cases he
      exact ⟨[], rfl, rfl⟩
    · obtain ⟨u, rfl, hu⟩ := ih ((hstep cs).symm.trans h)
      exact ⟨c :: u, rfl, (hstep _).trans hu⟩

theorem suffix_of_attributesFrom? {closer : Option Char} {slash s : Bool} {t rest : Text}
    (h : attributesFrom? closer slash t = some (s, rest)) : rest <:+ t := by
  obtain ⟨u, rfl, -⟩ := attributesFrom?_eq_some h
  exact (List.suffix_cons '>' rest).trans (List.suffix_append u _)

theorem attributes?_eq_some {s : Bool} {t rest : Text} (h : attributes? t = some (s, rest)) :
    ∃ c u, t = c :: u ∧ EndsName c ∧ rest <:+ u := by
  cases t with
  | nil => cases h
  | cons c cs =>
    rw [attributes?] at h
    split at h
    · rename_i hc
      cases h
      exact ⟨c, rest, rfl, .inr (.inl hc), List.suffix_rfl⟩
    · split at h
      · rename_i hc
        exact ⟨c, cs, rfl, .inl hc, suffix_of_attributesFrom? h⟩
      · cases h

theorem suffix_of_closeTag? {name t rest : Text} (h : closeTag? name t = some rest) :
    rest <:+ t := by
  obtain ⟨after, hl, hafter⟩ := Option.bind_eq_some_iff.1 h
  rw [Text.literal?_eq_some_iff.1 hl]
  split at hafter
  · rename_i cs hd
    cases hafter
    have hs : after.dropWhile isBlank <:+ after := List.dropWhile_suffix isBlank
    rw [hd] at hs
    exact ((List.suffix_cons '>' rest).trans hs).trans (List.suffix_append _ after)
  · cases hafter

theorem suffix_of_afterClose? {name t rest : Text} (h : afterClose? name t = some rest) :
    rest <:+ t := by
  induction t with
  | nil => cases h
  | cons c cs ih =>
    rw [afterClose?] at h
    split at h
    · rename_i hc
      cases h
      exact suffix_of_closeTag? hc
    · exact (ih h).trans (List.suffix_cons c cs)

theorem element?_eq_some {form : ElementForm} {name t rest : Text}
    (h : element? form name t = some rest) :
    ∃ c u, EndsName c ∧ t = '<' :: (name ++ c :: (u ++ rest)) := by
  obtain ⟨after, hl, hafter⟩ := Option.bind_eq_some_iff.1 h
  rw [Text.literal?_eq_some_iff.1 hl]
  have shape {c : Char} {cs : Text} (hc : EndsName c) (ha : after = c :: cs) (hs : rest <:+ cs) :
      ∃ c u, EndsName c ∧ '<' :: name ++ after = '<' :: (name ++ c :: (u ++ rest)) := by
    obtain ⟨u, rfl⟩ := hs
    exact ⟨c, u, hc, by rw [ha, List.cons_append]⟩
  split at hafter
  · rename_i hslash
    cases hafter
    obtain ⟨cs, hcs⟩ := List.isPrefixOf_iff_prefix.1 (Bool.and_eq_true_iff.1 hslash).2
    refine shape (.inr (.inr rfl)) hcs.symm ?_
    rw [← hcs]
    exact List.suffix_cons '>' cs
  · obtain ⟨⟨slash, rest'⟩, ha, hrest⟩ := Option.bind_eq_some_iff.1 hafter
    obtain ⟨c, u, hu, hc, hs⟩ := attributes?_eq_some ha
    simp only at hrest
    split at hrest
    · cases hrest
      exact shape hc hu hs
    · exact shape hc hu ((suffix_of_afterClose? hrest).trans hs)

theorem suffix_of_element? {form : ElementForm} {name t rest : Text}
    (h : element? form name t = some rest) : rest <:+ t := by
  obtain ⟨c, u, -, rfl⟩ := element?_eq_some h
  refine ⟨'<' :: (name ++ c :: u), ?_⟩
  simp only [List.cons_append, List.append_assoc]

theorem anyElement?_pos (form : ElementForm) (names : List Text) (t : Text) (n : Nat) (name : Text)
    (h : anyElement? form names t = some (n, name)) : 0 < n := by
  obtain ⟨name', -, hr⟩ := List.exists_of_findSome?_eq_some h
  obtain ⟨rest, he, hn⟩ := Option.map_eq_some_iff.1 hr
  obtain ⟨c, u, -, rfl⟩ := element?_eq_some he
  simp only [Prod.mk.injEq, List.length_cons, List.length_append] at hn
  omega

theorem exists_element?_of_mem_find {form : ElementForm} {names : List Text} {t : Text} {s : Span}
    (h : s ∈ find form names t) :
    ∃ a b rest, t = a ++ (b ++ rest) ∧ s = ⟨a.size, a.size + b.size⟩ ∧
      ∃ name ∈ names, element? form name (b ++ rest) = some rest := by
  obtain ⟨found, hm, rfl⟩ := List.mem_map.1 h
  obtain ⟨a, u, n, rfl, hr, hs⟩ := Text.mem_matchesFrom hm
  obtain ⟨name, hname, hr⟩ := List.exists_of_findSome?_eq_some hr
  obtain ⟨rest, he, hn⟩ := Option.map_eq_some_iff.1 hr
  obtain ⟨b, rfl⟩ := suffix_of_element? he
  refine ⟨a, b, rest, rfl, ?_, name, hname, he⟩
  rw [hs, ← (Prod.mk.inj hn).1, List.length_append, Nat.add_sub_cancel, List.take_left,
    Nat.zero_add]

theorem mem_find {form : ElementForm} {names : List Text} {t : Text} {s : Span}
    (h : s ∈ find form names t) :
    ∃ a b rest, t = a ++ (b ++ rest) ∧ s = ⟨a.size, a.size + b.size⟩ ∧
      ∃ name ∈ names, ∃ c u, EndsName c ∧ b = '<' :: (name ++ c :: u) := by
  obtain ⟨a, b, rest, ht, hs, name, hname, he⟩ := exists_element?_of_mem_find h
  obtain ⟨c, u, hc, hb⟩ := element?_eq_some he
  have hb' : b ++ rest = '<' :: (name ++ c :: u) ++ rest := by
    rw [hb]
    simp only [List.cons_append, List.append_assoc]
  exact ⟨a, b, rest, ht, hs, name, hname, c, u, hc, List.append_cancel_right hb'⟩

end ElementForm

namespace Element

def isPlainChar (c : Char) : Bool :=
  c.isAlphanum || c == '_' || c == ':' || c == '.' || c == '-'

/-- A tag name of the usual form: an ASCII letter, then ASCII letters, digits, and `_`, `:`, `.` or
`-`. -/
def IsPlainName : Text → Prop
  | [] => False
  | c :: cs => c.isAlpha ∧ cs.all isPlainChar

instance : DecidablePred IsPlainName
  | [] => inferInstanceAs (Decidable False)
  | c :: cs => inferInstanceAs (Decidable (c.isAlpha = true ∧ cs.all isPlainChar = true))

theorem toNat_of_isAlphanum {c : Char} (h : c.isAlphanum) : c.toNat < 128 := by
  have hcases : ('A'.val ≤ c.val ∧ c.val ≤ 'Z'.val ∨ 'a'.val ≤ c.val ∧ c.val ≤ 'z'.val) ∨
      '0'.val ≤ c.val ∧ c.val ≤ '9'.val := by
    rcases Bool.or_eq_true_iff.1 h with h | h
    · rcases Bool.or_eq_true_iff.1 h with h | h
      · exact .inl (.inl (of_decide_eq_true h))
      · obtain ⟨hle, hge⟩ := Bool.and_eq_true_iff.1 h
        exact .inl (.inr ⟨of_decide_eq_true hle, of_decide_eq_true hge⟩)
    · obtain ⟨hle, hge⟩ := Bool.and_eq_true_iff.1 h
      exact .inr ⟨of_decide_eq_true hle, of_decide_eq_true hge⟩
  have hn : c.toNat = c.val.toNat := rfl
  have hZ : 'Z'.val.toNat = 90 := rfl
  have hz : 'z'.val.toNat = 122 := rfl
  have hnine : '9'.val.toNat = 57 := rfl
  simp only [UInt32.le_iff_toNat_le] at hcases
  omega

theorem isNameChar_of_isAlphanum {c : Char} (h : c.isAlphanum) : isNameChar c := by
  rw [isNameChar, isWordChar, if_pos (toNat_of_isAlphanum h), h]
  rfl

theorem isNameChar_of_isPlainChar {c : Char} (h : isPlainChar c) : isNameChar c := by
  simp only [isPlainChar, Bool.or_eq_true, beq_iff_eq] at h
  rcases h with (((h | rfl) | rfl) | rfl) | rfl
  · exact isNameChar_of_isAlphanum h
  · decide
  · decide
  · decide
  · decide

theorem isNameChar_of_mem_plain {name : Text} (h : IsPlainName name) {c : Char} (hc : c ∈ name) :
    isNameChar c := by
  cases name with
  | nil => exact h.elim
  | cons d ds =>
    obtain ⟨hd, hds⟩ := h
    rcases List.mem_cons.1 hc with rfl | hc
    · exact isNameChar_of_isAlphanum (Bool.or_eq_true_iff.2 (.inl hd))
    · exact isNameChar_of_isPlainChar (List.all_eq_true.1 hds c hc)

def blankCodes : List Nat :=
  List.range' 9 5 ++ List.range' 0x2000 11 ++
    [0x20, 0x85, 0xA0, 0x1680, 0x2028, 0x2029, 0x202F, 0x205F, 0x3000]

theorem toNat_mem_blankCodes {c : Char} (h : isBlank c) : c.toNat ∈ blankCodes := by
  simp only [isBlank, Bool.or_eq_true, Bool.and_eq_true, decide_eq_true_eq, beq_iff_eq] at h
  simp only [blankCodes, List.mem_append, List.mem_range'_1, List.mem_cons, List.not_mem_nil,
    or_false]
  omega

theorem not_isNameChar_of_endsName {c : Char} (h : ElementForm.EndsName c) :
    isNameChar c = false := by
  rcases h with h | rfl | rfl
  · have hall : ∀ n ∈ blankCodes, isNameChar (Char.ofNat n) = false := by decide +kernel
    rw [← Char.ofNat_toNat c]
    exact hall _ (toNat_mem_blankCodes h)
  · decide
  · decide

theorem name?_of_plain {name : Text} (h : IsPlainName name) {c : Char}
    (hc : ElementForm.EndsName c) (u : Text) : name? ('<' :: (name ++ c :: u)) = some name := by
  cases name with
  | nil => exact h.elim
  | cons d ds =>
    obtain ⟨hd, hds⟩ := h
    have hstop : Text.StopsBy isNameChar (c :: u) :=
      Text.stopsBy_cons_iff.2 (not_isNameChar_of_endsName hc)
    have hplain : ∀ e ∈ ds, isNameChar e :=
      fun e he => isNameChar_of_isPlainChar (List.all_eq_true.1 hds e he)
    rw [List.cons_append, name?, if_pos hd, Text.takeWhile_append_stop hplain hstop]

end Element

end Cloak
