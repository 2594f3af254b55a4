import Cloak.Text.Blank
import Cloak.Text.Search

namespace Cloak.Text

/-- Nothing at the head of the text satisfies `p`. -/
def StopsBy (p : Char → Bool) (t : Text) : Prop :=
  ∀ c ∈ t.head?, p c = false

theorem stopsBy_nil (p : Char → Bool) : StopsBy p [] := by
  intro c hc
  cases hc

theorem stopsBy_cons_iff {p : Char → Bool} {c : Char} {t : Text} :
    StopsBy p (c :: t) ↔ p c = false := by
  constructor
  · intro h
    exact h c rfl
  · intro h d hd
    cases hd
    exact h

theorem stopsBy_dropWhile (p : Char → Bool) (t : Text) : StopsBy p (t.dropWhile p) := by
  induction t with
  | nil => exact stopsBy_nil p
  | cons c t ih =>
    rw [List.dropWhile_cons]
    split
    · exact ih
    · rename_i hc
      exact stopsBy_cons_iff.2 (Bool.eq_false_iff.2 hc)

theorem StopsBy.takeWhile_eq {p : Char → Bool} {t : Text} (h : StopsBy p t) :
    t.takeWhile p = [] := by
  cases t with
  | nil => rfl
  | cons c t =>
    have hc := stopsBy_cons_iff.1 h
    exact List.takeWhile_cons_of_neg (by simp only [hc, Bool.false_eq_true, not_false_eq_true])

theorem StopsBy.dropWhile_eq {p : Char → Bool} {t : Text} (h : StopsBy p t) :
    t.dropWhile p = t := by
  have ht := List.takeWhile_append_dropWhile (p := p) (l := t)
  rwa [h.takeWhile_eq, List.nil_append] at ht

theorem takeWhile_append_stop {p : Char → Bool} {a b : Text} (ha : ∀ c ∈ a, p c)
    (hb : StopsBy p b) : (a ++ b).takeWhile p = a := by
  rw [List.takeWhile_append_of_pos ha, hb.takeWhile_eq, List.append_nil]

theorem dropWhile_append_stop {p : Char → Bool} {a b : Text} (ha : ∀ c ∈ a, p c)
    (hb : StopsBy p b) : (a ++ b).dropWhile p = b := by
  rw [List.dropWhile_append_of_pos ha, hb.dropWhile_eq]

theorem of_mem_takeWhile {p : Char → Bool} {t : Text} {c : Char} (h : c ∈ t.takeWhile p) :
    p c :=
  List.all_eq_true.1 List.all_takeWhile c h

theorem exists_trimEndBy_append (p : Char → Bool) (t : Text) :
    ∃ s, t = trimEndBy p t ++ s ∧ ∀ c ∈ s, p c := by
  induction t with
  | nil => exact ⟨[], rfl, List.forall_mem_nil _⟩
  | cons c t ih =>
    obtain ⟨s, ht, hs⟩ := ih
    rw [trimEndBy]
    split
    · rename_i hnil
      rw [hnil, List.nil_append] at ht
      split
      · rename_i hc
        exact ⟨c :: s, congrArg (c :: ·) ht, List.forall_mem_cons.2 ⟨hc, hs⟩⟩
      · exact ⟨s, congrArg (c :: ·) ht, hs⟩
    · rename_i d ds hcons
      rw [hcons] at ht
      exact ⟨s, congrArg (c :: ·) ht, hs⟩

theorem eq_false_of_mem_getLast?_trimEndBy {p : Char → Bool} {t : Text} {c : Char}
    (h : c ∈ (trimEndBy p t).getLast?) : p c = false := by
  induction t with
  | nil => cases h
  | cons d t ih =>
    rw [trimEndBy] at h
    split at h
    · split at h
      · cases h
      · rename_i hd
        cases h
        exact Bool.eq_false_iff.2 hd
    · rename_i e es he
      rw [he] at ih
      rw [List.getLast?_cons_cons] at h
      exact ih h

theorem trimEndBy_append_cons {p : Char → Bool} {c : Char} (h : p c = false) (t u : Text) :
    trimEndBy p (t ++ c :: u) = t ++ c :: trimEndBy p u := by
  induction t with
  | nil =>
    rw [List.nil_append, List.nil_append, trimEndBy]
    split
    · rename_i hu
      rw [hu, h, if_neg Bool.false_ne_true]
    · rename_i d ds hu
      rw [hu]
  | cons d t ih =>
    rw [List.cons_append, trimEndBy, ih]
    cases t <;> rfl

theorem trimEndBy_append_singleton {p : Char → Bool} {c : Char} (h : p c = false) (t : Text) :
    trimEndBy p (t ++ [c]) = t ++ [c] :=
  trimEndBy_append_cons h t []

theorem trimEndBy_append_of_pos {p : Char → Bool} {u : Text} (h : ∀ c ∈ u, p c) (t : Text) :
    trimEndBy p (t ++ u) = trimEndBy p t := by
  induction t with
  | nil =>
    induction u with
    | nil => rfl
    | cons c u ih =>
      obtain ⟨hc, hu⟩ := List.forall_mem_cons.1 h
      have hnil : trimEndBy p u = [] := ih hu
      simp only [List.nil_append, trimEndBy, hnil, hc, if_true]
  | cons d t ih => rw [List.cons_append, trimEndBy, trimEndBy, ih]

theorem isEmpty_trim (t : Text) : (trim t).isEmpty = t.allBlank := by
  induction t with
  | nil => rfl
  | cons c t ih =>
    by_cases hc : isBlank c
    · have htrim : trim (c :: t) = trim t := by
        rw [trim, trimStartBy, List.dropWhile_cons_of_pos hc, trim, trimStartBy]
      rw [htrim, ih, allBlank, allBlank, List.all_cons, hc, Bool.true_and]
    · have htrim : trim (c :: t) = c :: trimEndBy isBlank t := by
        rw [trim, trimStartBy, List.dropWhile_cons_of_neg hc]
        exact trimEndBy_append_cons (Bool.eq_false_iff.2 hc) [] t
      rw [htrim, allBlank, List.all_cons, Bool.eq_false_iff.2 hc]
      rfl

@[simp] theorem literal?_append (word rest : Text) : literal? word (word ++ rest) = some rest := by
  have hp : word.isPrefixOf (word ++ rest) := List.isPrefixOf_iff_prefix.2 ⟨rest, rfl⟩
  rw [literal?, if_pos hp, List.drop_left]

theorem literal?_eq_some_iff {word t rest : Text} :
    literal? word t = some rest ↔ t = word ++ rest := by
  constructor
  · intro h
    rw [literal?] at h
    split at h
    · rename_i hp
      obtain ⟨s, rfl⟩ := List.isPrefixOf_iff_prefix.1 hp
      rw [List.drop_left] at h
      cases h
      rfl
    · cases h
  · rintro rfl
    exact literal?_append word rest

theorem literal?_eq_none_iff {word t : Text} : literal? word t = none ↔ ¬ word <+: t := by
  rw [literal?]
  split
  · rename_i hp
    simp only [reduceCtorEq, List.isPrefixOf_iff_prefix.1 hp, not_true_eq_false]
  · rename_i hp
    simp only [← List.isPrefixOf_iff_prefix, hp, Bool.false_eq_true, not_false_eq_true]

theorem literal?_cons_of_ne {c d : Char} (h : c ≠ d) (word t : Text) :
    literal? (c :: word) (d :: t) = none := by
  apply literal?_eq_none_iff.2
  intro hp
  exact h (List.cons_prefix_cons.1 hp).1

theorem replaceFrom_eq_drop (read : Text → Option (Nat × Text)) (skip : Nat) (t : Text) :
    replaceFrom read skip t = replaceAll read (t.drop skip) := by
  induction t generalizing skip with
  | nil => cases skip <;> rfl
  | cons c t ih =>
    cases skip with
    | zero => rfl
    | succ skip => exact ih skip

@[simp] theorem replaceAll_nil (read : Text → Option (Nat × Text)) : replaceAll read [] = [] :=
  rfl

theorem replaceAll_of_none {read : Text → Option (Nat × Text)} {c : Char} {t : Text}
    (h : read (c :: t) = none) : replaceAll read (c :: t) = c :: replaceAll read t := by
  rw [replaceAll, replaceFrom, h]
  rfl

theorem replaceAll_of_some {read : Text → Option (Nat × Text)} {a b r : Text} (ha : a ≠ [])
    (h : read (a ++ b) = some (a.length, r)) :
    replaceAll read (a ++ b) = r ++ replaceAll read b := by
  cases a with
  | nil => exact absurd rfl ha
  | cons c a =>
    rw [List.cons_append] at h ⊢
    rw [replaceAll, replaceFrom, h]
    simp only [List.length_cons, Nat.add_sub_cancel, replaceFrom_eq_drop, List.drop_left]

theorem replaceAll_append_of_none {read : Text → Option (Nat × Text)} {a b : Text}
    (h : ∀ c s, c :: s <:+ a → read (c :: (s ++ b)) = none) :
    replaceAll read (a ++ b) = a ++ replaceAll read b := by
  induction a with
  | nil => rfl
  | cons c a ih =>
    rw [List.cons_append, replaceAll_of_none (h c a List.suffix_rfl), List.cons_append]
    congr 1
    exact ih fun d s hs => h d s (hs.trans (List.suffix_cons c a))

end Cloak.Text
