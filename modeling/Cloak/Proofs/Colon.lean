import Cloak.Colon
import Cloak.Proofs.Search

namespace Cloak.Colon

theorem scope?_eq_some {t head rest : Text} (h : scope? t = some (head, rest)) :
    (head = '<' :: '/' :: scope ∨ head = '<' :: scope) ∧ t = head ++ ':' :: rest := by
  rw [scope?] at h
  split at h
  · rename_i hl
    cases h
    exact ⟨.inl rfl, Text.literal?_eq_some_iff.1 hl⟩
  · split at h
    · rename_i hl
      cases h
      exact ⟨.inr rfl, Text.literal?_eq_some_iff.1 hl⟩
    · cases h

theorem name?_eq_some {t name : Text} (h : name? t = some name) :
    name ∈ names ∧ ∃ rest, t = name ++ rest := by
  refine ⟨List.mem_of_find?_eq_some h, ?_⟩
  have hp := List.find?_some h
  cases hl : Text.literal? name t with
  | none =>
    simp only [hl] at hp
    cases hp
  | some rest => exact ⟨rest, Text.literal?_eq_some_iff.1 hl⟩

theorem isSome_name?_iff {t : Text} :
    (name? t).isSome ↔ ∃ name ∈ names, ∃ rest, t = name ++ rest ∧ Text.StopsBy isWordChar rest := by
  constructor
  · intro h
    obtain ⟨name, hname, hread⟩ := List.find?_isSome.1 h
    refine ⟨name, hname, ?_⟩
    split at hread
    · rename_i hl
      exact ⟨[], Text.literal?_eq_some_iff.1 hl, Text.stopsBy_nil isWordChar⟩
    · rename_i c rest hl
      rw [Bool.not_eq_true'] at hread
      exact ⟨c :: rest, Text.literal?_eq_some_iff.1 hl, Text.stopsBy_cons_iff.2 hread⟩
    · cases hread
  · rintro ⟨name, hname, rest, rfl, hstop⟩
    refine List.find?_isSome.2 ⟨name, hname, ?_⟩
    rw [Text.literal?_append]
    cases rest with
    | nil => rfl
    | cons c rest =>
      rw [Text.stopsBy_cons_iff] at hstop
      simp only [hstop, Bool.not_false]

theorem tag?_eq_some {t r : Text} {n : Nat} (h : tag? t = some (n, r)) :
    ∃ head name rest, (head = '<' :: '/' :: scope ∨ head = '<' :: scope) ∧ name ∈ names ∧
      t = head ++ ':' :: name ++ rest ∧ n = (head ++ ':' :: name).length ∧
      r = head ++ placeholder ++ name := by
  obtain ⟨⟨head, after⟩, hs, hafter⟩ := Option.bind_eq_some_iff.1 h
  obtain ⟨name, hn, he⟩ := Option.bind_eq_some_iff.1 hafter
  cases he
  obtain ⟨hhead, ht⟩ := scope?_eq_some hs
  obtain ⟨hname, rest, rfl⟩ := name?_eq_some hn
  refine ⟨head, name, rest, hhead, hname, ?_, ?_, rfl⟩
  · rw [ht, List.append_assoc, List.cons_append]
  · rw [List.length_append, List.length_cons]
    omega

theorem not_dash_mem_name : ∀ name ∈ names, '-' ∉ name := by
  decide

theorem unescape_placeholder (b : Text) :
    unescape (placeholder ++ b) = [':'] ++ unescape b := by
  have hne : placeholder ≠ [] := by decide
  rw [unescape, unescape, Text.replaceWord, Text.replaceWord]
  apply Text.replaceAll_of_some hne
  rw [Text.literal?_append, Option.map_some]

theorem unescape_cons_of_none {c : Char} {t : Text} (h : ¬ placeholder <+: c :: t) :
    unescape (c :: t) = c :: unescape t := by
  rw [unescape, unescape, Text.replaceWord, Text.replaceWord]
  apply Text.replaceAll_of_none
  rw [Text.literal?_eq_none_iff.2 h, Option.map_none]

theorem length_placeholder : placeholder.length = 14 :=
  rfl

theorem unescape_eq_self {t : Text} (h : ¬ placeholder <:+: t) : unescape t = t := by
  induction t with
  | nil => rfl
  | cons c t ih =>
    have ht : ¬ placeholder <:+: t := fun hin => h (hin.trans (List.suffix_cons c t).isInfix)
    rw [unescape_cons_of_none fun hp => h hp.isInfix, ih ht]

theorem length_unescape_le (t : Text) : (unescape t).length ≤ t.length := by
  -- behind a placeholder the text goes on with any rest, so the induction is on the length
  induction hn : t.length using Nat.strongRecOn generalizing t with
  | ind n ih =>
    cases t with
    | nil => exact Nat.zero_le n
    | cons c t =>
      by_cases hp : placeholder <+: c :: t
      · obtain ⟨rest, hrest⟩ := hp
        rw [← hrest, List.length_append, length_placeholder] at hn
        have hle := ih rest.length (by omega) rest rfl
        rw [← hrest, unescape_placeholder, List.length_append, List.length_singleton]
        omega
      · rw [List.length_cons] at hn
        have hle := ih t.length (by omega) t rfl
        rw [unescape_cons_of_none hp, List.length_cons]
        omega

theorem length_unescape_lt {t : Text} (h : placeholder <:+: t) :
    (unescape t).length < t.length := by
  induction t with
  | nil => exact absurd (List.infix_nil.1 h) (by decide)
  | cons c t ih =>
    by_cases hp : placeholder <+: c :: t
    · obtain ⟨rest, hrest⟩ := hp
      have hle := length_unescape_le rest
      rw [← hrest, unescape_placeholder, List.length_append, List.length_append,
        List.length_singleton, length_placeholder]
      omega
    · have hin := (List.infix_cons_iff.1 h).resolve_left hp
      rw [unescape_cons_of_none hp]
      exact Nat.succ_lt_succ (ih hin)

theorem unescape_eq_self_iff {t : Text} : unescape t = t ↔ ¬ placeholder <:+: t := by
  refine ⟨?_, unescape_eq_self⟩
  intro h hin
  have hlt := length_unescape_lt hin
  rw [h] at hlt
  exact Nat.lt_irrefl _ hlt

end Cloak.Colon
