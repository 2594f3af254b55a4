import Cloak.Element.Tag

namespace Cloak.Element

/-- What is open in an opening tag: a quote, and a number of braces. -/
abbrev OpenState := Option Char × Nat

def advance (s : OpenState) (c : Char) : OpenState :=
  match s.1 with
  | some q => (if c = q then none else some q, s.2)
  | none =>
    if c = '"' || c = '\'' then (some c, s.2)
    else if c = '\x7b' then (none, s.2 + 1)
    else if c = '\x7d' then (none, s.2 - 1)
    else (none, s.2)

theorem splitOpeningFrom_end (t : Text) :
    splitOpeningFrom none 0 ('>' :: t) = some (['>'], t) :=
  rfl

theorem splitOpeningFrom_step {s : OpenState} {c : Char} (h : ¬ (c = '>' ∧ s = (none, 0)))
    (t : Text) : splitOpeningFrom s.1 s.2 (c :: t) =
      (splitOpeningFrom (advance s c).1 (advance s c).2 t).map fun parts =>
        (c :: parts.1, parts.2) := by
  obtain ⟨quote, depth⟩ := s
  have hend : ¬ (quote.isNone && depth == 0 && c == '>') = true := by
    simp only [Bool.and_eq_true, Option.isNone_iff_eq_none, beq_iff_eq]
    rintro ⟨⟨rfl, rfl⟩, hc⟩
    exact h ⟨hc, rfl⟩
  change splitOpeningFrom quote depth (c :: t) = _
  rw [splitOpeningFrom.eq_def]
  exact if_neg hend

/-- The text leads from what is open before it to what is open behind it, and no `>` in it ends the
opening tag. -/
def Passes : OpenState → Text → OpenState → Prop
  | s, [], s' => s = s'
  | s, c :: u, s' => ¬ (c = '>' ∧ s = (none, 0)) ∧ Passes (advance s c) u s'

theorem passes_append {s s' : OpenState} {a b : Text} :
    Passes s (a ++ b) s' ↔ ∃ s₁, Passes s a s₁ ∧ Passes s₁ b s' := by
  induction a generalizing s with
  | nil => simp only [List.nil_append, Passes, exists_eq_left']
  | cons c a ih =>
    rw [List.cons_append]
    simp only [Passes, ih, and_assoc, exists_and_left]

/-- An opening tag ends at the first `>` at which nothing is open. -/
theorem splitOpeningFrom_eq_some_iff {s : OpenState} {t opening rest : Text} :
    splitOpeningFrom s.1 s.2 t = some (opening, rest) ↔
      ∃ u, opening = u ++ ['>'] ∧ t = opening ++ rest ∧ Passes s u (none, 0) := by
  induction t generalizing s opening with
  | nil =>
    refine iff_of_false (fun h => nomatch h) ?_
    rintro ⟨u, rfl, ht, -⟩
    cases u <;> cases ht
  | cons c t ih =>
    by_cases hend : c = '>' ∧ s = (none, 0)
    · obtain ⟨rfl, rfl⟩ := hend
      rw [splitOpeningFrom_end]
      constructor
      · intro h
        cases h
        exact ⟨[], rfl, rfl, rfl⟩
      · rintro ⟨u, rfl, ht, hu⟩
        cases u with
        | nil =>
          cases ht
          rfl
        | cons d u =>
          cases ht
          exact absurd ⟨rfl, rfl⟩ hu.1
    · rw [splitOpeningFrom_step hend, Option.map_eq_some_iff]
      constructor
      · rintro ⟨⟨opening', rest'⟩, hrec, he⟩
        cases he
        obtain ⟨u, rfl, rfl, hu⟩ := ih.1 hrec
        exact ⟨c :: u, rfl, rfl, hend, hu⟩
      · rintro ⟨u, rfl, ht, hu⟩
        cases u with
        | nil =>
          cases ht
          exact absurd ⟨rfl, hu⟩ hend
        | cons d u =>
          cases ht
          exact ⟨_, ih.2 ⟨u, rfl, rfl, hu.2⟩, rfl⟩

theorem splitOpening?_eq_some_iff {t opening rest : Text} :
    splitOpening? t = some (opening, rest) ↔
      ∃ u, opening = u ++ ['>'] ∧ t = opening ++ rest ∧ Passes (none, 0) u (none, 0) :=
  splitOpeningFrom_eq_some_iff (s := (none, 0))

def IsQuoted (s : OpenState) : Prop :=
  ∀ q ∈ s.1, q = '"' ∨ q = '\''

theorem isQuoted_none {depth : Nat} : IsQuoted (none, depth) := by
  intro q hq
  cases hq

theorem IsQuoted.advance {s : OpenState} (h : IsQuoted s) (c : Char) : IsQuoted (advance s c) := by
  obtain ⟨quote, depth⟩ := s
  intro q hq
  cases quote with
  | some q' =>
    simp only [Element.advance] at hq
    split at hq
    · cases hq
    · cases hq
      exact h q rfl
  | none =>
    simp only [Element.advance] at hq
    split at hq
    · rename_i hc
      cases hq
      simpa using hc
    · split at hq
      · cases hq
      · split at hq <;> cases hq

theorem IsQuoted.of_passes {s s' : OpenState} (h : IsQuoted s) {u : Text} (hu : Passes s u s') :
    IsQuoted s' := by
  induction u generalizing s with
  | nil =>
    cases hu
    exact h
  | cons c u ih => exact ih (h.advance c) hu.2

/-- What opens and closes nothing. -/
def IsInert (c : Char) : Prop :=
  c ≠ '"' ∧ c ≠ '\'' ∧ c ≠ '\x7b' ∧ c ≠ '\x7d'

theorem advance_of_inert {s : OpenState} (hs : IsQuoted s) {c : Char} (h : IsInert c) :
    advance s c = s := by
  obtain ⟨hq, hq', hopen, hclose⟩ := h
  obtain ⟨quote, depth⟩ := s
  cases quote with
  | none =>
    simp only [advance, hq, hq', hopen, hclose, decide_false, Bool.or_self, Bool.false_eq_true,
      if_false]
  | some q =>
    have hc : c ≠ q := by
      rintro rfl
      rcases hs c rfl with hc | hc
      · exact hq hc
      · exact hq' hc
    simp only [advance, if_neg hc]

theorem eq_of_passes_inert {s s' : OpenState} (hs : IsQuoted s) {u : Text}
    (h : ∀ c ∈ u, IsInert c) (hu : Passes s u s') : s' = s := by
  induction u with
  | nil => exact hu.symm
  | cons c u ih =>
    obtain ⟨-, hu⟩ := hu
    rw [advance_of_inert hs (h c List.mem_cons_self)] at hu
    exact ih (fun d hd => h d (List.mem_cons_of_mem c hd)) hu

end Cloak.Element
