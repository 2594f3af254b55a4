namespace Cloak

/-- Puts an item before the first item that it may precede. -/
def insertInOrder (le : α → α → Bool) (a : α) : List α → List α
  | [] => [a]
  | b :: bs => if le a b then a :: b :: bs else b :: insertInOrder le a bs

/-- Sorts by insertion from the right, which is stable. -/
def stableSort (le : α → α → Bool) : List α → List α
  | [] => []
  | a :: as => insertInOrder le a (stableSort le as)

theorem perm_insertInOrder (le : α → α → Bool) (a : α) (as : List α) :
    (insertInOrder le a as).Perm (a :: as) := by
  induction as with
  | nil => exact .refl _
  | cons b bs ih =>
    rw [insertInOrder]
    split
    · exact .refl _
    · exact (ih.cons b).trans (.swap a b bs)

theorem perm_stableSort (le : α → α → Bool) (as : List α) : (stableSort le as).Perm as := by
  induction as with
  | nil => exact .refl _
  | cons a as ih => exact (perm_insertInOrder le a _).trans (ih.cons a)

theorem pairwise_insertInOrder {le : α → α → Bool} (total : ∀ a b, le a b ∨ le b a)
    (trans : ∀ a b c, le a b → le b c → le a c) (a : α) {as : List α}
    (h : as.Pairwise fun x y => le x y) :
    (insertInOrder le a as).Pairwise fun x y => le x y := by
  induction as with
  | nil => exact List.pairwise_singleton _ a
  | cons b bs ih =>
    obtain ⟨hb, hbs⟩ := List.pairwise_cons.1 h
    rw [insertInOrder]
    split
    · rename_i hab
      refine List.pairwise_cons.2 ⟨?_, h⟩
      intro c hc
      rcases List.mem_cons.1 hc with rfl | hc
      · exact hab
      · exact trans a b c hab (hb c hc)
    · rename_i hab
      have hba : le b a := (total a b).resolve_left hab
      refine List.pairwise_cons.2 ⟨?_, ih hbs⟩
      intro c hc
      rcases List.mem_cons.1 ((perm_insertInOrder le a bs).mem_iff.1 hc) with rfl | hc
      · exact hba
      · exact hb c hc

theorem pairwise_stableSort {le : α → α → Bool} (total : ∀ a b, le a b ∨ le b a)
    (trans : ∀ a b c, le a b → le b c → le a c) (as : List α) :
    (stableSort le as).Pairwise fun x y => le x y := by
  induction as with
  | nil => exact .nil
  | cons a as ih => exact pairwise_insertInOrder total trans a ih

section

variable {le : α → α → Bool}

theorem filter_insertInOrder_of_neg {p : α → Bool} {a : α} (ha : ¬ p a) (as : List α) :
    (insertInOrder le a as).filter p = as.filter p := by
  induction as with
  | nil => exact List.filter_cons_of_neg ha
  | cons b bs ih =>
    rw [insertInOrder]
    split
    · exact List.filter_cons_of_neg ha
    · rw [List.filter_cons, List.filter_cons, ih]

theorem insertInOrder_of_forall_le {a : α} {as : List α} (h : ∀ b ∈ as, le a b) :
    insertInOrder le a as = a :: as := by
  cases as with
  | nil => rfl
  | cons b bs => rw [insertInOrder, if_pos (h b List.mem_cons_self)]

theorem filter_insertInOrder_of_pos (trans : ∀ a b c, le a b → le b c → le a c) {p : α → Bool}
    {a : α} (ha : p a) {as : List α} (h : as.Pairwise fun x y => le x y) :
    (insertInOrder le a as).filter p = insertInOrder le a (as.filter p) := by
  induction as with
  | nil => exact List.filter_cons_of_pos ha
  | cons b bs ih =>
    obtain ⟨hb, hbs⟩ := List.pairwise_cons.1 h
    rw [insertInOrder]
    split
    · rename_i hab
      have hall : ∀ c ∈ (b :: bs).filter p, le a c := by
        intro c hc
        rcases List.mem_cons.1 (List.mem_filter.1 hc).1 with rfl | hc
        · exact hab
        · exact trans a b c hab (hb c hc)
      rw [List.filter_cons_of_pos ha, insertInOrder_of_forall_le hall]
    · rename_i hab
      rw [List.filter_cons, List.filter_cons, ih hbs]
      split
      · rw [insertInOrder, if_neg hab]
      · rfl

/-- A sort that is stable leaves what is picked out in the order that it has on its own. -/
theorem filter_stableSort (total : ∀ a b, le a b ∨ le b a)
    (trans : ∀ a b c, le a b → le b c → le a c) (p : α → Bool) (as : List α) :
    (stableSort le as).filter p = stableSort le (as.filter p) := by
  induction as with
  | nil => rfl
  | cons a as ih =>
    have hsorted := pairwise_stableSort total trans as
    rw [stableSort, List.filter_cons]
    split
    · rename_i ha
      rw [filter_insertInOrder_of_pos trans ha hsorted, ih, stableSort]
    · rename_i ha
      rw [filter_insertInOrder_of_neg ha, ih]

theorem stableSort_of_pairwise {as : List α}
    (h : as.Pairwise fun a b => le a b) : stableSort le as = as := by
  induction as with
  | nil => rfl
  | cons a as ih =>
    obtain ⟨ha, has⟩ := List.pairwise_cons.1 h
    rw [stableSort, ih has, insertInOrder_of_forall_le ha]

theorem filter_stableSort_of_tied (total : ∀ a b, le a b ∨ le b a)
    (trans : ∀ a b c, le a b → le b c → le a c) {p : α → Bool}
    (htied : ∀ a b, p a → p b → le a b) (as : List α) :
    (stableSort le as).filter p = as.filter p := by
  rw [filter_stableSort total trans]
  apply stableSort_of_pairwise
  apply List.pairwise_of_forall_mem_list
  intro a ha b hb
  exact htied a b (List.mem_filter.1 ha).2 (List.mem_filter.1 hb).2

theorem sublist_stableSort_iff (total : ∀ a b, le a b ∨ le b a)
    (trans : ∀ a b c, le a b → le b c → le a c) {p : α → Bool}
    (htied : ∀ a b, p a → p b → le a b) {xs as : List α} (hxs : ∀ x ∈ xs, p x) :
    xs.Sublist (stableSort le as) ↔ xs.Sublist as := by
  have keep {bs : List α} : xs.Sublist bs ↔ xs.Sublist (bs.filter p) := by
    constructor
    · intro h
      rw [← List.filter_eq_self.2 hxs]
      exact h.filter p
    · intro h
      exact h.trans List.filter_sublist
  rw [keep, filter_stableSort_of_tied total trans htied, ← keep]

end

section

variable (key : α → Nat)

theorem decide_key_total (a b : α) : decide (key a ≤ key b) ∨ decide (key b ≤ key a) := by
  simp only [decide_eq_true_eq]
  exact Nat.le_total (key a) (key b)

theorem decide_key_trans (a b c : α) (hab : decide (key a ≤ key b)) (hbc : decide (key b ≤ key c)) :
    decide (key a ≤ key c) := by
  simp only [decide_eq_true_eq] at *
  exact Nat.le_trans hab hbc

theorem pairwise_stableSort_key (as : List α) :
    (stableSort (fun a b => decide (key a ≤ key b)) as).Pairwise fun a b => key a ≤ key b :=
  (pairwise_stableSort (decide_key_total key) (decide_key_trans key) as).imp of_decide_eq_true

theorem sublist_stableSort_key_iff {a b : α} (h : key a = key b) {as : List α} :
    [a, b].Sublist (stableSort (fun a b => decide (key a ≤ key b)) as) ↔ [a, b].Sublist as := by
  apply @sublist_stableSort_iff α _ (decide_key_total key) (decide_key_trans key)
    fun c => decide (key c = key b)
  · intro c d hc hd
    rw [of_decide_eq_true hc, of_decide_eq_true hd]
    exact decide_eq_true (Nat.le_refl _)
  · intro c hc
    rcases List.mem_cons.1 hc with rfl | hc
    · exact decide_eq_true h
    · rw [List.mem_singleton.1 hc]
      exact decide_eq_true rfl

end

end Cloak
