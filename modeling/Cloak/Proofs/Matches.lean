import Cloak.Proofs.Outermost
import Cloak.Proofs.Slice
import Cloak.Text.Search

namespace Cloak.Text

variable {read : Text → Option (Nat × α)}

theorem mem_matchesFrom {skip offset : Nat} {t : Text} {found : Found α}
    (h : found ∈ matchesFrom read skip offset t) :
    ∃ a b n, t = a ++ b ∧ read b = some (n, found.value) ∧
      found.span = ⟨offset + size a, offset + size a + size (b.take n)⟩ := by
  induction t generalizing skip offset with
  | nil => cases skip <;> cases h
  | cons c cs ih =>
    have later {skip' : Nat} (hm : found ∈ matchesFrom read skip' (offset + c.utf8Size) cs) :
        ∃ a b n, c :: cs = a ++ b ∧ read b = some (n, found.value) ∧
          found.span = ⟨offset + size a, offset + size a + size (b.take n)⟩ := by
      obtain ⟨a, b, n, rfl, hr, hs⟩ := ih hm
      refine ⟨c :: a, b, n, rfl, hr, ?_⟩
      rw [hs, size_cons, Nat.add_assoc]
    cases skip with
    | succ skip => exact later h
    | zero =>
      rw [matchesFrom] at h
      split at h
      · rename_i length value hr
        rcases List.mem_cons.1 h with rfl | h
        · exact ⟨[], c :: cs, length, rfl, hr, rfl⟩
        · exact later h
      · exact later h

theorem consecutive_matchesFrom (read : Text → Option (Nat × α)) (skip offset : Nat) (t : Text) :
    Consecutive Found.span (offset + size (t.take skip)) (matchesFrom read skip offset t) := by
  induction t generalizing skip offset with
  | nil => cases skip <;> trivial
  | cons c cs ih =>
    have later (skip' : Nat) :
        Consecutive Found.span (offset + size ((c :: cs).take (skip' + 1)))
          (matchesFrom read skip' (offset + c.utf8Size) cs) := by
      rw [List.take_succ_cons, size_cons, ← Nat.add_assoc]
      exact ih skip' (offset + c.utf8Size)
    cases skip with
    | succ skip => exact later skip
    | zero =>
      rw [matchesFrom]
      split
      · rename_i length value hr
        refine ⟨Nat.le_refl _, ?_⟩
        cases length with
        | zero => exact (later 0).mono (Nat.le_add_right _ _)
        | succ length => exact later length
      · exact (later 0).mono (Nat.le_add_right _ _)

theorem matchesFrom_of_none {offset : Nat} {c : Char} {t : Text} (h : read (c :: t) = none) :
    matchesFrom read 0 offset (c :: t) = matchesFrom read 0 (offset + c.utf8Size) t := by
  rw [matchesFrom, h]

theorem matchesFrom_append_of_none {offset : Nat} {a b : Text}
    (h : ∀ c s, c :: s <:+ a → read (c :: (s ++ b)) = none) :
    matchesFrom read 0 offset (a ++ b) = matchesFrom read 0 (offset + size a) b := by
  induction a generalizing offset with
  | nil => rfl
  | cons c a ih =>
    rw [List.cons_append, matchesFrom_of_none (h c a List.suffix_rfl), size_cons, ← Nat.add_assoc]
    exact ih fun d s hs => h d s (hs.trans (List.suffix_cons c a))

theorem matchesFrom_length (offset : Nat) (a b : Text) :
    matchesFrom read a.length offset (a ++ b) = matchesFrom read 0 (offset + size a) b := by
  induction a generalizing offset with
  | nil => rfl
  | cons c a ih => rw [List.cons_append, List.length_cons, matchesFrom, ih, size_cons, Nat.add_assoc]

theorem matchesFrom_of_some {offset : Nat} {a b : Text} {value : α} (ha : a ≠ [])
    (h : read (a ++ b) = some (a.length, value)) :
    matchesFrom read 0 offset (a ++ b) =
      ⟨⟨offset, offset + size a⟩, value⟩ :: matchesFrom read 0 (offset + size a) b := by
  cases a with
  | nil => exact absurd rfl ha
  | cons c a =>
    have htake : ((c :: a) ++ b).take (c :: a).length = c :: a := List.take_left
    rw [List.cons_append] at h htake ⊢
    rw [matchesFrom, h]
    simp only [htake]
    rw [List.length_cons, Nat.add_sub_cancel, matchesFrom_length, size_cons, Nat.add_assoc]

theorem size_lt_size_take {a b : Text} {n : Nat} (hlt : a.length < n) (hb : b ≠ []) :
    size a < size ((a ++ b).take n) := by
  have hne : b.take (n - a.length) ≠ [] := by
    intro he
    rcases List.take_eq_nil_iff.1 he with hz | he
    · omega
    · exact hb he
  have hsize := size_pos hne
  rw [List.take_append, List.take_of_length_le (Nat.le_of_lt hlt), size_append]
  omega

/-- Where a reader reads at least a character, some match covers the place. -/
theorem exists_match_covering (hpos : ∀ s n v, read s = some (n, v) → 0 < n) {skip offset : Nat}
    {t a b : Text} (ht : t = a ++ b) (hb : b ≠ []) (hr : (read b).isSome) :
    a.length < skip ∨ ∃ found ∈ matchesFrom read skip offset t,
      found.span.start ≤ offset + size a ∧ offset + size a < found.span.stop := by
  induction t generalizing skip offset a with
  | nil => exact absurd (List.append_eq_nil_iff.1 ht.symm).2 hb
  | cons c cs ih =>
    -- a place behind the first character is found in the rest or among the skipped characters of it
    have later {skip' : Nat} {a' : Text} (ha : a = c :: a') :
        a'.length < skip' ∨ ∃ found ∈ matchesFrom read skip' (offset + c.utf8Size) cs,
          found.span.start ≤ offset + size a ∧ offset + size a < found.span.stop := by
      rw [ha, List.cons_append] at ht
      rw [ha, size_cons, ← Nat.add_assoc]
      exact ih (List.cons.inj ht).2
    cases skip with
    | succ skip =>
      cases a with
      | nil => exact .inl (Nat.succ_pos skip)
      | cons d a =>
        obtain ⟨rfl, -⟩ := List.cons.inj ht
        rcases @later skip a rfl with h | h
        · exact .inl (Nat.succ_lt_succ h)
        · exact .inr h
    | zero =>
      right
      rw [matchesFrom]
      cases hn : read (c :: cs) with
      | some read? =>
        obtain ⟨n, v⟩ := read?
        by_cases hlt : a.length < n
        · have hsize := size_lt_size_take hlt hb
          rw [← ht] at hsize
          exact ⟨_, List.mem_cons_self, Nat.le_add_right _ _, Nat.add_lt_add_left hsize offset⟩
        · cases a with
          | nil => exact absurd (hpos _ n v hn) hlt
          | cons d a =>
            obtain ⟨rfl, -⟩ := List.cons.inj ht
            rcases @later (n - 1) a rfl with h | ⟨found, hm, hle⟩
            · rw [List.length_cons] at hlt
              omega
            · exact ⟨found, List.mem_cons_of_mem _ hm, hle⟩
      | none =>
        cases a with
        | nil =>
          rw [List.nil_append] at ht
          rw [← ht, hn] at hr
          cases hr
        | cons d a =>
          obtain ⟨rfl, -⟩ := List.cons.inj ht
          rcases @later 0 a rfl with h | h
          · exact absurd h (Nat.not_lt_zero _)
          · exact h

/-- The first place of a text at which something is read that is of use, with its use. -/
def FirstUse (read : Text → Option (Nat × α)) (use : Nat → α → Option β) (offset : Nat) (t : Text)
    (r : β) : Prop :=
  ∃ a b n v, t = a ++ b ∧ read b = some (n, v) ∧ use (offset + size a) v = some r ∧
    ∀ a' b' n' v', t = a' ++ b' → a'.length < a.length → read b' = some (n', v') →
      use (offset + size a') v' = none

theorem firstUse_cons {use : Nat → α → Option β} {offset : Nat} {c : Char} {t : Text} {r : β} :
    FirstUse read use offset (c :: t) r ↔
      (∃ n v, read (c :: t) = some (n, v) ∧ use offset v = some r) ∨
        (∀ n v, read (c :: t) = some (n, v) → use offset v = none) ∧
          FirstUse read use (offset + c.utf8Size) t r := by
  constructor
  · rintro ⟨a, b, n, v, ht, hr, hu, hfirst⟩
    cases a with
    | nil =>
      left
      rw [List.nil_append] at ht
      rw [← ht] at hr
      exact ⟨n, v, hr, hu⟩
    | cons d a =>
      rw [List.cons_append] at ht
      obtain ⟨rfl, rfl⟩ := List.cons.inj ht
      right
      refine ⟨fun n' v' hr' => hfirst [] _ n' v' rfl (Nat.succ_pos _) hr', ?_⟩
      refine ⟨a, b, n, v, rfl, hr, ?_, ?_⟩
      · rw [Nat.add_assoc]
        exact hu
      · intro a' b' n' v' ht' hlt hr'
        rw [Nat.add_assoc]
        refine hfirst (c :: a') b' n' v' ?_ (Nat.succ_lt_succ hlt) hr'
        rw [ht', List.cons_append]
  · rintro (⟨n, v, hr, hu⟩ | ⟨hnow, a, b, n, v, rfl, hr, hu, hfirst⟩)
    · exact ⟨[], c :: t, n, v, rfl, hr, hu, fun _ _ _ _ _ hlt => absurd hlt (Nat.not_lt_zero _)⟩
    · refine ⟨c :: a, b, n, v, rfl, hr, ?_, ?_⟩
      · rw [size_cons, ← Nat.add_assoc]
        exact hu
      · intro a' b' n' v' ht' hlt hr'
        cases a' with
        | nil =>
          rw [List.nil_append] at ht'
          rw [← ht'] at hr'
          exact hnow n' v' hr'
        | cons d a' =>
          rw [List.cons_append] at ht'
          obtain ⟨rfl, htail⟩ := List.cons.inj ht'
          rw [size_cons, ← Nat.add_assoc]
          exact hfirst a' b' n' v' htail (Nat.lt_of_succ_lt_succ hlt) hr'

theorem firstUse_cons_of_none {use : Nat → α → Option β} {offset : Nat} {c : Char} {t : Text}
    {r : β} (h : read (c :: t) = none) :
    FirstUse read use offset (c :: t) r ↔ FirstUse read use (offset + c.utf8Size) t r := by
  rw [firstUse_cons]
  simp only [h, reduceCtorEq, false_and, exists_false, false_or, false_implies, implies_true,
    true_and]

theorem firstUse_cons_of_some {use : Nat → α → Option β} {offset n : Nat} {v : α} {c : Char}
    {t : Text} {r : β} (h : read (c :: t) = some (n, v)) :
    FirstUse read use offset (c :: t) r ↔
      use offset v = some r ∨
        use offset v = none ∧ FirstUse read use (offset + c.utf8Size) t r := by
  rw [firstUse_cons]
  apply or_congr
  · constructor
    · rintro ⟨n', v', hr, hu⟩
      rw [h] at hr
      cases hr
      exact hu
    · intro hu
      exact ⟨n, v, h, hu⟩
  · apply and_congr_left'
    constructor
    · intro hnow
      exact hnow n v h
    · intro hu n' v' hr
      rw [h] at hr
      cases hr
      exact hu

theorem not_firstUse_nil {use : Nat → α → Option β} {offset : Nat} {r : β} (h : read [] = none) :
    ¬ FirstUse read use offset [] r := by
  rintro ⟨a, b, n, v, ht, hr, -⟩
  rw [(List.append_eq_nil_iff.1 ht.symm).2, h] at hr
  cases hr

/-- If nothing is read inside of what was read, the first match of use stands at the first place of
use. -/
theorem findSome?_matchesFrom {use : Nat → α → Option β} (hnil : read [] = none)
    (hsep : ∀ s n v, read s = some (n, v) → ∀ u w, s = u ++ w → 0 < u.length → u.length < n →
      read w = none)
    {skip offset : Nat} {t : Text}
    (hskip : ∀ u w, t = u ++ w → u.length < skip → read w = none) {r : β} :
    (matchesFrom read skip offset t).findSome? (fun found => use found.span.start found.value) =
      some r ↔ FirstUse read use offset t r := by
  induction t generalizing skip offset with
  | nil =>
    have hm : matchesFrom read skip offset [] = [] := by cases skip <;> rfl
    rw [hm, List.findSome?_nil]
    exact iff_of_false (fun h => nomatch h) (not_firstUse_nil hnil)
  | cons c t ih =>
    cases skip with
    | succ skip =>
      have hnow : read (c :: t) = none := hskip [] _ rfl (Nat.succ_pos skip)
      rw [matchesFrom, firstUse_cons_of_none hnow]
      apply ih
      intro u w ht hlt
      exact hskip (c :: u) w (congrArg (c :: ·) ht) (Nat.succ_lt_succ hlt)
    | zero =>
      rw [matchesFrom]
      cases hr : read (c :: t) with
      | none =>
        rw [firstUse_cons_of_none hr]
        apply ih
        intro u w _ hlt
        exact absurd hlt (Nat.not_lt_zero _)
      | some read? =>
        obtain ⟨n, v⟩ := read?
        have hrest := @ih (n - 1) (offset + c.utf8Size) fun u w ht hlt =>
          hsep _ n v hr (c :: u) w (congrArg (c :: ·) ht) (Nat.succ_pos _) (by
            rw [List.length_cons]
            omega)
        rw [firstUse_cons_of_some hr, ← hrest, List.findSome?_cons]
        cases use offset v with
        | none => simp only [reduceCtorEq, false_or, true_and]
        | some r' => simp only [reduceCtorEq, false_and, or_false]

end Cloak.Text
