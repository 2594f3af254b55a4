import Cloak.Span.Outermost

namespace Cloak

theorem Span.ext {a b : Span} (hstart : a.start = b.start) (hstop : a.stop = b.stop) : a = b := by
  obtain ⟨start, stop⟩ := a
  obtain ⟨start', stop'⟩ := b
  rw [mk.injEq]
  exact ⟨hstart, hstop⟩

/-- The ranges of some items follow one another from an offset on, each at or after the end of the
one before it. -/
def Consecutive (span : α → Span) : Nat → List α → Prop
  | _, [] => True
  | reached, a :: as => reached ≤ (span a).start ∧ Consecutive span (span a).stop as

theorem Consecutive.start_le {span : α → Span} {reached : Nat} {as : List α}
    (h : Consecutive span reached as) (hle : ∀ a ∈ as, (span a).start ≤ (span a).stop) :
    ∀ a ∈ as, reached ≤ (span a).start := by
  induction as generalizing reached with
  | nil =>
    intro a ha
    cases ha
  | cons b as ih =>
    obtain ⟨hb, has⟩ := h
    have hb' := hle b List.mem_cons_self
    intro a ha
    rcases List.mem_cons.1 ha with rfl | ha
    · exact hb
    · have hr := ih has (fun c hc => hle c (List.mem_cons_of_mem b hc)) a ha
      omega

theorem Consecutive.pairwise_stop_le {span : α → Span} {reached : Nat} {as : List α}
    (h : Consecutive span reached as) (hle : ∀ a ∈ as, (span a).start ≤ (span a).stop) :
    as.Pairwise fun a b => (span a).stop ≤ (span b).start := by
  induction as generalizing reached with
  | nil => exact .nil
  | cons a as ih =>
    obtain ⟨-, has⟩ := h
    have hle' : ∀ b ∈ as, (span b).start ≤ (span b).stop :=
      fun b hb => hle b (List.mem_cons_of_mem a hb)
    exact List.pairwise_cons.2 ⟨has.start_le hle', ih has hle'⟩

theorem Consecutive.pairwise_start {span : α → Span} {reached : Nat} {as : List α}
    (h : Consecutive span reached as) (hle : ∀ a ∈ as, (span a).start ≤ (span a).stop) :
    as.Pairwise fun a b => (span a).start ≤ (span b).start := by
  refine (h.pairwise_stop_le hle).imp_of_mem ?_
  intro a b ha _ hab
  exact Nat.le_trans (hle a ha) hab

theorem Consecutive.stop_le {span : α → Span} {reached : Nat} {as : List α}
    (h : Consecutive span reached as) (hle : ∀ a ∈ as, (span a).start ≤ (span a).stop) {a b : α}
    (ha : a ∈ as) (hb : b ∈ as) (hlt : (span a).start < (span b).start) :
    (span a).stop ≤ (span b).start := by
  induction as generalizing reached with
  | nil => cases ha
  | cons c as ih =>
    obtain ⟨-, has⟩ := h
    have hc := hle c List.mem_cons_self
    have hle' : ∀ a ∈ as, (span a).start ≤ (span a).stop :=
      fun a ha => hle a (List.mem_cons_of_mem c ha)
    rcases List.mem_cons.1 ha with rfl | ha'
    · rcases List.mem_cons.1 hb with rfl | hb'
      · exact absurd hlt (Nat.lt_irrefl _)
      · exact has.start_le hle' b hb'
    · rcases List.mem_cons.1 hb with rfl | hb'
      · have hstart := has.start_le hle' a ha'
        omega
      · exact ih has hle' ha' hb'

theorem Consecutive.mono {span : α → Span} {reached reached' : Nat} {as : List α}
    (h : Consecutive span reached' as) (hle : reached ≤ reached') : Consecutive span reached as := by
  cases as with
  | nil => trivial
  | cons a as => exact ⟨Nat.le_trans hle h.1, h.2⟩

theorem Consecutive.of_pairwise {span : α → Span} {reached : Nat} {as : List α}
    (h : as.Pairwise fun a b => (span a).stop ≤ (span b).start)
    (hreached : ∀ a ∈ as, reached ≤ (span a).start) : Consecutive span reached as := by
  induction as generalizing reached with
  | nil => trivial
  | cons a as ih =>
    obtain ⟨ha, has⟩ := List.pairwise_cons.1 h
    exact ⟨hreached a List.mem_cons_self, ih has ha⟩

theorem consecutive_map {span : β → Span} {f : α → β} {reached : Nat} {as : List α} :
    Consecutive span reached (as.map f) ↔ Consecutive (fun a => span (f a)) reached as := by
  induction as generalizing reached with
  | nil => exact Iff.rfl
  | cons a as ih => exact and_congr_right fun _ => ih

theorem sweep_consecutive (span : α → Span) (reached : Nat) (as : List α) :
    Consecutive span reached (sweep span reached as) := by
  induction as generalizing reached with
  | nil => trivial
  | cons a as ih =>
    rw [sweep]
    split
    · rename_i ha
      exact ⟨ha, ih _⟩
    · exact ih _

theorem outermost_consecutive (span : α → Span) (items : List α) :
    Consecutive span 0 (outermost span items) :=
  sweep_consecutive span 0 _

theorem mem_of_mem_outermost {span : α → Span} {items : List α} {a : α}
    (h : a ∈ outermost span items) : a ∈ items :=
  (perm_stableSort _ items).mem_iff.1 ((sweep_sublist span 0 _).mem h)

theorem Span.outerFirst_refl (a : Span) : a.outerFirst a := by
  simp only [outerFirst, Nat.le_refl, decide_true, Bool.and_self, Bool.or_true]

def passedOver (span : α → Span) : Nat → List α → List α
  | _, [] => []
  | reached, a :: as =>
    if reached ≤ (span a).start then passedOver span (span a).stop as
    else a :: passedOver span reached as

theorem sweep_append_passedOver_perm (span : α → Span) (reached : Nat) (as : List α) :
    (sweep span reached as ++ passedOver span reached as).Perm as := by
  induction as generalizing reached with
  | nil => exact .refl _
  | cons a as ih =>
    rw [sweep, passedOver]
    split
    · exact (ih _).cons a
    · exact List.perm_middle.trans ((ih reached).cons a)

theorem shadowed_of_mem_passedOver {span : α → Span} {reached : Nat} {as : List α}
    (hs : as.Pairwise fun a b => (span a).outerFirst (span b)) {a : α}
    (ha : a ∈ passedOver span reached as) :
    (span a).start < reached ∨
      ∃ k ∈ sweep span reached as, (span k).outerFirst (span a) ∧ (span a).start < (span k).stop := by
  induction as generalizing reached with
  | nil => cases ha
  | cons b as ih =>
    obtain ⟨hb, has⟩ := List.pairwise_cons.1 hs
    rw [passedOver] at ha
    rw [sweep]
    split at ha
    · rename_i hle
      rw [if_pos hle]
      right
      rcases ih has ha with hlt | ⟨k, hk, hka⟩
      · have hmem := (sweep_append_passedOver_perm span _ as).mem_iff.1 (List.mem_append_right _ ha)
        exact ⟨b, List.mem_cons_self, hb a hmem, hlt⟩
      · exact ⟨k, List.mem_cons_of_mem b hk, hka⟩
    · rename_i hlt
      rw [if_neg hlt]
      rcases List.mem_cons.1 ha with rfl | ha
      · exact .inl (Nat.lt_of_not_le hlt)
      · exact ih has ha

theorem sweep_covers {span : α → Span} {reached : Nat} {as : List α}
    (hs : as.Pairwise fun a b => (span a).outerFirst (span b)) {a : α} (ha : a ∈ as) :
    (span a).start < reached ∨
      ∃ k ∈ sweep span reached as,
        (span k).outerFirst (span a) ∧ (k = a ∨ (span a).start < (span k).stop) := by
  rcases List.mem_append.1 ((sweep_append_passedOver_perm span reached as).mem_iff.2 ha) with
    hkept | hdropped
  · exact .inr ⟨a, hkept, (span a).outerFirst_refl, .inl rfl⟩
  · rcases shadowed_of_mem_passedOver hs hdropped with hlt | ⟨k, hk, hka, hin⟩
    · exact .inl hlt
    · exact .inr ⟨k, hk, hka, .inr hin⟩

/-- Whether the first byte of a range is in another range that either holds all of it, or starts
before it and ends inside it. -/
def Span.HiddenOrCut (outer inner : Span) : Prop :=
  outer.start ≤ inner.start ∧ inner.start < outer.stop ∧
    (inner.stop ≤ outer.stop ∨ outer.start < inner.start ∧ outer.stop < inner.stop)

theorem pairwise_outerFirst (span : α → Span) (items : List α) :
    (stableSort (fun a b => (span a).outerFirst (span b)) items).Pairwise
      fun a b => (span a).outerFirst (span b) :=
  pairwise_stableSort (fun a b => (span a).outerFirst_total (span b))
    (fun _ _ _ => Span.outerFirst_trans) items

/-- Every range with a byte in it starts inside a kept range, which holds all of it unless it starts
before it. -/
theorem outermost_covers {span : α → Span} {items : List α} {a : α} (ha : a ∈ items)
    (hne : (span a).start < (span a).stop) :
    ∃ k ∈ outermost span items, (span k).HiddenOrCut (span a) := by
  have hsorted := (perm_stableSort (fun x y => (span x).outerFirst (span y)) items).mem_iff.2 ha
  rcases sweep_covers (pairwise_outerFirst span items) hsorted with hlt | ⟨k, hk, hka, hin⟩
  · exact absurd hlt (Nat.not_lt_zero _)
  · refine ⟨k, hk, ?_⟩
    simp only [Span.outerFirst, Bool.or_eq_true, Bool.and_eq_true, decide_eq_true_eq] at hka
    have hlt : (span a).start < (span k).stop := by
      rcases hin with rfl | hin
      · exact hne
      · exact hin
    simp only [Span.HiddenOrCut]
    omega

end Cloak
