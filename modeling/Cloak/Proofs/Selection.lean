import Mathlib.Data.List.Nodup
import Cloak.Proofs.Masking

namespace Cloak

namespace Span

theorem outerFirst_iff {a b : Span} :
    a.outerFirst b ↔ a.start < b.start ∨ a.start = b.start ∧ b.stop ≤ a.stop := by
  simp only [outerFirst, Bool.or_eq_true, Bool.and_eq_true, decide_eq_true_eq]

theorem eq_of_outerFirst {a b : Span} (hab : a.outerFirst b) (hba : b.outerFirst a) : a = b := by
  rw [outerFirst_iff] at hab hba
  exact Span.ext (by omega) (by omega)

end Span

section

variable {span : α → Span} {items : List α}

theorem map_insertInOrder (le : β → β → Bool) (f : α → β) (a : α) (as : List α) :
    (insertInOrder (fun a b => le (f a) (f b)) a as).map f =
      insertInOrder le (f a) (as.map f) := by
  induction as with
  | nil => rfl
  | cons b bs ih =>
    rw [List.map_cons, insertInOrder, insertInOrder]
    split
    · rfl
    · rw [List.map_cons, ih]

theorem map_stableSort (le : β → β → Bool) (f : α → β) (as : List α) :
    (stableSort (fun a b => le (f a) (f b)) as).map f = stableSort le (as.map f) := by
  induction as with
  | nil => rfl
  | cons a as ih => rw [List.map_cons, stableSort, stableSort, map_insertInOrder, ih]

theorem map_sweep (span : α → Span) (reached : Nat) (as : List α) :
    (sweep span reached as).map span = sweep id reached (as.map span) := by
  induction as generalizing reached with
  | nil => rfl
  | cons a as ih =>
    rw [List.map_cons, sweep, sweep, id]
    split
    · rw [List.map_cons, ih]
    · exact ih reached

theorem map_outermost (span : α → Span) (items : List α) :
    (outermost span items).map span = outermost id (items.map span) := by
  rw [outermost, map_sweep]
  exact congrArg (sweep id 0) (map_stableSort Span.outerFirst span items)

theorem sweep_of_consecutive {reached : Nat} {as : List α} (h : Consecutive span reached as) :
    sweep span reached as = as := by
  induction as generalizing reached with
  | nil => rfl
  | cons a as ih =>
    obtain ⟨hle, has⟩ := h
    rw [sweep, if_pos hle, ih has]

theorem outermost_outermost (span : α → Span) (items : List α) :
    outermost span (outermost span items) = outermost span items := by
  have hsorted : stableSort (fun a b => (span a).outerFirst (span b)) (outermost span items) =
      outermost span items :=
    stableSort_of_pairwise ((pairwise_outerFirst span items).sublist (sweep_sublist span 0 _))
  rw [outermost, hsorted]
  exact sweep_of_consecutive (outermost_consecutive span items)

/-- Items are divided into those that are kept and those that are dropped: the kept ones ascend and
are apart, two of them share a start only if both are empty, and each dropped one starts inside a
kept one, which is not shorter if it starts there as well. -/
structure IsSelection (span : α → Span) (items kept dropped : List α) : Prop where
  perm : (kept ++ dropped).Perm items
  start_le : kept.Pairwise fun a b => (span a).start ≤ (span b).start
  stop_le : kept.Pairwise fun a b => (span a).stop ≤ (span b).start
  empty_of_start_eq : kept.Pairwise fun a b =>
    (span a).start = (span b).start → (span a).isEmpty ∧ (span b).isEmpty
  shadowed : ∀ d ∈ dropped, ∃ k ∈ kept, (span k).holds (span d).start
  length_le : ∀ d ∈ dropped, ∀ k ∈ kept, (span k).start = (span d).start →
    ¬ (span k).isEmpty → (span d).length ≤ (span k).length

namespace IsSelection

variable {kept dropped : List α}

theorem start_le_stop (h : IsSelection span items kept dropped)
    (hle : ∀ a ∈ items, (span a).start ≤ (span a).stop) :
    ∀ a ∈ kept ++ dropped, (span a).start ≤ (span a).stop :=
  fun a ha => hle a (h.perm.mem_iff.1 ha)

theorem map (h : IsSelection span items kept dropped) :
    IsSelection id (items.map span) (kept.map span) (dropped.map span) where
  perm := by
    rw [← List.map_append]
    exact h.perm.map span
  start_le := List.pairwise_map.2 h.start_le
  stop_le := List.pairwise_map.2 h.stop_le
  empty_of_start_eq := List.pairwise_map.2 h.empty_of_start_eq
  shadowed := by
    intro s hs
    obtain ⟨d, hd, rfl⟩ := List.mem_map.1 hs
    obtain ⟨k, hk, hin⟩ := h.shadowed d hd
    exact ⟨span k, List.mem_map_of_mem hk, hin⟩
  length_le := by
    intro s hs r hr
    obtain ⟨d, hd, rfl⟩ := List.mem_map.1 hs
    obtain ⟨k, hk, rfl⟩ := List.mem_map.1 hr
    exact h.length_le d hd k hk

theorem pairwise_kept (h : IsSelection span items kept dropped)
    (hle : ∀ a ∈ items, (span a).start ≤ (span a).stop) :
    kept.Pairwise fun a b => (span a).outerFirst (span b) := by
  refine (h.start_le.and h.empty_of_start_eq).imp_of_mem ?_
  rintro a b ha - ⟨hstart, hempty⟩
  have horder := h.start_le_stop hle a (List.mem_append_left _ ha)
  rw [Span.outerFirst_iff]
  rcases Nat.lt_or_eq_of_le hstart with hlt | heq
  · exact .inl hlt
  · have hb := of_decide_eq_true (hempty heq).2
    exact .inr ⟨heq, by omega⟩

theorem outerFirst_of_mem_dropped (h : IsSelection span items kept dropped)
    (hle : ∀ a ∈ items, (span a).start ≤ (span a).stop) {d : α} (hd : d ∈ dropped) :
    ∃ k ∈ kept, (span k).outerFirst (span d) ∧ (span d).start < (span k).stop := by
  obtain ⟨k, hk, hin⟩ := h.shadowed d hd
  obtain ⟨hstart, hstop⟩ := Span.holds_iff.1 hin
  refine ⟨k, hk, Span.outerFirst_iff.2 ?_, hstop⟩
  rcases Nat.lt_or_eq_of_le hstart with hlt | heq
  · exact .inl hlt
  · have hne : ¬ (span k).isEmpty := by
      intro hempty
      have hempty := of_decide_eq_true hempty
      omega
    have hlength := h.length_le d hd k hk heq hne
    have horder := h.start_le_stop hle d (List.mem_append_right _ hd)
    rw [Span.length, Span.length] at hlength
    exact .inr ⟨heq, by omega⟩

end IsSelection

theorem Span.eq_first {s k : Span} {spans : List Span} (hs : ∀ r ∈ spans, s.outerFirst r)
    (hk : k ∈ s :: spans) (hks : k.outerFirst s) : k = s := by
  rcases List.mem_cons.1 hk with rfl | hk
  · rfl
  · exact eq_of_outerFirst hks (hs k hk)

/-- What is kept of sorted ranges, given that what starts before `reached` is dropped, is what a
sweep keeps: the first range that starts at `reached` or behind it is the first of the kept ones. -/
theorem eq_sweep {spans kept dropped : List Span} {reached : Nat}
    (hsorted : spans.Pairwise fun a b => a.outerFirst b) (hle : ∀ s ∈ spans, s.start ≤ s.stop)
    (hperm : (kept ++ dropped).Perm spans) (hkept : kept.Pairwise fun a b => a.outerFirst b)
    (hapart : kept.Pairwise fun a b => a.stop ≤ b.start) (hreached : ∀ k ∈ kept, reached ≤ k.start)
    (hdropped : ∀ d ∈ dropped,
      d.start < reached ∨ ∃ k ∈ kept, k.outerFirst d ∧ d.start < k.stop) :
    kept = sweep id reached spans := by
  induction spans generalizing kept dropped reached with
  | nil => exact (List.append_eq_nil_iff.1 hperm.eq_nil).1
  | cons s spans ih =>
    obtain ⟨hs, hspans⟩ := List.pairwise_cons.1 hsorted
    have hle' : ∀ s ∈ spans, s.start ≤ s.stop := fun r hr => hle r (List.mem_cons_of_mem s hr)
    have hmem : s ∈ kept ++ dropped := hperm.mem_iff.2 List.mem_cons_self
    have first {k : Span} (hk : k ∈ kept) (hks : k.outerFirst s) : k = s :=
      Span.eq_first hs (hperm.mem_iff.1 (List.mem_append_left _ hk)) hks
    rw [sweep, id]
    split
    · rename_i hstart
      have hin : s ∈ kept := by
        rcases List.mem_append.1 hmem with hin | hin
        · exact hin
        · rcases hdropped s hin with hlt | ⟨k, hk, hks, -⟩
          · omega
          · rw [← first hk hks]
            exact hk
      cases kept with
      | nil => cases hin
      | cons k kept =>
        obtain ⟨hk, hkept⟩ := List.pairwise_cons.1 hkept
        obtain ⟨hstop, hapart⟩ := List.pairwise_cons.1 hapart
        have hks : k = s := by
          rcases List.mem_cons.1 hin with rfl | hin
          · rfl
          · exact first List.mem_cons_self (hk s hin)
        subst hks
        congr 1
        apply ih hspans hle' (List.Perm.cons_inv hperm) hkept hapart hstop
        intro d hd
        have horder := hle k List.mem_cons_self
        rcases hdropped d hd with hlt | ⟨k', hk', hd'⟩
        · exact .inl (by omega)
        · rcases List.mem_cons.1 hk' with rfl | hk'
          · exact .inl hd'.2
          · exact .inr ⟨k', hk', hd'⟩
    · rename_i hstart
      have hin : s ∈ dropped := by
        rcases List.mem_append.1 hmem with hin | hin
        · exact absurd (hreached s hin) hstart
        · exact hin
      have hperm' : (kept ++ dropped.erase s).Perm spans := by
        refine List.Perm.cons_inv (a := s) (.trans ?_ hperm)
        exact List.perm_middle.symm.trans ((List.perm_cons_erase hin).symm.append_left kept)
      apply ih hspans hle' hperm' hkept hapart hreached
      intro d hd
      exact hdropped d (List.mem_of_mem_erase hd)

theorem IsSelection.map_eq {kept dropped items' : List α}
    (h : IsSelection span items' kept dropped) (hp : items'.Perm items)
    (hle : ∀ a ∈ items, (span a).start ≤ (span a).stop) :
    kept.map span = (outermost span items).map span := by
  have hspans : ∀ s ∈ items'.map span, s.start ≤ s.stop := by
    intro s hs
    obtain ⟨a, ha, rfl⟩ := List.mem_map.1 hs
    exact hle a (hp.mem_iff.1 ha)
  have hperm : (kept.map span ++ dropped.map span).Perm
      (stableSort Span.outerFirst (items.map span)) :=
    h.map.perm.trans ((hp.map span).trans (perm_stableSort _ _).symm)
  rw [map_outermost]
  apply eq_sweep (pairwise_outerFirst id (items.map span)) _ hperm (h.map.pairwise_kept hspans)
    h.map.stop_le (fun _ _ => Nat.zero_le _)
  · intro d hd
    exact .inr (h.map.outerFirst_of_mem_dropped hspans hd)
  · intro s hs
    exact hspans s ((hp.map span).mem_iff.2 ((perm_stableSort _ _).mem_iff.1 hs))

theorem Consecutive.eq_of_start_eq {reached : Nat} {as : List α} (h : Consecutive span reached as)
    (hle : ∀ a ∈ as, (span a).start ≤ (span a).stop) {a b : α} (ha : a ∈ as) (hb : b ∈ as)
    (hstart : (span a).start = (span b).start) (hne : (span a).start < (span a).stop)
    (hne' : (span b).start < (span b).stop) : a = b := by
  induction as generalizing reached with
  | nil => cases ha
  | cons c as ih =>
    obtain ⟨-, has⟩ := h
    have hle' : ∀ a ∈ as, (span a).start ≤ (span a).stop :=
      fun a ha => hle a (List.mem_cons_of_mem c ha)
    rcases List.mem_cons.1 ha with rfl | ha'
    · rcases List.mem_cons.1 hb with rfl | hb'
      · rfl
      · have hstop := has.start_le hle' b hb'
        omega
    · rcases List.mem_cons.1 hb with rfl | hb'
      · have hstop := has.start_le hle' a ha'
        omega
      · exact ih has hle' ha' hb'

theorem exists_isSelection (hle : ∀ a ∈ items, (span a).start ≤ (span a).stop) :
    ∃ dropped, IsSelection span items (outermost span items) dropped := by
  have hsorted := pairwise_outerFirst span items
  have hc := outermost_consecutive span items
  have hkept : ∀ a ∈ outermost span items, (span a).start ≤ (span a).stop :=
    fun a ha => hle a (mem_of_mem_outermost ha)
  exists passedOver span 0 (stableSort (fun a b => (span a).outerFirst (span b)) items)
  constructor
  case perm => exact (sweep_append_passedOver_perm span 0 _).trans (perm_stableSort _ items)
  case start_le => exact hc.pairwise_start hkept
  case stop_le => exact hc.pairwise_stop_le hkept
  case empty_of_start_eq =>
    apply ((hc.pairwise_stop_le hkept).and
      (hsorted.sublist (sweep_sublist span 0 _))).imp_of_mem
    rintro a b ha - ⟨hstop, horder⟩ heq
    have hle := hkept a ha
    rw [Span.outerFirst_iff] at horder
    simp only [Span.isEmpty, decide_eq_true_eq]
    omega
  case shadowed =>
    intro d hd
    rcases shadowed_of_mem_passedOver hsorted hd with hlt | ⟨k, hk, hkd, hin⟩
    · exact absurd hlt (Nat.not_lt_zero _)
    · rw [Span.outerFirst_iff] at hkd
      exact ⟨k, hk, Span.holds_iff.2 ⟨by omega, hin⟩⟩
  case length_le =>
    intro d hd k hk heq hne
    have hne : (span k).start < (span k).stop := by
      simpa only [Span.isEmpty, decide_eq_true_eq, Nat.not_le] using hne
    rcases shadowed_of_mem_passedOver hsorted hd with hlt | ⟨g, hg, hgd, hin⟩
    · exact absurd hlt (Nat.not_lt_zero _)
    · rw [Span.outerFirst_iff] at hgd
      have hstart : (span g).start = (span k).start := by
        rcases Nat.lt_trichotomy (span g).start (span k).start with hlt | hstart | hlt
        · have hstop := hc.stop_le hkept hg hk hlt
          omega
        · exact hstart
        · omega
      have hgk : g = k := hc.eq_of_start_eq hkept hg hk hstart (by omega) hne
      subst hgk
      rw [Span.length, Span.length]
      omega

theorem find?_of_mem_sweep {reached : Nat} {as : List α}
    (hle : ∀ a ∈ as, (span a).start ≤ (span a).stop) {a : α} (ha : a ∈ sweep span reached as)
    (hne : (span a).start < (span a).stop) :
    as.find? (fun b => span b = span a) = some a := by
  induction as generalizing reached with
  | nil => cases ha
  | cons b as ih =>
    have hle' : ∀ a ∈ as, (span a).start ≤ (span a).stop :=
      fun a ha => hle a (List.mem_cons_of_mem b ha)
    have later {reached : Nat} (ha : a ∈ sweep span reached as) : reached ≤ (span a).start :=
      (sweep_consecutive span reached as).start_le
        (fun b hb => hle' b ((sweep_sublist span reached as).mem hb)) a ha
    rw [sweep] at ha
    split at ha
    · rcases List.mem_cons.1 ha with rfl | ha
      · exact List.find?_cons_of_pos (decide_eq_true rfl)
      · have hstart := later ha
        have hdiff : span b ≠ span a := by
          intro heq
          rw [heq] at hstart
          omega
        rw [List.find?_cons_of_neg (by simpa using hdiff)]
        exact ih hle' ha
    · rename_i hlt
      have hstart := later ha
      have hdiff : span b ≠ span a := by
        intro heq
        rw [heq] at hlt
        exact hlt hstart
      rw [List.find?_cons_of_neg (by simpa using hdiff)]
      exact ih hle' ha

theorem find?_of_mem_outermost (hle : ∀ a ∈ items, (span a).start ≤ (span a).stop) {a : α}
    (ha : a ∈ outermost span items) (hne : (span a).start < (span a).stop) :
    items.find? (fun b => span b = span a) = some a := by
  have hsort := perm_stableSort (fun a b => (span a).outerFirst (span b)) items
  have hfirst := find?_of_mem_sweep (fun b hb => hle b (hsort.mem_iff.1 hb)) ha hne
  rw [← List.head?_filter] at hfirst ⊢
  rw [filter_stableSort_of_tied (fun a b => (span a).outerFirst_total (span b))
    (fun _ _ _ => Span.outerFirst_trans)] at hfirst
  · exact hfirst
  · intro b c hb hc
    rw [of_decide_eq_true hb, of_decide_eq_true hc]
    exact (span a).outerFirst_refl

theorem outermost_of_nodup (hne : (items.map span).Nodup) {items' : List α}
    (hp : items'.Perm items) : outermost span items' = outermost span items := by
  have hsort : stableSort (fun a b => (span a).outerFirst (span b)) items' =
      stableSort (fun a b => (span a).outerFirst (span b)) items := by
    apply List.Perm.eq_of_pairwise _ (pairwise_outerFirst span items') (pairwise_outerFirst span items)
      ((perm_stableSort _ items').trans (hp.trans (perm_stableSort _ items).symm))
    intro a b ha hb hab hba
    have ha := hp.mem_iff.1 ((perm_stableSort _ items').mem_iff.1 ha)
    have hb := (perm_stableSort _ items).mem_iff.1 hb
    exact List.inj_on_of_nodup_map hne ha hb (Span.eq_of_outerFirst hab hba)
  rw [outermost, hsort, outermost]

/-- The outermost items are a selection, and every selection from the items in any order keeps the
same ranges. Of items with one range the first is kept, and if no two items share their range, the
same items are kept in every order. -/
theorem outermost_unique_selection (hle : ∀ a ∈ items, (span a).start ≤ (span a).stop) :
    (∃ dropped, IsSelection span items (outermost span items) dropped) ∧
    (∀ items' kept dropped, items'.Perm items → IsSelection span items' kept dropped →
      kept.map span = (outermost span items).map span) ∧
    (∀ items', items'.Perm items →
      (outermost span items').map span = (outermost span items).map span) ∧
    outermost span (outermost span items) = outermost span items ∧
    (∀ a ∈ outermost span items, (span a).start < (span a).stop →
      items.find? (fun b => span b = span a) = some a) ∧
    ((items.map span).Nodup →
      ∀ items', items'.Perm items → outermost span items' = outermost span items) := by
  have selected {items' kept dropped : List α} (hp : items'.Perm items)
      (h : IsSelection span items' kept dropped) :
      kept.map span = (outermost span items).map span :=
    h.map_eq hp hle
  apply And.intro (exists_isSelection hle)
  apply And.intro fun items' kept dropped hp h => selected hp h
  constructor
  · intro items' hp
    obtain ⟨dropped, h⟩ := exists_isSelection fun a ha => hle a (hp.mem_iff.1 ha)
    exact selected hp h
  · apply And.intro (outermost_outermost span items)
    exact ⟨fun a ha hne => find?_of_mem_outermost hle ha hne,
      fun hne items' hp => outermost_of_nodup hne hp⟩

theorem outermost_unique_selection_ties :
    let items : List (Char × Span) :=
      [('a', ⟨3, 10⟩), ('b', ⟨0, 5⟩), ('c', ⟨0, 5⟩), ('d', ⟨5, 8⟩), ('e', ⟨9, 9⟩), ('f', ⟨9, 9⟩)]
    outermost Prod.snd items = [('b', ⟨0, 5⟩), ('d', ⟨5, 8⟩), ('e', ⟨9, 9⟩), ('f', ⟨9, 9⟩)] ∧
      (outermost Prod.snd items.reverse).map Prod.snd = (outermost Prod.snd items).map Prod.snd ∧
      items.find? (fun b => b.2 = ⟨0, 5⟩) = some ('b', ⟨0, 5⟩) := by
  obtain ⟨-, -, hsame, -, hfirst, -⟩ := @outermost_unique_selection (Char × Span) Prod.snd
    [('a', ⟨3, 10⟩), ('b', ⟨0, 5⟩), ('c', ⟨0, 5⟩), ('d', ⟨5, 8⟩), ('e', ⟨9, 9⟩), ('f', ⟨9, 9⟩)]
    (by decide)
  exact ⟨by decide, hsame _ (List.reverse_perm _), hfirst ('b', ⟨0, 5⟩) (by decide) (by decide)⟩

/-- A kept range that lies inside another one is found where a kept range has cut that other one
off: the latter is not kept itself, and the kept range that starts before it ends before the inner
one. -/
theorem contained_only_behind_cut (hlt : ∀ a ∈ items, (span a).start < (span a).stop) :
    ∀ k ∈ outermost span items, ∀ r ∈ items, (span r).contains (span k) → span r ≠ span k →
      r ∉ outermost span items ∧
      ∃ g ∈ outermost span items, (span g).start < (span r).start ∧
        (span r).start < (span g).stop ∧ (span g).stop ≤ (span k).start := by
  intro k hk r hr hcontains hdiff
  have hlt' : ∀ a ∈ outermost span items, (span a).start < (span a).stop :=
    fun a ha => hlt a (mem_of_mem_outermost ha)
  have hle : ∀ a ∈ outermost span items, (span a).start ≤ (span a).stop :=
    fun a ha => Nat.le_of_lt (hlt' a ha)
  have hc := outermost_consecutive span items
  have apart {g : α} (hg : g ∈ outermost span items) (h : (span g).start < (span k).start) :
      (span g).stop ≤ (span k).start :=
    hc.stop_le hle hg hk h
  have same {g : α} (hg : g ∈ outermost span items) (h : (span g).start = (span k).start) : g = k :=
    hc.eq_of_start_eq hle hg hk h (hlt' g hg) (hlt' k hk)
  have hk' := hlt' k hk
  simp only [Span.contains, Bool.and_eq_true, decide_eq_true_eq] at hcontains
  constructor
  · intro hkept
    rcases Nat.lt_or_eq_of_le hcontains.1 with hstart | hstart
    · have hstop := apart hkept hstart
      omega
    · exact hdiff (congrArg span (same hkept hstart))
  · obtain ⟨g, hg, hstart, hin, hidden | ⟨hcut, -⟩⟩ := outermost_covers hr (hlt r hr)
    · -- a range that hides the other one hides the kept one too, so it is that
      exfalso
      rcases Nat.lt_or_eq_of_le (Nat.le_trans hstart hcontains.1) with hbefore | hbefore
      · have hstop := apart hg hbefore
        omega
      · rw [same hg hbefore] at hstart hidden
        exact hdiff (Span.ext (by omega) (by omega))
    · exact ⟨g, hg, hcut, hin, apart hg (by omega)⟩

theorem contained_only_behind_cut_chain :
    let items : List Span := [⟨0, 5⟩, ⟨3, 10⟩, ⟨5, 8⟩]
    (⟨3, 10⟩ : Span) ∉ outermost id items ∧
      ∃ g ∈ outermost id items, g.start < 3 ∧ 3 < g.stop ∧ g.stop ≤ 5 :=
  @contained_only_behind_cut Span id [⟨0, 5⟩, ⟨3, 10⟩, ⟨5, 8⟩] (by decide) ⟨5, 8⟩ (by decide)
    ⟨3, 10⟩ (by decide) (by decide) (by decide)

/-- Not every kept range is apart from the ranges around it. -/
theorem exists_kept_contained :
    ¬ ∀ items : List Span, (∀ s ∈ items, s.start < s.stop) →
      ∀ k ∈ outermost id items, ∀ r ∈ items, r.contains k → r = k := by
  intro h
  have hsame := h [⟨0, 5⟩, ⟨3, 10⟩, ⟨5, 8⟩] (by decide) ⟨5, 8⟩ (by decide) ⟨3, 10⟩ (by decide)
  exact absurd (hsame (by decide)) (by decide)

end

end Cloak
