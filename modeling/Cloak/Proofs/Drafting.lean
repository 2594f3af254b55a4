import Mathlib.Data.List.Nodup
import Cloak.Proofs.Placing

namespace Cloak

namespace Span

/-- Earlier starts come first, and at one start the shorter range comes first. -/
def innerFirst (a b : Span) : Bool :=
  decide (a.start < b.start) || (decide (a.start = b.start) && decide (a.stop ≤ b.stop))

theorem innerFirst_iff {a b : Span} :
    a.innerFirst b ↔ a.start < b.start ∨ a.start = b.start ∧ a.stop ≤ b.stop := by
  simp only [innerFirst, Bool.or_eq_true, Bool.and_eq_true, decide_eq_true_eq]

theorem innerFirst_total (a b : Span) : a.innerFirst b ∨ b.innerFirst a := by
  simp only [innerFirst_iff]
  omega

theorem innerFirst_trans {a b c : Span} (hab : a.innerFirst b) (hbc : b.innerFirst c) :
    a.innerFirst c := by
  simp only [innerFirst_iff] at *
  omega

theorem eq_of_innerFirst {a b : Span} (hab : a.innerFirst b) (hba : b.innerFirst a) : a = b := by
  rw [innerFirst_iff] at hab hba
  exact Span.ext (by omega) (by omega)

end Span

namespace Draft

/-- A call for an edit, which leaves the draft as it is when it is refused. -/
def attempt (d : Draft) (e : Edit) : Draft :=
  match d.overwrite e.span e.text with
  | .ok d' => d'
  | .error _ => d

def attemptAll (d : Draft) (calls : List Edit) : Draft :=
  calls.foldl attempt d

/-- No empty edit comes after an edit that starts at the same place. -/
def EmptyFirst (edits : List Edit) : Prop :=
  edits.Pairwise fun a b => a.span.start = b.span.start → ¬ b.span.isEmpty

instance (edits : List Edit) : Decidable (EmptyFirst edits) :=
  inferInstanceAs (Decidable (List.Pairwise _ _))

/-- The edits of a draft fit its source, and no two of them clash. -/
structure WellFormed (d : Draft) : Prop where
  fitsIn : ∀ e ∈ d.edits, e.span.FitsIn d.source
  apart : d.edits.Pairwise fun a b => ¬ clash a.span b.span

theorem clash_comm (a b : Span) : clash a b = clash b a := by
  simp only [clash, eq_comm (a := b), Bool.and_comm (decide (a.start < b.stop))]

theorem overwrite_of_fitsIn {d : Draft} {span : Span} {text : Text} (h : span.FitsIn d.source) :
    d.overwrite span text =
      if d.edits.any fun e => clash span e.span then .error (.overlappingEdit span)
      else .ok { d with edits := d.edits ++ [⟨span, text⟩] } := by
  have hle := h.start_le
  have hsize := Text.le_size_of_isBoundary h.isBoundary_stop
  have hbounds : ¬ (span.stop < span.start || d.source.size < span.stop) := by
    simp only [Bool.or_eq_true, decide_eq_true_eq]
    omega
  have hboundary : ¬ (!d.source.isBoundary span.start || !d.source.isBoundary span.stop) := by
    rw [h.isBoundary_start, h.isBoundary_stop]
    decide
  rw [overwrite, if_neg hbounds, if_neg hboundary]

theorem attempt_of_apart {d : Draft} {e : Edit} (hfit : e.span.FitsIn d.source)
    (hapart : ∀ f ∈ d.edits, ¬ clash e.span f.span) :
    d.attempt e = { d with edits := d.edits ++ [e] } := by
  have hany : ¬ d.edits.any fun f => clash e.span f.span := by
    intro hany
    obtain ⟨f, hf, hclash⟩ := List.any_eq_true.1 hany
    exact hapart f hf hclash
  rw [attempt, overwrite_of_fitsIn hfit, if_neg hany]

theorem attempt_cases (d : Draft) (e : Edit) :
    ((e.span.FitsIn d.source ∧ ∀ f ∈ d.edits, ¬ clash e.span f.span) ∧
      d.attempt e = { d with edits := d.edits ++ [e] }) ∨ d.attempt e = d := by
  cases ho : d.overwrite e.span e.text with
  | error err =>
    right
    rw [attempt, ho]
  | ok d' =>
    left
    obtain ⟨hfit, -⟩ := overwrite_eq_ok ho
    have hapart : ∀ f ∈ d.edits, ¬ clash e.span f.span := by
      intro f hf hclash
      rw [overwrite_of_fitsIn hfit, if_pos (List.any_eq_true.2 ⟨f, hf, hclash⟩)] at ho
      cases ho
    exact ⟨⟨hfit, hapart⟩, attempt_of_apart hfit hapart⟩

theorem wellFormed_attempt {d : Draft} (h : d.WellFormed) (e : Edit) : (d.attempt e).WellFormed := by
  rcases attempt_cases d e with ⟨⟨hfit, hapart⟩, heq⟩ | heq
  · rw [heq]
    constructor
    · intro f hf
      rcases List.mem_append.1 hf with hf | hf
      · exact h.fitsIn f hf
      · rw [List.mem_singleton.1 hf]
        exact hfit
    · apply List.pairwise_append.2 ⟨h.apart, List.pairwise_singleton _ e, _⟩
      intro f hf g hg
      rw [List.mem_singleton.1 hg, clash_comm]
      exact hapart f hf
  · rw [heq]
    exact h

theorem source_attempt (d : Draft) (e : Edit) : (d.attempt e).source = d.source := by
  rcases attempt_cases d e with ⟨-, heq⟩ | heq
  · rw [heq]
  · rw [heq]

theorem source_attemptAll (d : Draft) (calls : List Edit) : (d.attemptAll calls).source = d.source := by
  induction calls generalizing d with
  | nil => rfl
  | cons e calls ih => exact (ih (d.attempt e)).trans (source_attempt d e)

theorem wellFormed_attemptAll {d : Draft} (h : d.WellFormed) (calls : List Edit) :
    (d.attemptAll calls).WellFormed := by
  induction calls generalizing d with
  | nil => exact h
  | cons e calls ih => exact ih (wellFormed_attempt h e)

theorem WellFormed.perm {source : Text} {es es' : List Edit} (h : WellFormed ⟨source, es⟩)
    (hp : es'.Perm es) : WellFormed ⟨source, es'⟩ where
  fitsIn e he := h.fitsIn e (hp.mem_iff.1 he)
  apart := by
    apply (hp.pairwise_iff _).2 h.apart
    intro a b hab
    rw [clash_comm]
    exact hab

theorem WellFormed.attemptAll_eq {source : Text} {as bs : List Edit}
    (h : WellFormed ⟨source, as ++ bs⟩) : attemptAll ⟨source, as⟩ bs = ⟨source, as ++ bs⟩ := by
  induction bs generalizing as with
  | nil => rw [List.append_nil, attemptAll, List.foldl_nil]
  | cons b bs ih =>
    have hb : attempt ⟨source, as⟩ b = ⟨source, as ++ [b]⟩ := by
      have hfit : b.span.FitsIn source := h.fitsIn b (List.mem_append_right as List.mem_cons_self)
      apply @attempt_of_apart ⟨source, as⟩ b hfit
      intro a ha
      rw [clash_comm]
      exact (List.pairwise_append.1 h.apart).2.2 a ha b List.mem_cons_self
    rw [List.append_cons] at h ⊢
    rw [← ih h, attemptAll, List.foldl_cons, hb, attemptAll]

theorem attemptAll_of_refused {d : Draft} {before later : List Edit} {e : Edit} {err : EscapeError}
    (h : (d.attemptAll before).overwrite e.span e.text = .error err) :
    d.attemptAll (before ++ e :: later) = d.attemptAll (before ++ later) := by
  have hsame : (d.attemptAll before).attempt e = d.attemptAll before := by rw [attempt, h]
  rw [attemptAll] at hsame
  rw [attemptAll, attemptAll, List.foldl_append, List.foldl_append, List.foldl_cons, hsame]

section

variable {source : Text} {es : List Edit}

theorem WellFormed.stop_le_or_stop_le (h : WellFormed ⟨source, es⟩) :
    es.Pairwise fun a b =>
      a.span ≠ b.span ∧ (a.span.stop ≤ b.span.start ∨ b.span.stop ≤ a.span.start) := by
  apply h.apart.imp
  intro a b hab
  simp only [clash, Bool.or_eq_true, Bool.and_eq_true, decide_eq_true_eq, not_or, not_and_or,
    Nat.not_lt] at hab
  exact ⟨fun heq => hab.1 heq.symm, hab.2.symm⟩

theorem WellFormed.consecutive (h : WellFormed ⟨source, es⟩)
    (hsorted : es.Pairwise fun a b => a.span.innerFirst b.span) : Consecutive Edit.span 0 es := by
  apply Consecutive.of_pairwise _ (fun _ _ => Nat.zero_le _)
  apply (hsorted.and h.stop_le_or_stop_le).imp_of_mem
  rintro a b ha hb ⟨hab, -, hapart⟩
  have hle := (h.fitsIn a ha).start_le
  have hle' := (h.fitsIn b hb).start_le
  rw [Span.innerFirst_iff] at hab
  omega

theorem WellFormed.eq_of_innerFirst {es' : List Edit} (h : WellFormed ⟨source, es⟩)
    (hp : es'.Perm es) (hsorted : es.Pairwise fun a b => a.span.innerFirst b.span)
    (hsorted' : es'.Pairwise fun a b => a.span.innerFirst b.span) : es' = es := by
  have hdistinct : (es.map Edit.span).Nodup :=
    List.pairwise_map.2 (h.stop_le_or_stop_le.imp And.left)
  apply List.Perm.eq_of_pairwise _ hsorted' hsorted hp
  intro a b ha hb hab hba
  exact List.inj_on_of_nodup_map hdistinct (hp.mem_iff.1 ha) hb (Span.eq_of_innerFirst hab hba)

theorem WellFormed.sorted_of_emptyFirst (h : WellFormed ⟨source, es⟩) (hempty : EmptyFirst es) :
    (stableSort (fun a b => decide (a.span.start ≤ b.span.start)) es).Pairwise
      fun a b => a.span.innerFirst b.span := by
  apply List.pairwise_iff_forall_sublist.2
  intro a b hab
  have hle : a.span.start ≤ b.span.start :=
    List.pairwise_iff_forall_sublist.1
      (pairwise_stableSort_key (fun e : Edit => e.span.start) es) hab
  rw [Span.innerFirst_iff]
  rcases Nat.lt_or_eq_of_le hle with hlt | heq
  · exact .inl hlt
  · rw [sublist_stableSort_key_iff (fun e : Edit => e.span.start) heq] at hab
    have hne := List.pairwise_iff_forall_sublist.1 hempty hab heq
    have hapart := (List.pairwise_iff_forall_sublist.1 h.stop_le_or_stop_le hab).2
    simp only [Span.isEmpty, decide_eq_true_eq, Nat.not_le] at hne
    exact .inr ⟨heq, by omega⟩

theorem WellFormed.emptyFirst_of_sorted (h : WellFormed ⟨source, es⟩)
    (hsorted : (stableSort (fun a b => decide (a.span.start ≤ b.span.start)) es).Pairwise
      fun a b => a.span.stop ≤ b.span.start) : EmptyFirst es := by
  apply List.pairwise_iff_forall_sublist.2
  intro a b hab heq hb
  have hne := (List.pairwise_iff_forall_sublist.1 h.stop_le_or_stop_le hab).1
  have hle := (h.fitsIn a (hab.mem List.mem_cons_self)).start_le
  have hle' := (h.fitsIn b (hab.mem (List.mem_cons_of_mem a List.mem_cons_self))).start_le
  rw [← sublist_stableSort_key_iff (fun e : Edit => e.span.start) heq] at hab
  have hstop := List.pairwise_iff_forall_sublist.1 hsorted hab
  have hb := of_decide_eq_true hb
  exact hne (Span.ext heq (by omega))

theorem consecutive_of_assemble {reached : Nat} {out : Text}
    (h : assemble source reached es = some out) : Consecutive Edit.span reached es := by
  induction es generalizing reached out with
  | nil => trivial
  | cons e es ih =>
    rw [assemble] at h
    simp only [Option.bind_eq_bind, Option.bind_eq_some_iff] at h
    obtain ⟨gap, hgap, rest, hrest, -⟩ := h
    obtain ⟨a, c, -, hstart, hstop⟩ := Text.slice?_eq_some_iff.1 hgap
    exact ⟨by omega, ih hrest⟩

/-- What becomes of edits in the order of their calls: the source with each of them in its place,
unless an empty one comes after an edit that starts where it stands. -/
theorem WellFormed.finish_eq {ordered : List Edit} (h : WellFormed ⟨source, es⟩)
    (hp : ordered.Perm es) (hordered : ordered.Pairwise fun a b => a.span.innerFirst b.span) :
    finish ⟨source, es⟩ =
      if EmptyFirst es then some (fillFrom source Edit.span Edit.text 0 ordered) else none := by
  have hsort := perm_stableSort (fun a b : Edit => decide (a.span.start ≤ b.span.start)) es
  have hsorted := h.perm hsort
  rw [finish]
  split
  · rename_i hempty
    have hinner := h.sorted_of_emptyFirst hempty
    have heq : ordered = stableSort (fun a b => decide (a.span.start ≤ b.span.start)) es :=
      hsorted.eq_of_innerFirst (hp.trans hsort.symm) hinner hordered
    rw [heq]
    exact assemble_eq_fillFrom (Text.isBoundary_zero source) (hsorted.consecutive hinner)
      hsorted.fitsIn
  · rename_i hempty
    apply Option.eq_none_iff_forall_ne_some.2
    intro out hout
    apply hempty
    apply h.emptyFirst_of_sorted
    exact (consecutive_of_assemble hout).pairwise_stop_le fun e he => (hsorted.fitsIn e he).start_le

end

/-- Calls in any order. A refused call changes nothing, and the accepted edits are accepted in every
order. They are made in the source, from left to right, if the empty ones come before those that
start at the same place, and in no other order is there an edited document. -/
theorem edits_in_any_order (source : Text) (calls : List Edit) :
    (∀ before e later err, calls = before ++ e :: later →
      (attemptAll ⟨source, []⟩ before).overwrite e.span e.text = .error err →
      attemptAll ⟨source, []⟩ calls = attemptAll ⟨source, []⟩ (before ++ later)) ∧
    ∃ ordered, ordered.Perm (attemptAll ⟨source, []⟩ calls).edits ∧
      Consecutive Edit.span 0 ordered ∧ (∀ e ∈ ordered, e.span.FitsIn source) ∧
      ∀ es, es.Perm (attemptAll ⟨source, []⟩ calls).edits →
        attemptAll ⟨source, []⟩ es = ⟨source, es⟩ ∧
        finish ⟨source, es⟩ =
          if EmptyFirst es then some (fillFrom source Edit.span Edit.text 0 ordered) else none := by
  constructor
  · rintro before e later err rfl h
    exact attemptAll_of_refused h
  · have hstart : WellFormed ⟨source, []⟩ := ⟨fun _ he => (List.not_mem_nil he).elim, .nil⟩
    have haccepted := wellFormed_attemptAll hstart calls
    have hsource := source_attemptAll ⟨source, []⟩ calls
    generalize attemptAll ⟨source, []⟩ calls = d at haccepted hsource ⊢
    obtain ⟨source', accepted⟩ := d
    obtain rfl : source' = source := hsource
    have hordered := pairwise_stableSort (fun a b : Edit => a.span.innerFirst_total b.span)
      (fun _ _ _ => Span.innerFirst_trans) accepted
    have hsort := perm_stableSort (fun a b : Edit => a.span.innerFirst b.span) accepted
    have hsorted := haccepted.perm hsort
    refine ⟨_, hsort, hsorted.consecutive hordered, hsorted.fitsIn, ?_⟩
    intro es hp
    have hes := haccepted.perm hp
    constructor
    · exact hes.attemptAll_eq
    · exact hes.finish_eq (hsort.trans hp.symm) hordered

/-- The two orders of an edit and an empty one at its start, with a refused call between them. -/
theorem edits_in_any_order_empty :
    let abc : Text := ['a', 'b', 'c']
    attemptAll ⟨abc, []⟩ [⟨⟨1, 2⟩, ['x']⟩, ⟨⟨0, 2⟩, ['z']⟩, ⟨⟨1, 1⟩, ['y']⟩] =
        attemptAll ⟨abc, []⟩ [⟨⟨1, 2⟩, ['x']⟩, ⟨⟨1, 1⟩, ['y']⟩] ∧
      finish ⟨abc, [⟨⟨1, 2⟩, ['x']⟩, ⟨⟨1, 1⟩, ['y']⟩]⟩ = none ∧
      attemptAll ⟨abc, []⟩ [⟨⟨1, 1⟩, ['y']⟩, ⟨⟨1, 2⟩, ['x']⟩] =
        ⟨abc, [⟨⟨1, 1⟩, ['y']⟩, ⟨⟨1, 2⟩, ['x']⟩]⟩ ∧
      finish ⟨abc, [⟨⟨1, 1⟩, ['y']⟩, ⟨⟨1, 2⟩, ['x']⟩]⟩ = some ['a', 'y', 'x', 'c'] := by
  intro abc
  obtain ⟨hrefused, ordered, hp, -, -, hall⟩ :=
    edits_in_any_order abc [⟨⟨1, 2⟩, ['x']⟩, ⟨⟨0, 2⟩, ['z']⟩, ⟨⟨1, 1⟩, ['y']⟩]
  have hleft := hall [⟨⟨1, 2⟩, ['x']⟩, ⟨⟨1, 1⟩, ['y']⟩] (.refl _)
  have hright := hall [⟨⟨1, 1⟩, ['y']⟩, ⟨⟨1, 2⟩, ['x']⟩] (.swap _ _ _)
  refine ⟨hrefused [_] _ [_] (.overlappingEdit ⟨0, 2⟩) rfl rfl, ?_, hright.1, rfl⟩
  rw [hleft.2]
  exact if_neg (by decide)

end Draft

end Cloak
