import Cloak.Proofs.Marks

namespace Cloak.Colon

theorem stopsBy_plain {m : List Mark} (hm : Proper m) (h : Text.StopsBy isWordChar (expand m)) :
    Text.StopsBy isWordChar (plain m) := by
  cases m with
  | nil => exact h
  | cons x m =>
    obtain ⟨c, replaced⟩ := x
    cases replaced with
    | false => exact h
    | true =>
      obtain rfl := hm.char_eq rfl
      exact Text.stopsBy_cons_iff.2 (by decide)

theorem isSome_name?_plain {m : List Mark} (hm : Proper m) (h : (name? (expand m)).isSome) :
    (name? (plain m)).isSome := by
  obtain ⟨name, hname, rest, hsplit, hstop⟩ := isSome_name?_iff.1 h
  obtain ⟨m', rfl, rfl⟩ :=
    exists_append_of_expand_of_not_mem hm (not_dash_mem_name name hname) hsplit
  refine isSome_name?_iff.2 ⟨name, hname, plain m', ?_, stopsBy_plain hm.right hstop⟩
  rw [plain_append, plain_unmarked]

theorem tag?_expand {c : Char} {m : List Mark} (hm : Proper (⟨c, false⟩ :: m))
    (hall : Complete (⟨c, false⟩ :: m)) : tag? (c :: expand m) = none := by
  rw [Option.eq_none_iff_forall_ne_some]
  rintro ⟨n, r⟩ h
  obtain ⟨head, hhead, word, -, rest, hsplit, -, -, hname⟩ := exists_of_tag? h
  rw [List.append_assoc, List.cons_append] at hsplit
  generalize word ++ rest = behind at hsplit hname
  obtain ⟨m', hm', hexpand⟩ :=
    exists_append_of_expand_of_not_mem hm (not_dash_mem_heads head hhead) hsplit
  -- the colon of the tag is no replaced one, for a placeholder would stand there
  cases m' with
  | nil => cases hexpand
  | cons x m' =>
    obtain ⟨d, replaced⟩ := x
    rw [hm'] at hm hall
    cases replaced with
    | true => cases hexpand
    | false =>
      obtain ⟨rfl, rfl⟩ := List.cons.inj hexpand
      have hreplaced := hall (unmarked head) ⟨':', false⟩ m' rfl (isReplaced_iff.2 ⟨rfl, ?_, ?_⟩)
      · cases hreplaced
      · rw [plain_unmarked]
        exact ⟨head, hhead, List.suffix_rfl⟩
      · exact isSome_name?_plain hm.right.tail hname

theorem not_angle_mem_placeholder : '<' ∉ placeholder := by
  decide

theorem escape_append_of_not_mem {a : Text} (h : '<' ∉ a) (b : Text) :
    escape (a ++ b) = a ++ escape b := by
  apply Text.replaceAll_append_of_none
  intro c s hs
  rw [Option.eq_none_iff_forall_ne_some]
  rintro ⟨n, r⟩ hread
  obtain ⟨head, hhead, word, -, rest, hsplit, -⟩ := exists_of_tag? hread
  have hc : c = '<' := by
    have hfirst := congrArg List.head? hsplit
    rw [List.append_assoc, List.head?_append, head?_heads head hhead] at hfirst
    exact Option.some.inj hfirst
  exact h (hs.mem (hc ▸ List.mem_cons_self))

theorem escape_expand {m : List Mark} (hm : Proper m) (hall : Complete m) :
    escape (expand m) = expand m := by
  induction m with
  | nil => rfl
  | cons x m ih =>
    obtain ⟨c, replaced⟩ := x
    have hall' : Complete ([⟨c, replaced⟩] ++ m) := hall
    have hrest := ih hm.tail hall'.right
    cases replaced with
    | true =>
      rw [expand_cons_replaced, escape_append_of_not_mem not_angle_mem_placeholder, hrest]
    | false =>
      have hnone : escape (c :: expand m) = c :: escape (expand m) :=
        Text.replaceAll_of_none (tag?_expand hm hall)
      rw [expand_cons_kept, hnone, hrest]

/-- Replacing colons and putting them back is no more than putting back, so that it gives back
exactly the documents without the placeholder; and replacing twice is replacing once. -/
theorem escape_undone (d : Text) :
    unescape (escape d) = unescape d ∧
      (unescape (escape d) = d ↔ ¬ placeholder <:+: d) ∧ escape (escape d) = escape d := by
  have hplain : plain (marks d) = d := plain_marksFrom [] d
  have hundone : unescape (escape d) = unescape d := by
    rw [escape_eq_expand, unescape_expand_eq (proper_marks d), hplain]
  refine ⟨hundone, ?_, ?_⟩
  · rw [hundone]
    exact unescape_eq_self_iff
  · rw [escape_eq_expand d]
    exact escape_expand (proper_marks d) (complete_marks d)

end Cloak.Colon
