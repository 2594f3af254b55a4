import Cloak.Proofs.Hiding
import Cloak.Proofs.Substitution

namespace Cloak

/-- The texts of some items, with a text before each and one behind the last. -/
def interleave (text : β → Text) (tail : Text) : List (Text × β) → Text
  | [] => tail
  | (gap, b) :: marks => gap ++ (text b ++ interleave text tail marks)

/-- A filled document is its fillings between fixed texts, to which belongs what stands beside each
filling. -/
theorem exists_interleave_eq_fillFrom (document : Text) (span : α → Span) (left right : α → Text)
    (lead : Text) (reached : Nat) (as : List α) :
    ∃ tail marks, marks.map Prod.snd = as ∧ ∀ fill : α → Text,
      lead ++ fillFrom document span (fun a => left a ++ fill a ++ right a) reached as =
        interleave fill tail marks := by
  induction as generalizing lead reached with
  | nil =>
    refine ⟨lead ++ (document.from? reached).getD [], [], rfl, ?_⟩
    intro fill
    rfl
  | cons a as ih =>
    obtain ⟨tail, marks, hmarks, hfill⟩ := ih (right a) (span a).stop
    refine ⟨tail, (lead ++ (document.slice reached (span a).start ++ left a), a) :: marks, ?_, ?_⟩
    · rw [List.map_cons, hmarks]
    · intro fill
      rw [fillFrom, interleave, ← hfill]
      simp only [List.append_assoc]

theorem interleave_append (name : β → Text) (tail : Text) (before : List (Text × β)) (gap : Text)
    (b : β) (after : List (Text × β)) :
    interleave name tail (before ++ (gap, b) :: after) =
      interleave name gap before ++ (name b ++ interleave name tail after) := by
  induction before with
  | nil => rfl
  | cons m before ih => simp only [List.cons_append, interleave, ih, List.append_assoc]

namespace Substitution

/-- In a text with names at marked places a known name stands nowhere else. -/
def OnlyMarked (known : Text → Option Processed) (name : β → Text) (tail : Text)
    (marks : List (Text × β)) : Prop :=
  ∀ u v, interleave name tail marks = u ++ v → (name? known v).isSome →
    ∃ before gap b after, marks = before ++ (gap, b) :: after ∧ u = interleave name gap before

variable {known : Text → Option Processed} {name : β → Text} {tail : Text}

theorem OnlyMarked.drop_tail {c : Char} (h : OnlyMarked known name (c :: tail) []) :
    name? known (c :: tail) = none ∧ OnlyMarked known name tail [] := by
  constructor
  · cases hn : name? known (c :: tail) with
    | none => rfl
    | some r =>
      obtain ⟨before, gap, b, after, hm, -⟩ := h [] (c :: tail) rfl (by rw [hn, Option.isSome_some])
      cases before <;> cases hm
  · intro u v hv hn
    have hv' : interleave name (c :: tail) [] = (c :: u) ++ v := congrArg (c :: ·) hv
    obtain ⟨before, gap, b, after, hm, -⟩ := h (c :: u) v hv' hn
    cases before <;> cases hm

theorem OnlyMarked.drop_gap {c : Char} {gap : Text} {b : β} {marks : List (Text × β)}
    (h : OnlyMarked known name tail ((c :: gap, b) :: marks)) :
    name? known (c :: interleave name tail ((gap, b) :: marks)) = none ∧
      OnlyMarked known name tail ((gap, b) :: marks) := by
  constructor
  · cases hn : name? known (c :: interleave name tail ((gap, b) :: marks)) with
    | none => rfl
    | some r =>
      have hread : (name? known (c :: interleave name tail ((gap, b) :: marks))).isSome := by
        rw [hn, Option.isSome_some]
      obtain ⟨before, gap', b', after, hm, hu⟩ := h [] _ rfl hread
      cases before with
      | nil =>
        cases hm
        cases hu
      | cons m before =>
        cases hm
        cases hu
  · intro u v hv hn
    have hv' : interleave name tail ((c :: gap, b) :: marks) = (c :: u) ++ v :=
      congrArg (c :: ·) hv
    obtain ⟨before, gap', b', after, hm, hu⟩ := h (c :: u) v hv' hn
    cases before with
    | nil =>
      cases hm
      cases hu
      exact ⟨[], gap, b, marks, rfl, rfl⟩
    | cons m before =>
      cases hm
      exact ⟨(gap, b) :: before, gap', b', after, rfl, (List.cons.inj hu).2⟩

theorem OnlyMarked.drop_gaps {gap : Text} {b : β} {marks : List (Text × β)}
    (h : OnlyMarked known name tail ((gap, b) :: marks)) :
    OnlyMarked known name tail (([], b) :: marks) := by
  induction gap with
  | nil => exact h
  | cons c gap ih => exact ih h.drop_gap.2

theorem OnlyMarked.drop_mark {b : β} {marks : List (Text × β)} (hb : name b ≠ [])
    (h : OnlyMarked known name tail (([], b) :: marks)) : OnlyMarked known name tail marks := by
  intro u v hv hn
  have hv' : interleave name tail (([], b) :: marks) = (name b ++ u) ++ v := by
    rw [List.append_assoc, ← hv]
    rfl
  obtain ⟨before, gap, b', after, hm, hu⟩ := h (name b ++ u) v hv' hn
  cases before with
  | nil =>
    cases hm
    exact absurd (List.append_eq_nil_iff.1 hu).1 hb
  | cons m before =>
    cases hm
    exact ⟨before, gap, b', after, rfl, List.append_cancel_left hu⟩

/-- No paragraph around exactly one name that gives it up stands in the text. -/
def NoLoneName (known : Text → Option Processed) (t : Text) : Prop :=
  ∀ v, v <:+ t → paragraph? known v = none

theorem NoLoneName.suffix {t v : Text} (h : NoLoneName known t) (hv : v <:+ t) :
    NoLoneName known v :=
  fun _ hw => h _ (hw.trans hv)

theorem NoLoneName.unit?_eq {t : Text} (h : NoLoneName known t) : unit? known t = name? known t := by
  rw [unit?, h t List.suffix_rfl, Option.none_or]

theorem substitute_unmarked (honly : OnlyMarked known name tail [])
    (hlone : NoLoneName known tail) : substitute known tail = tail := by
  induction tail with
  | nil => exact substitute_nil known
  | cons c tail ih =>
    obtain ⟨hn, honly⟩ := honly.drop_tail
    have hunit : unit? known (c :: tail) = none := by
      rw [hlone.unit?_eq, hn]
    rw [substitute_of_none hunit, ih honly (hlone.suffix (List.suffix_cons c tail))]

theorem substitute_gap {gap : Text} {b : β} {marks : List (Text × β)}
    (honly : OnlyMarked known name tail ((gap, b) :: marks))
    (hlone : NoLoneName known (interleave name tail ((gap, b) :: marks))) :
    substitute known (interleave name tail ((gap, b) :: marks)) =
      gap ++ substitute known (interleave name tail (([], b) :: marks)) := by
  induction gap with
  | nil => rfl
  | cons c gap ih =>
    obtain ⟨hn, honly'⟩ := honly.drop_gap
    have hunit : unit? known (c :: interleave name tail ((gap, b) :: marks)) = none :=
      hlone.unit?_eq.trans hn
    have hrest := ih honly' (hlone.suffix (List.suffix_cons c _))
    exact (substitute_of_none hunit).trans (congrArg (c :: ·) hrest)

/-- Names that stand only at marks, none of them alone in a paragraph that it gives up, are replaced
by their own texts, and all else stays. -/
theorem substitute_interleave (hk : KnowsNames known) (text : β → Text) {marks : List (Text × β)}
    (hm : ∀ m ∈ marks, ∃ p, known (name m.2) = some p ∧ p.text = text m.2)
    (honly : OnlyMarked known name tail marks)
    (hlone : NoLoneName known (interleave name tail marks)) :
    substitute known (interleave name tail marks) = interleave text tail marks := by
  induction marks with
  | nil => exact substitute_unmarked honly hlone
  | cons m marks ih =>
    obtain ⟨gap, b⟩ := m
    obtain ⟨p, hp, htext⟩ := hm (gap, b) List.mem_cons_self
    have hname := hk _ _ hp
    have honly' : OnlyMarked known name tail (([], b) :: marks) := honly.drop_gaps
    have hlone' : NoLoneName known (interleave name tail (([], b) :: marks)) :=
      hlone.suffix (List.suffix_append gap _)
    have hunit : unit? known (interleave name tail (([], b) :: marks)) =
        some (p, interleave name tail marks) := by
      rw [hlone'.unit?_eq]
      exact name?_eq_some_iff.2 ⟨name b, rfl, hname.1, hp⟩
    have hrest := ih (fun m hm' => hm m (List.mem_cons_of_mem _ hm'))
      (honly'.drop_mark hname.ne_nil) (hlone'.suffix (List.suffix_append (name b) _))
    rw [substitute_gap honly hlone, substitute_of_some hunit, hrest, htext]
    rfl

end Substitution

end Cloak
