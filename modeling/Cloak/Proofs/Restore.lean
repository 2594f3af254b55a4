import Cloak.Proofs.Substitution

namespace Cloak

open Text (StopsBy)

namespace Restore

theorem run?_eq_some_iff {t run rest : Text} :
    run? t = some (run, rest) ↔
      t = run ++ rest ∧ 32 ≤ run.length ∧ (∀ c ∈ run, isHexDigit c) ∧ StopsBy isHexDigit rest := by
  have hparts := List.takeWhile_append_dropWhile (p := isHexDigit) (l := t)
  have hdrop : t.drop (t.takeWhile isHexDigit).length = t.dropWhile isHexDigit := by
    calc t.drop (t.takeWhile isHexDigit).length
        = (t.takeWhile isHexDigit ++ t.dropWhile isHexDigit).drop
            (t.takeWhile isHexDigit).length := by rw [hparts]
      _ = t.dropWhile isHexDigit := List.drop_left
  simp only [run?, hdrop, idLength]
  constructor
  · intro h
    split at h
    · rename_i hlen
      cases h
      exact ⟨hparts.symm, hlen, fun c hc => Text.of_mem_takeWhile hc, Text.stopsBy_dropWhile _ t⟩
    · cases h
  · rintro ⟨rfl, hlen, hrun, hrest⟩
    rw [Text.takeWhile_append_stop hrun hrest, Text.dropWhile_append_stop hrun hrest, if_pos hlen]

theorem paragraph?_append {u run v rest : Text} (hu : ∀ c ∈ u, isBlank c)
    (hv : ∀ c ∈ v, isBlank c) (hlen : 32 ≤ run.length) (hrun : ∀ c ∈ run, isHexDigit c) :
    paragraph? ("<p>".toList ++ (u ++ (run ++ (v ++ ("</p>".toList ++ rest))))) =
      some ("<p>".toList ++ u, run, v ++ "</p>".toList, rest) := by
  have hne : run ≠ [] := by
    rintro rfl
    exact absurd hlen (by decide)
  have hstop : StopsBy isHexDigit (v ++ ("</p>".toList ++ rest)) := by
    cases v with
    | nil => exact Text.stopsBy_cons_iff.2 (by decide)
    | cons c v =>
      apply Text.stopsBy_cons_iff.2
      apply Bool.eq_false_iff.2
      intro hc
      have hb := hv c List.mem_cons_self
      rw [isBlank_of_isHexDigit hc] at hb
      cases hb
  have hr := run?_eq_some_iff.2 ⟨rfl, hlen, hrun, hstop⟩
  have hstart := Text.dropWhile_append_stop hu
    (stopsBy_isBlank_of_isHexDigit hrun hne (v ++ ("</p>".toList ++ rest)))
  have hend := Text.dropWhile_append_stop hv (stopsBy_close isBlank (by decide) rest)
  simp only [paragraph?, Text.literal?_append, Option.bind_eq_bind, Option.bind_some, hstart, hr,
    hend, Option.pure_def, Option.some.injEq, Prod.mk.injEq, and_true, true_and]
  constructor
  · rw [← List.append_assoc]
    apply List.take_left'
    simp only [List.length_append]
    omega
  · rw [← List.append_assoc v]
    apply List.take_left'
    simp only [List.length_append]
    omega

theorem paragraph?_eq_some_iff {t head run tail rest : Text} :
    paragraph? t = some (head, run, tail, rest) ↔
      ∃ u v, (∀ c ∈ u, isBlank c) ∧ (∀ c ∈ v, isBlank c) ∧ 32 ≤ run.length ∧
        (∀ c ∈ run, isHexDigit c) ∧ head = "<p>".toList ++ u ∧ tail = v ++ "</p>".toList ∧
        t = "<p>".toList ++ (u ++ (run ++ (v ++ ("</p>".toList ++ rest)))) := by
  constructor
  · intro h
    obtain ⟨start, hs, hstart⟩ := Option.bind_eq_some_iff.1 h
    obtain ⟨⟨run', after⟩, hr, hafter⟩ := Option.bind_eq_some_iff.1 hstart
    obtain ⟨rest', hc, he⟩ := Option.bind_eq_some_iff.1 hafter
    obtain ⟨hrun, hlen, hdigits, hstop⟩ := run?_eq_some_iff.1 hr
    have ht : t = "<p>".toList ++ (start.takeWhile isBlank ++
        (run' ++ (after.takeWhile isBlank ++ ("</p>".toList ++ rest')))) := by
      rw [← Text.literal?_eq_some_iff.1 hc, List.takeWhile_append_dropWhile, ← hrun,
        List.takeWhile_append_dropWhile, ← Text.literal?_eq_some_iff.1 hs]
    have hu : ∀ c ∈ start.takeWhile isBlank, isBlank c := fun c => Text.of_mem_takeWhile
    have hv : ∀ c ∈ after.takeWhile isBlank, isBlank c := fun c => Text.of_mem_takeWhile
    rw [ht, paragraph?_append hu hv hlen hdigits] at h
    cases h
    exact ⟨_, _, hu, hv, hlen, hdigits, rfl, rfl, ht⟩
  · rintro ⟨u, v, hu, hv, hlen, hrun, rfl, rfl, rfl⟩
    exact paragraph?_append hu hv hlen hrun

end Restore

namespace Substitution

theorem replaceNames_eq_replaceAll (names : Processed.Names) (run : Text) :
    Restore.replaceNames names run =
      run.replaceAll fun t => (name? (Restore.lookup? names) t).map fun r => (32, r.1.text) := by
  rw [Restore.replaceNames]
  congr 1
  funext t
  by_cases hlen : 32 ≤ t.length
  · rw [name?, if_pos hlen, Option.map_map]
    exact if_pos hlen
  · rw [name?, if_neg hlen]
    exact if_neg hlen

theorem replaceNames_of_none {names : Processed.Names} {c : Char} {w : Text}
    (h : name? (Restore.lookup? names) (c :: w) = none) :
    Restore.replaceNames names (c :: w) = c :: Restore.replaceNames names w := by
  rw [replaceNames_eq_replaceAll, replaceNames_eq_replaceAll]
  apply Text.replaceAll_of_none
  rw [h, Option.map_none]

theorem replaceNames_of_some {names : Processed.Names} {w rest : Text} {p : Processed}
    (h : name? (Restore.lookup? names) w = some (p, rest)) :
    Restore.replaceNames names w = p.text ++ Restore.replaceNames names rest := by
  obtain ⟨id, rfl, hlen, -⟩ := name?_eq_some_iff.1 h
  rw [replaceNames_eq_replaceAll, replaceNames_eq_replaceAll]
  apply Text.replaceAll_of_some
  · rintro rfl
    exact absurd hlen (by decide)
  · rw [h, Option.map_some, hlen]

theorem substitute_append_of_digits {names : Processed.Names}
    (hk : KnowsNames (Restore.lookup? names)) {w b : Text} (hw : ∀ c ∈ w, Restore.isHexDigit c)
    (hb : StopsBy Restore.isHexDigit b) :
    substitute (Restore.lookup? names) (w ++ b) =
      Restore.replaceNames names w ++ substitute (Restore.lookup? names) b := by
  -- the walk may go on behind a name, so the induction is on the number of digits
  induction hn : w.length using Nat.strongRecOn generalizing w with
  | ind n ih =>
    cases w with
    | nil => rfl
    | cons c w =>
      have hp : paragraph? (Restore.lookup? names) (c :: (w ++ b)) = none := by
        apply paragraph?_cons_of_ne
        rintro rfl
        exact absurd (hw '<' List.mem_cons_self) (by decide)
      have hunit : unit? (Restore.lookup? names) (c :: (w ++ b)) =
          (name? (Restore.lookup? names) (c :: w)).map fun r => (r.1, r.2 ++ b) := by
        rw [unit?, hp, Option.none_or, ← List.cons_append, name?_append_stop hk hb]
      cases hr : name? (Restore.lookup? names) (c :: w) with
      | none =>
        rw [hr, Option.map_none] at hunit
        rw [List.cons_append, substitute_of_none hunit, replaceNames_of_none hr, List.cons_append]
        congr 1
        exact ih w.length (by rw [← hn]; exact Nat.lt_succ_self _)
          (fun d hd => hw d (List.mem_cons_of_mem c hd)) rfl
      | some r =>
        obtain ⟨p, rest⟩ := r
        rw [hr, Option.map_some] at hunit
        obtain ⟨id, hid, hlen, -⟩ := name?_eq_some_iff.1 hr
        rw [List.cons_append, substitute_of_some hunit, replaceNames_of_some hr, List.append_assoc]
        congr 1
        apply ih rest.length _ _ rfl
        · rw [← hn, hid, List.length_append, hlen]
          omega
        · intro d hd
          exact hw d (by rw [hid]; exact List.mem_append_right id hd)

theorem substitute_paragraph {names : Processed.Names}
    (hk : KnowsNames (Restore.lookup? names)) {u run v rest : Text} (hu : ∀ c ∈ u, isBlank c)
    (hv : ∀ c ∈ v, isBlank c) (hrun : ∀ c ∈ run, Restore.isHexDigit c)
    (h : paragraph? (Restore.lookup? names)
      ("<p>".toList ++ (u ++ (run ++ (v ++ ("</p>".toList ++ rest))))) = none) :
    substitute (Restore.lookup? names)
        ("<p>".toList ++ (u ++ (run ++ (v ++ ("</p>".toList ++ rest))))) =
      "<p>".toList ++ u ++ Restore.replaceNames names run ++ (v ++ "</p>".toList) ++
        substitute (Restore.lookup? names) rest := by
  have hstop : StopsBy Restore.isHexDigit (v ++ ("</p>".toList ++ rest)) := by
    cases v with
    | nil => exact Text.stopsBy_cons_iff.2 (by decide)
    | cons c v =>
      have hc := isInert_of_isBlank (hv c List.mem_cons_self)
      exact Text.stopsBy_cons_iff.2 (isInert_iff.1 hc).1
  have hopen : ∀ c ∈ ['p', '>'] ++ u, isInert c := by
    intro c hc
    rcases List.mem_append.1 hc with hc | hc
    · exact List.all_eq_true.1 (by decide) c hc
    · exact isInert_of_isBlank (hu c hc)
  have hclose : substitute (Restore.lookup? names) ("</p>".toList ++ rest) =
      "</p>".toList ++ substitute (Restore.lookup? names) rest := by
    have hp : paragraph? (Restore.lookup? names) ('<' :: ("/p>".toList ++ rest)) = none := rfl
    have hinert : ∀ c ∈ "/p>".toList, isInert c := List.all_eq_true.1 (by decide)
    exact (substitute_angle hk hp).trans
      (congrArg ('<' :: ·) (substitute_append_of_inert hk hinert))
  have htail : substitute (Restore.lookup? names) (v ++ ("</p>".toList ++ rest)) =
      v ++ ("</p>".toList ++ substitute (Restore.lookup? names) rest) := by
    rw [substitute_append_of_inert hk fun c hc => isInert_of_isBlank (hv c hc), hclose]
  calc substitute (Restore.lookup? names)
        ("<p>".toList ++ (u ++ (run ++ (v ++ ("</p>".toList ++ rest)))))
      = '<' :: substitute (Restore.lookup? names)
          (['p', '>'] ++ u ++ (run ++ (v ++ ("</p>".toList ++ rest)))) := by
        rw [List.append_assoc]
        exact substitute_angle hk h
    _ = '<' :: (['p', '>'] ++ u ++ (Restore.replaceNames names run ++
          (v ++ ("</p>".toList ++ substitute (Restore.lookup? names) rest)))) := by
        rw [substitute_append_of_inert hk hopen, substitute_append_of_digits hk hrun hstop, htail]
    _ = _ := by
        simp only [List.append_assoc]
        rfl

theorem unit?_eq_none {known : Text → Option Processed} (hk : KnowsNames known) {t : Text}
    (hp : Restore.paragraph? t = none) (hr : Restore.run? t = none) : unit? known t = none := by
  cases h : unit? known t with
  | none => rfl
  | some r =>
    exfalso
    obtain ⟨p, rest⟩ := r
    rcases Option.or_eq_some_iff.1 h with h | ⟨-, h⟩
    · obtain ⟨u, id, v, hu, hv, hid, -, ht⟩ := (paragraph?_eq_some_iff hk).1 h
      have hname := hk id p hid
      have h' := Restore.paragraph?_eq_some_iff.2
        ⟨u, v, hu, hv, Nat.le_of_eq hname.1.symm, hname.2, rfl, rfl, ht⟩
      rw [hp] at h'
      cases h'
    · obtain ⟨id, rfl, hlen, hid⟩ := name?_eq_some_iff.1 h
      have hdigits : ∀ c ∈ id ++ rest.takeWhile Restore.isHexDigit, Restore.isHexDigit c := by
        intro c hc
        rcases List.mem_append.1 hc with hc | hc
        · exact (hk id p hid).2 c hc
        · exact Text.of_mem_takeWhile hc
      have hlong : 32 ≤ (id ++ rest.takeWhile Restore.isHexDigit).length := by
        rw [List.length_append, hlen]
        exact Nat.le_add_right 32 _
      have hsplit : id ++ rest =
          id ++ rest.takeWhile Restore.isHexDigit ++ rest.dropWhile Restore.isHexDigit := by
        rw [List.append_assoc, List.takeWhile_append_dropWhile]
      have h' := Restore.run?_eq_some_iff.2
        ⟨hsplit, hlong, hdigits, Text.stopsBy_dropWhile _ rest⟩
      rw [hr] at h'
      cases h'

/-- What is put in the place of a paragraph around a run. -/
def paragraphText (names : Processed.Names) (head run tail : Text) : Text :=
  match Restore.lookup? names run with
  | some p => if p.dropParagraph then p.text else head ++ Restore.replaceNames names run ++ tail
  | none => head ++ Restore.replaceNames names run ++ tail

theorem replacement?_of_paragraph? (names : Processed.Names) {t head run tail rest : Text}
    (h : Restore.paragraph? t = some (head, run, tail, rest)) :
    Restore.replacement? names t =
      some (t.length - rest.length, paragraphText names head run tail) := by
  rw [Restore.replacement?, h, paragraphText]
  cases hl : Restore.lookup? names run with
  | none => simp only [hl]
  | some p =>
    simp only [hl]
    split <;> rfl

theorem substitute_of_paragraph? {names : Processed.Names}
    (hk : KnowsNames (Restore.lookup? names)) {t head run tail rest : Text}
    (h : Restore.paragraph? t = some (head, run, tail, rest)) :
    substitute (Restore.lookup? names) t =
      paragraphText names head run tail ++ substitute (Restore.lookup? names) rest := by
  obtain ⟨u, v, hu, hv, hlen, hrun, rfl, rfl, rfl⟩ := Restore.paragraph?_eq_some_iff.1 h
  cases hp : paragraph? (Restore.lookup? names)
      ("<p>".toList ++ (u ++ (run ++ (v ++ ("</p>".toList ++ rest))))) with
  | some r =>
    obtain ⟨p, rest'⟩ := r
    obtain ⟨u', id, v', hu', hv', hid, hdrop, he⟩ := (paragraph?_eq_some_iff hk).1 hp
    have hname := hk id p hid
    have h' := Restore.paragraph?_eq_some_iff.2
      ⟨u', v', hu', hv', Nat.le_of_eq hname.1.symm, hname.2, rfl, rfl, he⟩
    rw [h] at h'
    simp only [Option.some.injEq, Prod.mk.injEq] at h'
    obtain ⟨-, rfl, -, rfl⟩ := h'
    rw [substitute_of_some (by rw [unit?, hp, Option.some_or]), paragraphText, hid]
    simp only [hdrop, if_true]
  | none =>
    have hstay : paragraphText names ("<p>".toList ++ u) run (v ++ "</p>".toList) =
        "<p>".toList ++ u ++ Restore.replaceNames names run ++ (v ++ "</p>".toList) := by
      rw [paragraphText]
      cases hid : Restore.lookup? names run with
      | none => rfl
      | some p =>
        cases hdrop : p.dropParagraph with
        | false => exact if_neg (by rw [hdrop]; exact Bool.false_ne_true)
        | true =>
          have hgone : paragraph? (Restore.lookup? names)
              ("<p>".toList ++ (u ++ (run ++ (v ++ ("</p>".toList ++ rest))))) = some (p, rest) :=
            (paragraph?_eq_some_iff hk).2 ⟨u, run, v, hu, hv, hid, hdrop, rfl⟩
          rw [hp] at hgone
          cases hgone
    rw [substitute_paragraph hk hu hv hrun hp, hstay]

/-- Searching runs and putting texts in their place is the walk from unit to unit. -/
theorem replaceAll_replacement? {names : Processed.Names}
    (hk : KnowsNames (Restore.lookup? names)) (t : Text) :
    t.replaceAll (Restore.replacement? names) = substitute (Restore.lookup? names) t := by
  induction hn : t.length using Nat.strongRecOn generalizing t with
  | ind n ih =>
    cases hp : Restore.paragraph? t with
    | some parts =>
      obtain ⟨head, run, tail, rest⟩ := parts
      have hread := replacement?_of_paragraph? names hp
      rw [substitute_of_paragraph? hk hp]
      obtain ⟨u, v, -, -, -, -, -, -, rfl⟩ := Restore.paragraph?_eq_some_iff.1 hp
      have ht : "<p>".toList ++ (u ++ (run ++ (v ++ ("</p>".toList ++ rest)))) =
          "<p>".toList ++ (u ++ (run ++ (v ++ "</p>".toList))) ++ rest := by
        simp only [List.append_assoc]
      rw [ht, List.length_append, Nat.add_sub_cancel] at hread
      rw [ht, Text.replaceAll_of_some (List.append_ne_nil_of_left_ne_nil (by decide) _) hread]
      congr 1
      apply ih rest.length _ _ rfl
      rw [← hn, ht, List.length_append]
      exact Nat.lt_add_of_pos_left (Nat.succ_pos _)
    | none =>
      cases hr : Restore.run? t with
      | some parts =>
        obtain ⟨run, rest⟩ := parts
        obtain ⟨rfl, hlen, hrun, hstop⟩ := Restore.run?_eq_some_iff.1 hr
        have hread : Restore.replacement? names (run ++ rest) =
            some (run.length, Restore.replaceNames names run) := by
          rw [Restore.replacement?, hp, hr]
          rfl
        have hne : run ≠ [] := by
          rintro rfl
          exact absurd hlen (by decide)
        rw [Text.replaceAll_of_some hne hread, substitute_append_of_digits hk hrun hstop]
        congr 1
        apply ih rest.length _ _ rfl
        rw [← hn, List.length_append]
        omega
      | none =>
        cases t with
        | nil => rw [Text.replaceAll_nil, substitute_nil]
        | cons c t =>
          have hread : Restore.replacement? names (c :: t) = none := by
            rw [Restore.replacement?, hp, hr]
            rfl
          rw [Text.replaceAll_of_none hread, substitute_of_none (unit?_eq_none hk hp hr)]
          congr 1
          apply ih t.length _ _ rfl
          rw [← hn]
          exact Nat.lt_succ_self _

theorem lookup?_eq_latest? (names : Processed.Names) (id : Text) :
    Restore.lookup? names id = latest? names id := by
  induction names with
  | nil => rfl
  | cons e names ih =>
    obtain ⟨key, p⟩ := e
    rw [latest?, ← ih]
    simp only [Restore.lookup?, List.reverse_cons, List.find?_append, Option.map_or]
    by_cases hk : key = id
    · simp [hk]
    · simp [hk]

theorem restoreSnippets_eq {names : Processed.Names} (h : ∀ e ∈ names, IsName e.1)
    (document : Text) : restoreSnippets document names = substitute (latest? names) document := by
  have he : Restore.lookup? names = latest? names := funext (lookup?_eq_latest? names)
  cases names with
  | nil => exact (substitute_of_knows_nothing document).symm
  | cons e names =>
    have hk := knowsNames_latest? h
    rw [← he] at hk ⊢
    exact replaceAll_replacement? hk document

/-- Restoring is one walk from the left, in which a paragraph around exactly one name that gives it
up and any other known name give way to their texts, and all else is copied; for the last entry of a
name, and for entries of different names in any order. -/
theorem restoreSnippets_eq_substitute (names : Processed.Names) (hnames : ∀ e ∈ names, IsName e.1)
    (document : Text) :
    restoreSnippets document names = substitute (latest? names) document ∧
      ∀ names' : Processed.Names, names'.Perm names → (names.map Prod.fst).Nodup →
        restoreSnippets document names' = restoreSnippets document names := by
  refine ⟨restoreSnippets_eq hnames document, ?_⟩
  intro names' hp hnd
  rw [restoreSnippets_eq hnames, restoreSnippets_eq fun e he => hnames e (hp.mem_iff.1 he),
    latest?_perm hp hnd]

/-- Two names, one of them entered twice: digits touch it, and white space stands beside it in its
paragraph; the paragraph of the other name stays. Without the first entry no order matters. -/
theorem restoreSnippets_eq_substitute_touching :
    let a := Text.repeated 32 'a'
    let b := Text.repeated 31 '0' ++ ['b']
    let once : Processed.Names := [(b, ⟨"B".toList, false⟩), (a, ⟨"A".toList, true⟩)]
    let names : Processed.Names := (a, ⟨"old".toList, false⟩) :: once
    let document := "cafe".toList ++ b ++ a ++ "<p> ".toList ++ a ++ "\n</p><p>".toList ++ b ++
      "</p>".toList
    (∀ e ∈ names, IsName e.1) ∧
      restoreSnippets document names = "cafeBA".toList ++ "A<p>B</p>".toList ∧
      restoreSnippets document names = substitute (latest? names) document ∧
      (once.map Prod.fst).Nodup ∧
      restoreSnippets document once.reverse = restoreSnippets document once := by
  intro a b once names document
  have hnames : ∀ e ∈ names, IsName e.1 := by decide
  have honce : ∀ e ∈ once, IsName e.1 := by decide
  have hdistinct : (once.map Prod.fst).Nodup := by decide
  exact ⟨hnames, by decide +kernel, (restoreSnippets_eq_substitute names hnames document).1,
    hdistinct, (restoreSnippets_eq_substitute once honce document).2 _ once.reverse_perm hdistinct⟩

end Substitution

end Cloak
