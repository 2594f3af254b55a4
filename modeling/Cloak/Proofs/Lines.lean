import Cloak.Proofs.Slice
import Cloak.Text.Lines

namespace Cloak.Text

/-- Each of some lines stands in a text, the first at an offset, and each other one behind a line
feed after the one before it. -/
def LinesAt (t : Text) : Nat → List Text → Prop
  | _, [] => True
  | n, l :: ls => t.WordAt n l ∧ LinesAt t (n + size l + 1) ls

theorem linesAt_rawLines_of_restAt {t rest : Text} {n : Nat} (h : t.RestAt n rest) :
    LinesAt t n (rawLines rest) := by
  induction rest generalizing n with
  | nil => exact ⟨h.wordAt_nil, trivial⟩
  | cons c rest ih =>
    have hlines := ih h.tail
    rw [rawLines]
    split
    · rename_i hc
      rw [hc] at h hlines
      exact ⟨h.wordAt_nil, hlines⟩
    · split
      · exact ⟨h.head, trivial⟩
      · rename_i l ls hl
        rw [hl] at hlines
        obtain ⟨hline, hls⟩ := hlines
        refine ⟨wordAt_cons.2 ⟨h.head, hline⟩, ?_⟩
        rw [size_cons, ← Nat.add_assoc]
        exact hls

theorem linesAt_rawLines (t : Text) : LinesAt t 0 (rawLines t) :=
  linesAt_rawLines_of_restAt t.restAt_zero

/-- A text is a line, or goes on behind its first line feed. -/
theorem rawLines_cases (t : Text) :
    rawLines t = [t] ∨ ∃ l rest, t = l ++ '\n' :: rest ∧ rawLines t = l :: rawLines rest := by
  induction t with
  | nil => exact .inl rfl
  | cons c t ih =>
    rw [rawLines]
    split
    · rename_i hc
      exact .inr ⟨[], t, congrArg (· :: t) hc, rfl⟩
    · rcases ih with ht | ⟨l, rest, ht, hl⟩
      · rw [ht]
        exact .inl rfl
      · rw [hl]
        exact .inr ⟨c :: l, rest, congrArg (c :: ·) ht, rfl⟩

theorem rawLines_ne_nil (t : Text) : rawLines t ≠ [] := by
  rcases rawLines_cases t with h | ⟨l, rest, -, h⟩
  · rw [h]
    exact List.cons_ne_nil _ _
  · rw [h]
    exact List.cons_ne_nil _ _

theorem isBoundary_sub {a t : Text} {n : Nat} (h : isBoundary (a ++ t) n) (hle : a.size ≤ n) :
    t.isBoundary (n - a.size) := by
  obtain ⟨b, c, he, rfl⟩ := isBoundary_iff.1 h
  obtain ⟨m, rfl, rfl⟩ := append_eq_append_of_size_le he hle
  rw [size_append, Nat.add_sub_cancel_left]
  exact isBoundary_iff.2 ⟨m, c, rfl, rfl⟩

theorem isBoundary_of_le {a t : Text} {n : Nat} (h : isBoundary (a ++ t) n) (hle : n ≤ a.size) :
    a.isBoundary n := by
  obtain ⟨b, c, he, rfl⟩ := isBoundary_iff.1 h
  obtain ⟨m, rfl, -⟩ := append_eq_append_of_size_le he.symm hle
  exact isBoundary_iff.2 ⟨b, m, rfl, rfl⟩

theorem positionIn_cons_cons (line offset : Nat) (l : Text) {ls : List Text} (h : ls ≠ []) :
    positionIn line offset (l :: ls) =
      if offset ≤ size l then ⟨line, offset⟩
      else positionIn (line + 1) (offset - (size l + 1)) ls := by
  cases ls with
  | nil => exact absurd rfl h
  | cons l' ls => rfl

theorem isBoundary_positionIn {t : Text} {offset : Nat} (line : Nat) (hb : t.isBoundary offset) :
    line ≤ (positionIn line offset t.rawLines).line ∧
      (t.rawLines.getD ((positionIn line offset t.rawLines).line - line) []).isBoundary
        (positionIn line offset t.rawLines).column := by
  generalize hlines : t.rawLines = lines
  induction lines generalizing t line offset with
  | nil => exact absurd hlines (rawLines_ne_nil t)
  | cons l ls ih =>
    rcases rawLines_cases t with h | ⟨l', rest, ht, h⟩
    · obtain ⟨rfl, rfl⟩ := List.cons.inj (hlines.symm.trans h)
      rw [positionIn, Nat.sub_self]
      exact ⟨Nat.le_refl _, hb⟩
    · obtain ⟨rfl, rfl⟩ := List.cons.inj (hlines.symm.trans h)
      rw [positionIn_cons_cons _ _ _ (rawLines_ne_nil rest)]
      rw [ht] at hb
      split
      · rename_i hle
        rw [Nat.sub_self]
        exact ⟨Nat.le_refl _, isBoundary_of_le hb hle⟩
      · rename_i hlt
        have hfeed : size (l ++ ['\n']) = size l + 1 := size_append_singleton l '\n'
        have hrest : isBoundary rest (offset - (size l + 1)) := by
          rw [← hfeed]
          rw [List.append_cons] at hb
          exact isBoundary_sub hb (by omega)
        obtain ⟨hline, hcolumn⟩ := ih (line + 1) hrest rfl
        generalize positionIn (line + 1) (offset - (size l + 1)) (rawLines rest) = p at *
        obtain ⟨k, hk⟩ : ∃ k, p.line = line + 1 + k := ⟨p.line - (line + 1), by omega⟩
        have hk' : line + 1 + k - line = k + 1 := by omega
        rw [hk, Nat.add_sub_cancel_left] at hcolumn
        rw [hk, hk', List.getD_cons_succ]
        exact ⟨by omega, hcolumn⟩

/-- Lines with a line feed behind each. -/
def ended (ls : List Text) : Text :=
  ls.flatMap fun l => l ++ ['\n']

/-- Lines with a line feed before each. -/
def begun (ls : List Text) : Text :=
  ls.flatMap fun l => '\n' :: l

theorem ended_cons (l : Text) (ls : List Text) : ended (l :: ls) = l ++ '\n' :: ended ls := by
  rw [ended, List.flatMap_cons, List.append_assoc]
  rfl

theorem begun_cons (l : Text) (ls : List Text) : begun (l :: ls) = '\n' :: (l ++ begun ls) :=
  rfl

theorem ended_append (ks ls : List Text) : ended (ks ++ ls) = ended ks ++ ended ls :=
  List.flatMap_append

theorem rawLines_append_feed {l : Text} (h : '\n' ∉ l) (rest : Text) :
    rawLines (l ++ '\n' :: rest) = l :: rawLines rest := by
  induction l with
  | nil => rfl
  | cons c l ih =>
    obtain ⟨hc, hl⟩ := not_or.1 (mt List.mem_cons.2 h)
    rw [List.cons_append, rawLines, if_neg (Ne.symm hc), ih hl]

theorem rawLines_of_not_mem {l : Text} (h : '\n' ∉ l) : rawLines l = [l] := by
  induction l with
  | nil => rfl
  | cons c l ih =>
    obtain ⟨hc, hl⟩ := not_or.1 (mt List.mem_cons.2 h)
    rw [rawLines, if_neg (Ne.symm hc), ih hl]

theorem rawLines_ended_append {ls : List Text} (h : ∀ l ∈ ls, '\n' ∉ l) (rest : Text) :
    rawLines (ended ls ++ rest) = ls ++ rawLines rest := by
  induction ls with
  | nil => rfl
  | cons l ls ih =>
    obtain ⟨hl, hls⟩ := List.forall_mem_cons.1 h
    rw [ended_cons, List.append_assoc, List.cons_append, rawLines_append_feed hl, ih hls]
    rfl

theorem rawLines_append_begun {l : Text} {ls : List Text} (h : ∀ k ∈ l :: ls, '\n' ∉ k) :
    rawLines (l ++ begun ls) = l :: ls := by
  induction ls generalizing l with
  | nil =>
    have hl := (List.forall_mem_cons.1 h).1
    rw [begun, List.flatMap_nil, List.append_nil, rawLines_of_not_mem hl]
  | cons k ls ih =>
    obtain ⟨hl, hls⟩ := List.forall_mem_cons.1 h
    rw [begun_cons, rawLines_append_feed hl, ih hls]

theorem exists_ended (t : Text) :
    ∃ ls u, t = ended ls ++ u ∧ ∀ l ∈ u :: ls, '\n' ∉ l := by
  induction t with
  | nil => exact ⟨[], [], rfl, List.forall_mem_singleton.2 List.not_mem_nil⟩
  | cons c t ih =>
    obtain ⟨ls, u, rfl, h⟩ := ih
    obtain ⟨hu, hls⟩ := List.forall_mem_cons.1 h
    by_cases hc : c = '\n'
    · subst hc
      refine ⟨[] :: ls, u, ?_, ?_⟩
      · rw [ended_cons]
        rfl
      · exact List.forall_mem_cons.2 ⟨hu, List.forall_mem_cons.2 ⟨List.not_mem_nil, hls⟩⟩
    · cases ls with
      | nil =>
        refine ⟨[], c :: u, rfl, List.forall_mem_singleton.2 ?_⟩
        exact mt List.mem_cons.1 (not_or.2 ⟨Ne.symm hc, hu⟩)
      | cons l ls =>
        obtain ⟨hl, hls⟩ := List.forall_mem_cons.1 hls
        refine ⟨(c :: l) :: ls, u, ?_, ?_⟩
        · rw [ended_cons, ended_cons]
          rfl
        · refine List.forall_mem_cons.2 ⟨hu, List.forall_mem_cons.2 ⟨?_, hls⟩⟩
          exact mt List.mem_cons.1 (not_or.2 ⟨Ne.symm hc, hl⟩)

theorem exists_begun (t : Text) :
    ∃ v ls, t = v ++ begun ls ∧ ∀ l ∈ v :: ls, '\n' ∉ l := by
  induction t with
  | nil => exact ⟨[], [], rfl, List.forall_mem_singleton.2 List.not_mem_nil⟩
  | cons c t ih =>
    obtain ⟨v, ls, rfl, h⟩ := ih
    by_cases hc : c = '\n'
    · subst hc
      exact ⟨[], v :: ls, rfl, List.forall_mem_cons.2 ⟨List.not_mem_nil, h⟩⟩
    · obtain ⟨hv, hls⟩ := List.forall_mem_cons.1 h
      refine ⟨c :: v, ls, rfl, List.forall_mem_cons.2 ⟨?_, hls⟩⟩
      exact mt List.mem_cons.1 (not_or.2 ⟨Ne.symm hc, hv⟩)

theorem positionIn_append {ls ms : List Text} (h : ms ≠ []) (line offset : Nat) :
    positionIn line (size (ended ls) + offset) (ls ++ ms) =
      positionIn (line + ls.length) offset ms := by
  induction ls generalizing line with
  | nil => rw [ended, List.flatMap_nil, size_nil, Nat.zero_add]; rfl
  | cons l ls ih =>
    have hfeed : size (ended (l :: ls)) = size l + 1 + size (ended ls) := by
      rw [ended_cons, size_append, size_cons, ← Nat.add_assoc]
      rfl
    have hoff : size (ended (l :: ls)) + offset - (size l + 1) = size (ended ls) + offset := by omega
    rw [List.cons_append, positionIn_cons_cons _ _ _ (by simp [h]), if_neg (by omega), hoff, ih,
      List.length_cons]
    congr 1
    omega

theorem positionIn_of_le (line : Nat) {offset : Nat} {l : Text} (h : offset ≤ size l) (ls : List Text) :
    positionIn line offset (l :: ls) = ⟨line, offset⟩ := by
  cases ls with
  | nil => rfl
  | cons k ls => rw [positionIn_cons_cons _ _ _ (List.cons_ne_nil k ls), if_pos h]

/-- A text is divided at an offset: the lines above, the line before and behind the offset, and the
lines below. -/
structure Divides (t : Text) (n : Nat) (above : List Text) (u v : Text) (below : List Text) :
    Prop where
  text_eq : t = ended above ++ u ++ (v ++ begun below)
  offset_eq : n = size (ended above ++ u)
  no_feed : ∀ l ∈ above ++ (u ++ v) :: below, '\n' ∉ l

theorem exists_divides {t : Text} {n : Nat} (h : t.isBoundary n) :
    ∃ above u v below, Divides t n above u v below := by
  obtain ⟨a, b, rfl, rfl⟩ := isBoundary_iff.1 h
  obtain ⟨above, u, rfl, ha⟩ := exists_ended a
  obtain ⟨v, below, rfl, hb⟩ := exists_begun b
  refine ⟨above, u, v, below, rfl, rfl, ?_⟩
  obtain ⟨hu, habove⟩ := List.forall_mem_cons.1 ha
  obtain ⟨hv, hbelow⟩ := List.forall_mem_cons.1 hb
  refine List.forall_mem_append.2 ⟨habove, List.forall_mem_cons.2 ⟨?_, hbelow⟩⟩
  exact mt List.mem_append.1 (not_or.2 ⟨hu, hv⟩)

theorem dropReturn_cases (l : Text) : dropReturn l = l ∨ l = dropReturn l ++ ['\r'] := by
  fun_induction dropReturn l with
  | case1 => exact .inl rfl
  | case2 => exact .inr rfl
  | case3 c l _ ih =>
    rcases ih with ih | ih
    · exact .inl (congrArg (c :: ·) ih)
    · exact .inr (congrArg (c :: ·) ih)

theorem dropReturn_append {v : Text} (h : v ≠ []) (u : Text) :
    dropReturn (u ++ v) = u ++ dropReturn v := by
  induction u with
  | nil => rfl
  | cons c u ih =>
    have hne : u ++ v ≠ [] := fun hnil => h (List.append_eq_nil_iff.1 hnil).2
    rw [List.cons_append, dropReturn, ih]
    · rfl
    · exact fun _ => hne

theorem dropReturn_append_cases (u v : Text) :
    dropReturn (u ++ v) = u ++ dropReturn v ∨ v = [] ∧ u = dropReturn u ++ ['\r'] := by
  by_cases hv : v = []
  · rcases dropReturn_cases u with hu | hu
    · left
      rw [hv, List.append_nil, hu]
      exact (List.append_nil u).symm
    · exact .inr ⟨hv, hu⟩
  · exact .inl (dropReturn_append hv u)

@[simp] theorem allBlank_dropReturn (l : Text) : (dropReturn l).allBlank = l.allBlank := by
  rcases dropReturn_cases l with h | h
  · rw [h]
  · have hall := congrArg allBlank h
    rw [allBlank, allBlank, List.all_append] at hall
    exact (hall.trans (Bool.and_true _)).symm

theorem size_dropReturn_le (l : Text) : (dropReturn l).size ≤ l.size := by
  rcases dropReturn_cases l with h | h
  · exact Nat.le_of_eq (congrArg size h)
  · have hsize := congrArg size h
    rw [size_append] at hsize
    omega

theorem from?_eq_nil {t rest : Text} {n : Nat} (hle : t.size ≤ n) (h : t.from? n = some rest) :
    rest = [] := by
  obtain ⟨⟨a, rest⟩, hsplit, rfl⟩ := Option.map_eq_some_iff.1 h
  obtain ⟨rfl, rfl⟩ := eq_append_of_splitAt? hsplit
  rw [size_append] at hle
  have hzero : rest.size = 0 := by omega
  exact size_eq_zero_iff.1 hzero

namespace Divides

variable {t u v : Text} {n : Nat} {above below : List Text}

theorem rawLines_eq (h : Divides t n above u v below) : t.rawLines = above ++ (u ++ v) :: below := by
  obtain ⟨habove, hline⟩ := List.forall_mem_append.1 h.no_feed
  rw [h.text_eq, List.append_assoc, ← List.append_assoc u, rawLines_ended_append habove,
    rawLines_append_begun hline]

theorem position_eq (h : Divides t n above u v below) : t.position n = ⟨above.length, u.size⟩ := by
  have hle : n ≤ t.size := by
    rw [h.offset_eq, h.text_eq, size_append _ (v ++ begun below)]
    exact Nat.le_add_right _ _
  have hu : u.size ≤ size (u ++ v) := by
    rw [size_append]
    exact Nat.le_add_right _ _
  rw [position, Nat.min_eq_left hle, h.rawLines_eq, h.offset_eq, size_append,
    positionIn_append (List.cons_ne_nil _ _), positionIn_of_le _ hu, Nat.zero_add]

theorem getElem?_rawLines (h : Divides t n above u v below) :
    t.rawLines[above.length]? = some (u ++ v) := by
  rw [h.rawLines_eq, List.getElem?_append_right (Nat.le_refl _), Nat.sub_self]
  rfl

theorem line?_eq (h : Divides t n above u v below) :
    t.line? above.length = some (dropReturn (u ++ v)) := by
  rw [line?, h.getElem?_rawLines, Option.map_some]

theorem lineBefore_eq (h : Divides t n above u v below) : t.lineBefore n = u := by
  simp only [lineBefore, h.position_eq, List.getD_eq_getElem?_getD, h.getElem?_rawLines,
    Option.getD_some, before?_append]

theorem lineAfter_eq (h : Divides t n above u v below) : t.lineAfter n = dropReturn v := by
  simp only [lineAfter, h.position_eq, h.line?_eq, Option.getD_some]
  cases v with
  | nil =>
    have hle : size (dropReturn (u ++ [])) ≤ u.size := by
      rw [List.append_nil]
      exact size_dropReturn_le u
    cases hrest : from? (dropReturn (u ++ [])) u.size with
    | none => rfl
    | some rest => exact from?_eq_nil hle hrest
  | cons c v => rw [dropReturn_append (List.cons_ne_nil c v), from?_append, Option.getD_some]

theorem allBlank_lineAfter (h : Divides t n above u v below) :
    (t.lineAfter n).allBlank = v.allBlank := by
  rw [h.lineAfter_eq, allBlank_dropReturn]

theorem line?_below (h : Divides t n above u v below) :
    t.line? (above.length + 1) = below.head?.map dropReturn := by
  rw [line?, h.rawLines_eq, List.getElem?_append_right (by omega), Nat.add_sub_cancel_left,
    List.getElem?_cons_succ, List.head?_eq_getElem?]

theorem blank_above (h : Divides t n above u v below) :
    (decide (above.length = 0) || t.isBlankLine (above.length - 1)) =
      above.getLast?.all allBlank := by
  have hlines := h.rawLines_eq
  rcases List.eq_nil_or_concat above with rfl | ⟨ls, l, rfl⟩
  · rfl
  · rw [List.concat_eq_append] at hlines ⊢
    have hline : t.line? ls.length = some (dropReturn l) := by
      rw [line?, hlines, List.append_assoc, List.getElem?_append_right (Nat.le_refl _), Nat.sub_self]
      rfl
    have hne : (ls ++ [l]).length ≠ 0 := by
      rw [List.length_append, List.length_singleton]
      exact Nat.succ_ne_zero _
    rw [decide_eq_false hne, Bool.false_or, List.length_append, List.length_singleton,
      Nat.add_sub_cancel, isBlankLine, hline, List.getLast?_concat, Option.all_some]
    exact allBlank_dropReturn l

end Divides

end Cloak.Text
