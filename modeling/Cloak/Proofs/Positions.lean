import Cloak.Proofs.Bytes
import Cloak.Proofs.Lines

namespace Cloak

/-- Positions come in the order of their lines, and on one line in that of their columns. -/
def Position.AtOrBefore (p q : Position) : Prop :=
  p.line < q.line ∨ p.line = q.line ∧ p.column ≤ q.column

instance (p q : Position) : Decidable (p.AtOrBefore q) :=
  inferInstanceAs (Decidable (_ ∨ _))

namespace Text

theorem le_line_positionIn (line offset : Nat) (ls : List Text) :
    line ≤ (positionIn line offset ls).line := by
  induction ls generalizing line offset with
  | nil => exact Nat.le_refl line
  | cons l ls ih =>
    cases ls with
    | nil => exact Nat.le_refl line
    | cons k ls =>
      rw [positionIn_cons_cons _ _ _ (List.cons_ne_nil k ls)]
      split
      · exact Nat.le_refl line
      · exact Nat.le_of_succ_le (ih (line + 1) _)

theorem positionIn_mono (line : Nat) {offset offset' : Nat} (h : offset ≤ offset') (ls : List Text) :
    (positionIn line offset ls).AtOrBefore (positionIn line offset' ls) := by
  induction ls generalizing line offset offset' with
  | nil => exact .inr ⟨rfl, h⟩
  | cons l ls ih =>
    cases ls with
    | nil => exact .inr ⟨rfl, h⟩
    | cons k ls =>
      have hne := List.cons_ne_nil k ls
      by_cases hle' : offset' ≤ size l
      · rw [positionIn_of_le _ (Nat.le_trans h hle'), positionIn_of_le _ hle']
        exact .inr ⟨rfl, h⟩
      · rw [positionIn_cons_cons line offset' l hne, if_neg hle']
        by_cases hle : offset ≤ size l
        · rw [positionIn_of_le _ hle]
          exact .inl (le_line_positionIn (line + 1) _ _)
        · rw [positionIn_cons_cons line offset l hne, if_neg hle]
          apply ih
          exact Nat.sub_le_sub_right h _

theorem position_mono (t : Text) {offset offset' : Nat} (h : offset ≤ offset') :
    (t.position offset).AtOrBefore (t.position offset') := by
  apply positionIn_mono
  omega

theorem count_bytes_feed (t : Text) : (bytes t).count 10 = t.count '\n' := by
  induction t with
  | nil => rfl
  | cons c t ih =>
    rw [bytes_cons, List.count_append, ih, List.count_cons, Nat.add_comm]
    congr 1
    by_cases hc : c = '\n'
    · rw [hc]
      rfl
    · rw [if_neg (by simpa using hc)]
      apply List.count_eq_zero.2
      intro hmem
      exact hc (utf8EncodeChar_of_mem hmem (by decide)).2

theorem count_feed_ended {ls : List Text} (h : ∀ l ∈ ls, '\n' ∉ l) :
    (ended ls).count '\n' = ls.length := by
  induction ls with
  | nil => rfl
  | cons l ls ih =>
    obtain ⟨hl, hls⟩ := List.forall_mem_cons.1 h
    rw [ended_cons, List.count_append, List.count_cons_self, ih hls, List.count_eq_zero.2 hl,
      Nat.zero_add, List.length_cons]

theorem getElem?_lineStartsFrom_append (start : Nat) (above : List Text) (l : Text)
    (below : List Text) :
    (lineStartsFrom start (above ++ l :: below))[above.length]? = some (start + size (ended above)) := by
  induction above generalizing start with
  | nil => rfl
  | cons k above ih =>
    rw [List.cons_append, lineStartsFrom, List.length_cons, List.getElem?_cons_succ, ih, ended_cons,
      size_append, size_cons]
    congr 1
    change _ = start + (size k + (1 + _))
    omega

theorem intercalate_feed (l : Text) (ls : List Text) :
    List.intercalate ['\n'] (l :: ls) = l ++ begun ls := by
  induction ls generalizing l with
  | nil => rw [List.intercalate_singleton, begun, List.flatMap_nil, List.append_nil]
  | cons k ls ih =>
    rw [List.intercalate_cons_cons, ih, begun_cons, List.append_assoc]
    rfl

theorem intercalate_feed_append (above : List Text) (l : Text) (below : List Text) :
    List.intercalate ['\n'] (above ++ l :: below) = ended above ++ (l ++ begun below) := by
  induction above with
  | nil => exact intercalate_feed l below
  | cons k above ih =>
    have hne : above ++ l :: below ≠ [] := by simp
    rw [List.cons_append, List.intercalate_cons_of_ne_nil hne, ih, ended_cons]
    simp only [List.append_assoc, List.cons_append, List.nil_append]

theorem exists_rawLines (t : Text) :
    ∃ l ls, t.rawLines = l :: ls ∧ t = l ++ begun ls ∧ ∀ k ∈ l :: ls, '\n' ∉ k := by
  obtain ⟨l, ls, ht, hfeed⟩ := exists_begun t
  have hlines : t.rawLines = l :: ls := by rw [ht, rawLines_append_begun hfeed]
  exact ⟨l, ls, hlines, ht, hfeed⟩

theorem intercalate_rawLines (t : Text) : List.intercalate ['\n'] t.rawLines = t := by
  obtain ⟨l, ls, hlines, ht, -⟩ := exists_rawLines t
  rw [hlines, intercalate_feed]
  exact ht.symm

theorem divides_of_rawLines_eq {t l : Text} {above below : List Text}
    (h : t.rawLines = above ++ l :: below) : Divides t (size (ended above)) above [] l below := by
  obtain ⟨k, ls, hlines, -, hfeed⟩ := exists_rawLines t
  rw [← hlines, h] at hfeed
  constructor
  case text_eq => rw [List.append_nil, ← intercalate_feed_append, ← h, intercalate_rawLines]
  case offset_eq => rw [List.append_nil]
  case no_feed => exact hfeed

theorem isSome_line?_iff {t : Text} {line : Nat} : (t.line? line).isSome ↔ line < t.lineCount := by
  rw [line?, Option.isSome_map, isSome_getElem?, lineCount]

/-- The carriage return that ends a line behind its text, if there is one. -/
def returnBehind (t : Text) (line : Nat) : Text :=
  match t.lineStart? line, t.line? line with
  | some start, some text => if t.bytes[start + text.size]? = some 13 then ['\r'] else []
  | _, _ => []

theorem not_wordAt_return (a : Text) (below : List Text) :
    ¬ WordAt (a ++ begun below) a.size ['\r'] := by
  rintro ⟨a', rest, ht, hsize⟩
  obtain ⟨-, hbelow⟩ := append_inj_of_size_eq ht hsize
  cases below with
  | nil => cases hbelow
  | cons l below => cases (List.cons.inj hbelow).1

namespace Divides

variable {t u v : Text} {n : Nat} {above below : List Text}

theorem count_feed (h : Divides t n above u v below) : (t.bytes.take n).count 10 = above.length := by
  obtain ⟨habove, hline⟩ := List.forall_mem_append.1 h.no_feed
  have hu : '\n' ∉ u := fun hmem => (List.forall_mem_cons.1 hline).1 (List.mem_append_left v hmem)
  have hlength : (bytes (ended above ++ u)).length = n := by
    rw [length_bytes, h.offset_eq]
  rw [h.text_eq, bytes_append, List.take_left' hlength, count_bytes_feed, List.count_append,
    count_feed_ended habove, List.count_eq_zero.2 hu, Nat.add_zero]

theorem lineStart?_eq (h : Divides t n above u v below) :
    t.lineStart? above.length = some (size (ended above)) := by
  rw [lineStart?, h.rawLines_eq, getElem?_lineStartsFrom_append, Nat.zero_add]

theorem slice?_eq (h : Divides t n above u v below) :
    t.slice? (size (ended above)) n = some u := by
  rw [h.text_eq, h.offset_eq, size_append, List.append_assoc]
  exact slice?_append _ u _

theorem append_returnBehind {l : Text} (h : Divides t n above [] l below) :
    (t.line? above.length).getD [] ++ t.returnBehind above.length = l := by
  have hline := h.line?_eq
  have htext := h.text_eq
  have hbyte (k : Text) : t.bytes[size (ended above) + size k]? = some 13 ↔
      t.WordAt (size (ended above) + size k) ['\r'] :=
    getElem?_bytes_eq_some_iff (by decide)
  rw [List.nil_append] at hline
  rw [List.append_nil] at htext
  simp only [returnBehind, hline, h.lineStart?_eq, Option.getD_some]
  rcases dropReturn_cases l with hl | hl
  · rw [hl, if_neg, List.append_nil]
    rw [hbyte, htext, ← size_append, ← List.append_assoc]
    exact not_wordAt_return (ended above ++ l) below
  · rw [if_pos]
    · exact hl.symm
    · apply (hbyte _).2
      refine ⟨ended above ++ dropReturn l, begun below, ?_, (size_append _ _).symm⟩
      rw [htext, List.append_assoc, ← List.append_assoc (dropReturn l), ← hl]

end Divides

/-- What a text tells of an offset: the line, where the line starts, its text, and the parts of the
line before and behind the offset. -/
structure LocatesAt (t : Text) (offset start : Nat) (text : Text) : Prop where
  line_eq : (t.position offset).line = (t.bytes.take offset).count 10
  lineStart?_eq : t.lineStart? (t.position offset).line = some start
  start_add_column : start + (t.position offset).column = offset
  line?_eq : t.line? (t.position offset).line = some text
  slice?_eq : t.slice? start offset = some (t.lineBefore offset)
  before_append_after : (t.position offset).column ≤ text.size →
    t.lineBefore offset ++ t.lineAfter offset = text
  behind_return : text.size < (t.position offset).column →
    t.lineBefore offset = text ++ ['\r'] ∧ t.lineAfter offset = []

theorem Divides.locatesAt {t u v : Text} {n : Nat} {above below : List Text}
    (h : Divides t n above u v below) : t.LocatesAt n (size (ended above)) (dropReturn (u ++ v)) := by
  have hline : (t.position n).line = above.length := by rw [h.position_eq]
  have hcolumn : (t.position n).column = u.size := by rw [h.position_eq]
  have hbefore := h.lineBefore_eq
  constructor
  case line_eq => rw [hline, h.count_feed]
  case lineStart?_eq => rw [hline, h.lineStart?_eq]
  case start_add_column => rw [hcolumn, h.offset_eq, size_append]
  case line?_eq => rw [hline, h.line?_eq]
  case slice?_eq => rw [hbefore, h.slice?_eq]
  case before_append_after =>
    rw [hcolumn, hbefore, h.lineAfter_eq]
    intro hle
    rcases dropReturn_append_cases u v with htext | ⟨rfl, hu⟩
    · exact htext.symm
    · have hsize := congrArg size hu
      have hreturn := Char.utf8Size_pos '\r'
      rw [size_append_singleton] at hsize
      rw [List.append_nil] at hle
      omega
  case behind_return =>
    rw [hcolumn, hbefore, h.lineAfter_eq]
    intro hlt
    rcases dropReturn_append_cases u v with htext | ⟨rfl, hu⟩
    · rw [htext, size_append] at hlt
      omega
    · rw [List.append_nil]
      exact ⟨hu, rfl⟩

theorem map_range_eq {f : Nat → Text} {ls : List Text}
    (h : ∀ above l below, ls = above ++ l :: below → f above.length = l) :
    (List.range ls.length).map f = ls := by
  apply List.ext_getElem
  · rw [List.length_map, List.length_range]
  · intro i _ hi
    have hsplit : ls = ls.take i ++ ls[i] :: ls.drop (i + 1) := by
      rw [List.getElem_cons_drop, List.take_append_drop]
    have hplace := h _ _ _ hsplit
    rw [List.length_take_of_le (Nat.le_of_lt hi)] at hplace
    rw [List.getElem_map, List.getElem_range]
    exact hplace

/-- Every boundary is located on the line that counts the line feeds before it, positions come in the
order of the offsets, and the texts of the lines with the carriage returns behind them, joined by line
feeds, are the text. -/
theorem lines_without_loss (t : Text) :
    (∀ offset, t.isBoundary offset → ∃ start text, t.LocatesAt offset start text) ∧
      (∀ offset offset', offset ≤ offset' →
        (t.position offset).AtOrBefore (t.position offset')) ∧
      (∀ line, (t.line? line).isSome ↔ line < t.lineCount) ∧
      List.intercalate ['\n'] ((List.range t.lineCount).map fun line =>
        (t.line? line).getD [] ++ t.returnBehind line) = t := by
  refine ⟨?_, fun offset offset' hle => t.position_mono hle, fun line => isSome_line?_iff, ?_⟩
  · intro offset hb
    obtain ⟨above, u, v, below, hdivides⟩ := exists_divides hb
    exact ⟨_, _, hdivides.locatesAt⟩
  · have hlines : ((List.range t.lineCount).map fun line =>
        (t.line? line).getD [] ++ t.returnBehind line) = t.rawLines := by
      apply map_range_eq
      intro above l below hraw
      exact (divides_of_rawLines_eq hraw).append_returnBehind
    rw [hlines]
    exact t.intercalate_rawLines

/-- Between a carriage return and its line feed nothing is left of the line; a carriage return at the
end of the text is dropped as well, and one inside a line is not. -/
theorem lines_without_loss_returns :
    let t : Text := "é\r\nb\rc\r".toList
    t.isBoundary 3 ∧ t.position 3 = ⟨0, 3⟩ ∧ t.lineBefore 3 = "é\r".toList ∧ t.lineAfter 3 = [] ∧
      (t.position 3).AtOrBefore ⟨1, 1⟩ ∧
      List.intercalate ['\n'] ["é\r".toList, "b\rc\r".toList] = t := by
  intro t
  obtain ⟨hlocates, hmono, -, hjoined⟩ := lines_without_loss t
  have hboundary : t.isBoundary 3 := by decide
  have hposition : t.position 3 = ⟨0, 3⟩ := by decide
  obtain ⟨start, text, h⟩ := hlocates 3 hboundary
  obtain rfl : "é".toList = text := by
    apply Option.some.inj
    rw [← h.line?_eq]
    decide
  obtain ⟨hbefore, hafter⟩ := h.behind_return (by decide)
  exact ⟨hboundary, hposition, hbefore, hafter, hmono 3 5 (by decide), hjoined⟩

end Text

end Cloak
