import Cloak.Span

namespace Cloak

namespace Text

theorem size_pos {t : Text} (h : t ≠ []) : 0 < t.size :=
  Nat.pos_of_ne_zero fun hz => h (size_eq_zero_iff.1 hz)

theorem append_eq_append_of_size_le {a b a' b' : Text} (h : a ++ b = a' ++ b')
    (hle : a.size ≤ a'.size) : ∃ m, a' = a ++ m ∧ b = m ++ b' := by
  rcases List.append_eq_append_iff.1 h with ⟨m, ha, hb⟩ | ⟨m, ha, hb⟩
  · exact ⟨m, ha, hb⟩
  · rw [ha, size_append] at hle
    have hm : m = [] := size_eq_zero_iff.1 (by omega)
    subst hm
    rw [List.append_nil] at ha
    exact ⟨[], by rw [ha, List.append_nil], hb.symm⟩

theorem append_inj_of_size_eq {a b a' b' : Text} (h : a ++ b = a' ++ b') (hs : a.size = a'.size) :
    a = a' ∧ b = b' := by
  obtain ⟨m, rfl, rfl⟩ := append_eq_append_of_size_le h (Nat.le_of_eq hs)
  rw [size_append] at hs
  have hm : m = [] := size_eq_zero_iff.1 (by omega)
  subst hm
  exact ⟨(List.append_nil a).symm, rfl⟩

theorem isBoundary_iff {t : Text} {n : Nat} :
    t.isBoundary n ↔ ∃ a b, t = a ++ b ∧ n = a.size := by
  rw [isBoundary, Option.isSome_iff_exists]
  constructor
  · rintro ⟨⟨a, b⟩, h⟩
    exact ⟨a, b, splitAt?_eq_some_iff.1 h⟩
  · rintro ⟨a, b, h⟩
    exact ⟨(a, b), splitAt?_eq_some_iff.2 h⟩

theorem isBoundary_zero (t : Text) : t.isBoundary 0 :=
  isBoundary_iff.2 ⟨[], t, rfl, rfl⟩

theorem exists_slice? {t : Text} {start stop : Nat} (hle : start ≤ stop)
    (hstart : t.isBoundary start) (hstop : t.isBoundary stop) :
    ∃ b, t.slice? start stop = some b := by
  obtain ⟨a, b, rfl, rfl⟩ := isBoundary_iff.1 hstart
  obtain ⟨a', b', h, rfl⟩ := isBoundary_iff.1 hstop
  obtain ⟨m, rfl, rfl⟩ := append_eq_append_of_size_le h hle
  exact ⟨m, slice?_eq_some_iff.2 ⟨a, b', rfl, rfl, size_append a m⟩⟩

theorem size_append_singleton (a : Text) (c : Char) : size (a ++ [c]) = size a + c.utf8Size := by
  rw [size_append, size_cons, size_nil, Nat.add_zero]

theorem slice?_within (a m c : Text) {i j : Nat} (hj : j ≤ m.size) :
    slice? (a ++ (m ++ c)) (a.size + i) (a.size + j) = m.slice? i j := by
  apply Option.ext
  intro b
  rw [slice?_eq_some_iff, slice?_eq_some_iff]
  constructor
  · rintro ⟨p, q, he, hi, hstop⟩
    obtain ⟨p', rfl, he'⟩ := append_eq_append_of_size_le he (by omega)
    rw [size_append] at hi hstop
    rw [← List.append_assoc] at he'
    obtain ⟨q', rfl, -⟩ := append_eq_append_of_size_le he'.symm (by
      rw [size_append]
      omega)
    exact ⟨p', q', List.append_assoc p' b q', by omega, by omega⟩
  · rintro ⟨p, q, rfl, rfl, rfl⟩
    refine ⟨a ++ p, q ++ c, ?_, ?_, ?_⟩
    · simp only [List.append_assoc]
    · rw [size_append]
    · rw [size_append, Nat.add_assoc]

/-- A word stands at a byte offset of a text. -/
def WordAt (t : Text) (n : Nat) (word : Text) : Prop :=
  ∃ a b, t = a ++ (word ++ b) ∧ n = a.size

theorem WordAt.isBoundary {t word : Text} {n : Nat} (h : WordAt t n word) : t.isBoundary n := by
  obtain ⟨a, b, rfl, rfl⟩ := h
  exact isBoundary_iff.2 ⟨a, word ++ b, rfl, rfl⟩

theorem WordAt.isBoundary_add {t word : Text} {n : Nat} (h : WordAt t n word) :
    t.isBoundary (n + size word) := by
  obtain ⟨a, b, rfl, rfl⟩ := h
  refine isBoundary_iff.2 ⟨a ++ word, b, ?_, (size_append a word).symm⟩
  exact (List.append_assoc a word b).symm

theorem wordAt_cons {t word : Text} {n : Nat} {c : Char} :
    WordAt t n (c :: word) ↔ WordAt t n [c] ∧ WordAt t (n + c.utf8Size) word := by
  constructor
  · rintro ⟨a, b, rfl, rfl⟩
    refine ⟨⟨a, word ++ b, rfl, rfl⟩, a ++ [c], b, List.append_cons a c _, ?_⟩
    exact (size_append_singleton a c).symm
  · rintro ⟨⟨a, b, rfl, rfl⟩, a', b', h, hsize⟩
    have hle : (a ++ [c]).size = a'.size := (size_append_singleton a c).trans hsize
    rw [← List.append_assoc] at h
    obtain ⟨rfl, rfl⟩ := append_inj_of_size_eq h hle
    exact ⟨a, b', rfl, rfl⟩

theorem WordAt.char_eq {t : Text} {n : Nat} {c c' : Char} (h : t.WordAt n [c])
    (h' : t.WordAt n [c']) : c = c' := by
  obtain ⟨a, b, rfl, rfl⟩ := h
  obtain ⟨a', b', heq, hsize⟩ := h'
  obtain ⟨-, hrest⟩ := append_inj_of_size_eq heq hsize
  exact (List.cons.inj hrest).1

/-- What is left of a text from a byte offset on. -/
def RestAt (t : Text) (n : Nat) (rest : Text) : Prop :=
  ∃ a, t = a ++ rest ∧ n = a.size

theorem restAt_zero (t : Text) : RestAt t 0 t :=
  ⟨[], rfl, rfl⟩

theorem RestAt.drop {t word rest : Text} {n : Nat} (h : RestAt t n (word ++ rest)) :
    RestAt t (n + size word) rest := by
  obtain ⟨a, rfl, rfl⟩ := h
  exact ⟨a ++ word, (List.append_assoc a word rest).symm, (size_append a word).symm⟩

theorem RestAt.tail {t rest : Text} {n : Nat} {c : Char} (h : RestAt t n (c :: rest)) :
    RestAt t (n + c.utf8Size) rest := by
  have hword : RestAt t n ([c] ++ rest) := h
  exact hword.drop

theorem RestAt.isBoundary_add {t rest : Text} {n k : Nat} (h : RestAt t n rest)
    (hk : rest.isBoundary k) : t.isBoundary (n + k) := by
  obtain ⟨a, rfl, rfl⟩ := h
  obtain ⟨b, c, rfl, rfl⟩ := isBoundary_iff.1 hk
  exact isBoundary_iff.2 ⟨a ++ b, c, (List.append_assoc a b c).symm, (size_append a b).symm⟩

theorem RestAt.wordAt {t word rest : Text} {n : Nat} (h : RestAt t n (word ++ rest)) :
    WordAt t n word := by
  obtain ⟨a, rfl, rfl⟩ := h
  exact ⟨a, rest, rfl, rfl⟩

theorem RestAt.head {t rest : Text} {n : Nat} {c : Char} (h : RestAt t n (c :: rest)) :
    WordAt t n [c] := by
  have hword : RestAt t n ([c] ++ rest) := h
  exact hword.wordAt

theorem RestAt.wordAt_nil {t rest : Text} {n : Nat} (h : RestAt t n rest) : WordAt t n [] := by
  have hword : RestAt t n ([] ++ rest) := h
  exact hword.wordAt

end Text

namespace Span

/-- The range is in bounds and on character boundaries. -/
def FitsIn (s : Span) (document : Text) : Prop :=
  ∃ t, s.text? document = some t

instance (s : Span) (document : Text) : Decidable (s.FitsIn document) :=
  decidable_of_iff ((s.text? document).isSome = true) Option.isSome_iff_exists

theorem text_eq_of_text? {s : Span} {document t : Text} (h : s.text? document = some t) :
    s.text document = t := by
  rw [text, Text.slice, ← text?, h, Option.getD_some]

theorem FitsIn.text?_eq {s : Span} {document : Text} (h : s.FitsIn document) :
    s.text? document = some (s.text document) := by
  obtain ⟨t, ht⟩ := h
  rw [ht, text_eq_of_text? ht]

/-- A range that fits divides the document into what is before, inside and behind it. -/
theorem FitsIn.exists_append {s : Span} {document : Text} (h : s.FitsIn document) :
    ∃ a c, document = a ++ (s.text document ++ c) ∧ s.start = a.size ∧
      s.stop = a.size + (s.text document).size :=
  Text.slice?_eq_some_iff.1 h.text?_eq

theorem slice?_eq_of_text? {s : Span} {t t' w : Text} (h : s.text? t = some w)
    (h' : s.text? t' = some w) {start stop : Nat} (hstart : s.start ≤ start)
    (hstop : stop ≤ s.stop) : t.slice? start stop = t'.slice? start stop := by
  by_cases hle : start ≤ stop
  · obtain ⟨a, c, rfl, ha, hw⟩ := Text.slice?_eq_some_iff.1 h
    obtain ⟨a', c', rfl, ha', -⟩ := Text.slice?_eq_some_iff.1 h'
    obtain ⟨i, rfl⟩ := Nat.exists_eq_add_of_le (ha ▸ hstart)
    obtain ⟨j, rfl⟩ := Nat.exists_eq_add_of_le (Nat.le_trans (ha ▸ hstart) hle)
    have hj : j ≤ w.size := by omega
    rw [Text.slice?_within a w c hj, ha.symm.trans ha', Text.slice?_within a' w c' hj]
  · rw [Text.slice?, Text.slice?, if_neg hle, if_neg hle]

theorem FitsIn.start_le {s : Span} {document : Text} (h : s.FitsIn document) :
    s.start ≤ s.stop := by
  obtain ⟨a, c, -, hstart, hstop⟩ := h.exists_append
  omega

theorem FitsIn.isBoundary_start {s : Span} {document : Text} (h : s.FitsIn document) :
    document.isBoundary s.start := by
  obtain ⟨a, c, hd, hstart, -⟩ := h.exists_append
  exact Text.isBoundary_iff.2 ⟨a, _, hd, hstart⟩

theorem FitsIn.isBoundary_stop {s : Span} {document : Text} (h : s.FitsIn document) :
    document.isBoundary s.stop := by
  obtain ⟨a, c, hd, -, hstop⟩ := h.exists_append
  refine Text.isBoundary_iff.2 ⟨a ++ s.text document, c, ?_, ?_⟩
  · rw [List.append_assoc]
    exact hd
  · rw [Text.size_append]
    exact hstop

theorem fitsIn_of_isBoundary {s : Span} {document : Text} (hle : s.start ≤ s.stop)
    (hstart : document.isBoundary s.start) (hstop : document.isBoundary s.stop) :
    s.FitsIn document :=
  Text.exists_slice? hle hstart hstop

end Span

end Cloak
