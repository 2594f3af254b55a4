import Cloak.Proofs.Overlap

namespace Cloak

namespace Fence

/-- A line of at most three spaces and some text. -/
def IsLine (raw : Text) (indent : Nat) (text : Text) : Prop :=
  indent ≤ 3 ∧ raw = List.replicate indent ' ' ++ text

def IsDollarsLine (raw : Text) (indent : Nat) : Prop :=
  ∃ blanks, IsLine raw indent (dollars ++ blanks) ∧ ∀ c ∈ blanks, isBlank c

def IsMark (c : Char) : Prop :=
  c = '`' ∨ c = '~'

def StartsWithMarks (raw : Text) (mark : Char) (length : Nat) : Prop :=
  ∃ indent rest, IsLine raw indent (List.replicate length mark ++ rest) ∧ rest.head? ≠ some mark ∧
    3 ≤ length ∧ IsMark mark

/-- A line that starts with a run of marks and has no backtick behind a run of backticks. -/
def OpensCode (raw : Text) (mark : Char) (length : Nat) : Prop :=
  ∃ indent rest, IsLine raw indent (List.replicate length mark ++ rest) ∧ rest.head? ≠ some mark ∧
    3 ≤ length ∧ IsMark mark ∧ (mark = '`' → mark ∉ rest)

def ClosesCode (mark : Char) (length : Nat) (raw : Text) : Prop :=
  ∃ indent n blanks, IsLine raw indent (List.replicate n mark ++ blanks) ∧ length ≤ n ∧
    ∀ c ∈ blanks, isBlank c

def linesSize : List Text → Nat
  | [] => 0
  | line :: lines => line.size + 1 + linesSize lines

/-- A reading of lines, the first of which starts at an offset, and the ranges of the math in it.
It depends on which lines open code. -/
inductive Blocks (opens : Text → Char → Nat → Prop) : Nat → List Text → List Span → Prop
  | nil {offset : Nat} : Blocks opens offset [] []
  | other {offset : Nat} {line : Text} {rest : List Text} {fences : List Span}
      (hdollars : ∀ indent, ¬ IsDollarsLine line indent)
      (hopens : ∀ mark length, ¬ opens line mark length)
      (h : Blocks opens (offset + linesSize [line]) rest fences) :
      Blocks opens offset (line :: rest) fences
  | code {offset length : Nat} {mark : Char} {line closing : Text} {inside rest : List Text}
      {fences : List Span} (hopens : opens line mark length)
      (hinside : ∀ l ∈ inside, ¬ ClosesCode mark length l) (hcloses : ClosesCode mark length closing)
      (h : Blocks opens (offset + linesSize (line :: inside ++ [closing])) rest fences) :
      Blocks opens offset (line :: (inside ++ closing :: rest)) fences
  | openCode {offset length : Nat} {mark : Char} {line : Text} {inside : List Text}
      (hopens : opens line mark length) (hinside : ∀ l ∈ inside, ¬ ClosesCode mark length l) :
      Blocks opens offset (line :: inside) []
  | math {offset indent indent' : Nat} {line closing : Text} {inside rest : List Text}
      {fences : List Span} (hopens : IsDollarsLine line indent)
      (hinside : ∀ l ∈ inside, ∀ i, ¬ IsDollarsLine l i) (hcloses : IsDollarsLine closing indent')
      (h : Blocks opens (offset + linesSize (line :: inside ++ [closing])) rest fences) :
      Blocks opens offset (line :: (inside ++ closing :: rest))
        (⟨offset + indent, offset + linesSize (line :: inside) + indent' + dollars.size⟩ :: fences)
  | openMath {offset indent : Nat} {line : Text} {inside : List Text}
      (hopens : IsDollarsLine line indent) (hinside : ∀ l ∈ inside, ∀ i, ¬ IsDollarsLine l i) :
      Blocks opens offset (line :: inside) []

def indentation (raw : Text) : Nat :=
  ((body raw).takeWhile (· == ' ')).length

/-- A line without the spaces before it and the white space at its end. -/
def content (raw : Text) : Text :=
  Text.trimEndBy isBlank ((body raw).drop (indentation raw))

section

variable {raw text : Text} {indent length : Nat} {mark : Char}

theorem isBlank_of_isLineEnd {c : Char} (h : (c == '\n' || c == '\r') = true) : isBlank c := by
  rcases Bool.or_eq_true_iff.1 h with h | h
  · rw [beq_iff_eq.1 h]
    rfl
  · rw [beq_iff_eq.1 h]
    rfl

theorem indentation_content_eq {c : Char} {u : Text}
    (hraw : raw = List.replicate indent ' ' ++ c :: u) (hc : isBlank c = false) :
    indentation raw = indent ∧ content raw = c :: Text.trimEndBy isBlank u := by
  have hend : (c == '\n' || c == '\r') = false := by
    apply Bool.eq_false_iff.2
    intro h
    rw [isBlank_of_isLineEnd h] at hc
    cases hc
  have hspace : (c == ' ') = false := by
    apply beq_eq_false_iff_ne.2
    rintro rfl
    cases hc
  obtain ⟨ending, hu, hending⟩ := Text.exists_trimEndBy_append (fun c => c == '\n' || c == '\r') u
  have hbody : body raw = List.replicate indent ' ' ++
      c :: Text.trimEndBy (fun c => c == '\n' || c == '\r') u := by
    rw [body, hraw, Text.trimEndBy_append_cons hend]
  have hindent : indentation raw = indent := by
    rw [indentation, hbody, Text.takeWhile_append_stop, List.length_replicate]
    · intro d hd
      exact beq_iff_eq.2 (List.eq_of_mem_replicate hd)
    · exact Text.stopsBy_cons_iff.2 hspace
  refine ⟨hindent, ?_⟩
  have hblanks : ∀ c ∈ ending, isBlank c := fun c hc => isBlank_of_isLineEnd (hending c hc)
  have htrim := Text.trimEndBy_append_of_pos hblanks
    (Text.trimEndBy (fun c => c == '\n' || c == '\r') u)
  rw [← hu] at htrim
  rw [content, hindent, hbody, List.drop_left' List.length_replicate, htrim]
  exact Text.trimEndBy_append_cons hc [] _

theorem indentation_content_run {c : Char} {n : Nat} {rest : Text}
    (hraw : raw = List.replicate indent ' ' ++ (List.replicate n c ++ rest)) (hn : 0 < n)
    (hc : isBlank c = false) :
    indentation raw = indent ∧
      content raw = List.replicate n c ++ Text.trimEndBy isBlank rest := by
  obtain ⟨k, rfl⟩ : ∃ k, n = k + 1 := ⟨n - 1, by omega⟩
  have hhead : raw = List.replicate indent ' ' ++ c :: (List.replicate k c ++ rest) := hraw
  obtain ⟨hindent, hcontent⟩ := indentation_content_eq hhead hc
  refine ⟨hindent, ?_⟩
  calc content raw
      = c :: Text.trimEndBy isBlank (List.replicate k c ++ rest) := hcontent
    _ = Text.trimEndBy isBlank (c :: (List.replicate k c ++ rest)) :=
        (Text.trimEndBy_append_cons hc [] _).symm
    _ = Text.trimEndBy isBlank (List.replicate k c ++ c :: rest) := by
        rw [← List.cons_append, ← List.replicate_succ, List.replicate_succ', List.append_assoc,
          List.singleton_append]
    _ = List.replicate k c ++ c :: Text.trimEndBy isBlank rest :=
        Text.trimEndBy_append_cons hc _ rest
    _ = List.replicate (k + 1) c ++ Text.trimEndBy isBlank rest := by
        rw [List.replicate_succ', List.append_assoc, List.singleton_append]

theorem content_run_eq {c : Char} {n : Nat} {blanks : Text}
    (hraw : raw = List.replicate indent ' ' ++ (List.replicate n c ++ blanks)) (hn : 0 < n)
    (hc : isBlank c = false) (hblanks : ∀ d ∈ blanks, isBlank d) :
    indentation raw = indent ∧ content raw = List.replicate n c := by
  obtain ⟨hindent, hcontent⟩ := indentation_content_run hraw hn hc
  have hnil : Text.trimEndBy isBlank blanks = [] := Text.trimEndBy_append_of_pos hblanks []
  rw [hnil, List.append_nil] at hcontent
  exact ⟨hindent, hcontent⟩

theorem eq_replicate_append_content (raw : Text) :
    ∃ blanks, raw = List.replicate (indentation raw) ' ' ++ (content raw ++ blanks) ∧
      ∀ c ∈ blanks, isBlank c := by
  obtain ⟨ending, hraw, hending⟩ := Text.exists_trimEndBy_append (fun c => c == '\n' || c == '\r') raw
  obtain ⟨blanks, hdrop, hblanks⟩ :=
    Text.exists_trimEndBy_append isBlank ((body raw).drop (indentation raw))
  have hspaces : (body raw).takeWhile (· == ' ') = List.replicate (indentation raw) ' ' := by
    apply List.eq_replicate_iff.2
    refine ⟨rfl, ?_⟩
    intro c hc
    exact beq_iff_eq.1 (Text.of_mem_takeWhile (p := (· == ' ')) hc)
  have hbody : body raw = List.replicate (indentation raw) ' ' ++ (content raw ++ blanks) := by
    have htake : (body raw).take (indentation raw) = (body raw).takeWhile (· == ' ') :=
      (List.prefix_iff_eq_take.1 (List.takeWhile_prefix _)).symm
    rw [content, ← hdrop, ← hspaces, ← htake, List.take_append_drop]
  refine ⟨blanks ++ ending, ?_, ?_⟩
  · rw [← List.append_assoc (content raw), ← List.append_assoc, ← hbody]
    exact hraw
  · intro c hc
    rcases List.mem_append.1 hc with hc | hc
    · exact hblanks c hc
    · exact isBlank_of_isLineEnd (hending c hc)

theorem isDollarsLine_iff :
    IsDollarsLine raw indent ↔
      indentation raw = indent ∧ indentation raw ≤ 3 ∧ content raw = dollars := by
  constructor
  · rintro ⟨blanks, ⟨hle, hraw⟩, hblanks⟩
    obtain ⟨rfl, hcontent⟩ := content_run_eq (n := 2) hraw (by decide) (by decide) hblanks
    exact ⟨rfl, hle, hcontent⟩
  · rintro ⟨rfl, hle, hcontent⟩
    obtain ⟨blanks, hraw, hblanks⟩ := eq_replicate_append_content raw
    rw [hcontent] at hraw
    exact ⟨blanks, ⟨hle, hraw⟩, hblanks⟩

theorem IsMark.isBlank_eq (h : IsMark mark) : isBlank mark = false := by
  rcases h with rfl | rfl
  · rfl
  · rfl

theorem IsMark.not_mem_blanks {blanks : Text} (h : IsMark mark) (hblanks : ∀ c ∈ blanks, isBlank c) :
    mark ∉ blanks := by
  intro hmem
  have hblank := hblanks mark hmem
  rw [h.isBlank_eq] at hblank
  cases hblank

theorem codeMark?_eq_some_iff :
    codeMark? text = some (mark, length) ↔
      ∃ rest, text = List.replicate length mark ++ rest ∧ rest.head? ≠ some mark ∧ 3 ≤ length ∧
        IsMark mark := by
  constructor
  · intro h
    unfold codeMark? at h
    split at h
    · cases h
    · rename_i c cs
      simp only at h
      split at h
      · rename_i hif
        obtain ⟨hmark, hlength⟩ := Bool.and_eq_true_iff.1 hif
        cases h
        refine ⟨(mark :: cs).dropWhile (· == mark), ?_, ?_, of_decide_eq_true hlength, ?_⟩
        · have hrun : (mark :: cs).takeWhile (· == mark) =
              List.replicate ((mark :: cs).takeWhile (· == mark)).length mark := by
            apply List.eq_replicate_iff.2
            refine ⟨rfl, ?_⟩
            intro d hd
            exact beq_iff_eq.1 (Text.of_mem_takeWhile (p := (· == mark)) hd)
          rw [← hrun, List.takeWhile_append_dropWhile]
        · intro hhead
          have hstop := Text.stopsBy_dropWhile (· == mark) (mark :: cs) mark hhead
          exact absurd rfl (beq_eq_false_iff_ne.1 hstop)
        · rcases Bool.or_eq_true_iff.1 hmark with h | h
          · exact .inl (of_decide_eq_true h)
          · exact .inr (of_decide_eq_true h)
      · cases h
  · rintro ⟨rest, rfl, hhead, hlength, hmark⟩
    have hrun : (List.replicate length mark ++ rest).takeWhile (· == mark) =
        List.replicate length mark := by
      apply Text.takeWhile_append_stop
      · intro c hc
        exact beq_iff_eq.2 (List.eq_of_mem_replicate hc)
      · intro c hc
        apply beq_eq_false_iff_ne.2
        rintro rfl
        exact hhead hc
    obtain ⟨n, rfl⟩ : ∃ n, length = n + 1 := ⟨length - 1, by omega⟩
    rw [List.replicate_succ, List.cons_append] at hrun ⊢
    have hmark' : (decide (mark = '`') || decide (mark = '~')) = true := by
      rw [Bool.or_eq_true, decide_eq_true_eq, decide_eq_true_eq]
      exact hmark
    unfold codeMark?
    simp only [hrun]
    rw [hmark', List.length_cons, List.length_replicate, decide_eq_true hlength, Bool.and_self,
      if_pos rfl]

theorem startsWithMarks_iff :
    StartsWithMarks raw mark length ↔
      indentation raw ≤ 3 ∧ codeMark? (content raw) = some (mark, length) := by
  rw [codeMark?_eq_some_iff]
  constructor
  · rintro ⟨indent, rest, ⟨hle, hraw⟩, hhead, hlength, hmark⟩
    obtain ⟨rfl, hcontent⟩ := indentation_content_run hraw (by omega) hmark.isBlank_eq
    refine ⟨hle, Text.trimEndBy isBlank rest, hcontent, ?_, hlength, hmark⟩
    intro htrimmed
    obtain ⟨blanks, hrest, -⟩ := Text.exists_trimEndBy_append isBlank rest
    rw [hrest, List.head?_append, htrimmed] at hhead
    exact hhead rfl
  · rintro ⟨hle, rest, hcontent, hhead, hlength, hmark⟩
    obtain ⟨blanks, hraw, hblanks⟩ := eq_replicate_append_content raw
    rw [hcontent, List.append_assoc] at hraw
    refine ⟨indentation raw, rest ++ blanks, ⟨hle, hraw⟩, ?_, hlength, hmark⟩
    cases rest with
    | nil => exact fun hblank => hmark.not_mem_blanks hblanks (List.mem_of_mem_head? hblank)
    | cons c rest => exact hhead

theorem opensCode_iff :
    OpensCode raw mark length ↔
      indentation raw ≤ 3 ∧ codeMark? (content raw) = some (mark, length) ∧
        (mark = '`' → mark ∉ (content raw).drop length) := by
  constructor
  · rintro ⟨indent, rest, ⟨hle, hraw⟩, hhead, hlength, hmark, hrest⟩
    obtain ⟨hle', hcode⟩ :=
      startsWithMarks_iff.1 ⟨indent, rest, ⟨hle, hraw⟩, hhead, hlength, hmark⟩
    obtain ⟨-, hcontent⟩ := indentation_content_run hraw (by omega) hmark.isBlank_eq
    refine ⟨hle', hcode, ?_⟩
    intro htick hmem
    obtain ⟨blanks, hblanks, -⟩ := Text.exists_trimEndBy_append isBlank rest
    rw [hcontent, List.drop_left' List.length_replicate] at hmem
    apply hrest htick
    rw [hblanks]
    exact List.mem_append_left _ hmem
  · rintro ⟨hle, hcode, hrest⟩
    obtain ⟨rest, hcontent, hhead, hlength, hmark⟩ := codeMark?_eq_some_iff.1 hcode
    rw [hcontent, List.drop_left' List.length_replicate] at hrest
    obtain ⟨blanks, hraw, hblanks⟩ := eq_replicate_append_content raw
    rw [hcontent, List.append_assoc] at hraw
    refine ⟨indentation raw, rest ++ blanks, ⟨hle, hraw⟩, ?_, hlength, hmark, ?_⟩
    · cases rest with
      | nil => exact fun hblank => hmark.not_mem_blanks hblanks (List.mem_of_mem_head? hblank)
      | cons c rest => exact hhead
    · intro htick hmem
      rcases List.mem_append.1 hmem with hmem | hmem
      · exact hrest htick hmem
      · exact hmark.not_mem_blanks hblanks hmem

theorem closesCode_iff (hmark : IsMark mark) (hlength : 3 ≤ length) :
    ClosesCode mark length raw ↔
      indentation raw ≤ 3 ∧ ∃ n, length ≤ n ∧ content raw = List.replicate n mark := by
  constructor
  · rintro ⟨indent, n, blanks, ⟨hle, hraw⟩, hn, hblanks⟩
    obtain ⟨rfl, hcontent⟩ := content_run_eq hraw (by omega) hmark.isBlank_eq hblanks
    exact ⟨hle, n, hn, hcontent⟩
  · rintro ⟨hle, n, hn, hcontent⟩
    obtain ⟨blanks, hraw, hblanks⟩ := eq_replicate_append_content raw
    rw [hcontent] at hraw
    exact ⟨indentation raw, n, blanks, ⟨hle, hraw⟩, hn, hblanks⟩

end

section

variable {line : Text} {start length : Nat} {mark : Char}

theorem State.line_of_codeMark? (h : codeMark? line = some (mark, length)) :
    State.line {} start line = ({ code := some (mark, length) }, none) := by
  simp only [State.line, h]
  rfl

theorem State.line_other (hcode : codeMark? line = none) (hdollars : line ≠ dollars) :
    State.line {} start line = ({}, none) := by
  have hif : ¬ isDollars line = true := fun h => hdollars (beq_iff_eq.1 h)
  simp only [State.line, hcode, Option.isNone_none, Bool.true_and, if_neg hif]

theorem State.line_closes {n : Nat} (hmark : IsMark mark) (hlength : 3 ≤ length) (hn : length ≤ n) :
    State.line { code := some (mark, length) } start (List.replicate n mark) = ({}, none) := by
  have hcode : codeMark? (List.replicate n mark) = some (mark, n) :=
    codeMark?_eq_some_iff.2
      ⟨[], (List.append_nil _).symm, (Option.some_ne_none mark).symm, by omega, hmark⟩
  simp only [State.line, hcode, State.codeLine, List.length_replicate, decide_true, Bool.and_true,
    decide_eq_true hn, if_true]

theorem State.line_in_code (h : ¬ ∃ n, length ≤ n ∧ line = List.replicate n mark) :
    State.line { code := some (mark, length) } start line =
      ({ code := some (mark, length) }, none) := by
  cases hcode : codeMark? line with
  | none => simp only [State.line, hcode, Option.isNone_some, Bool.false_and, Bool.false_eq_true,
      if_false]
  | some found =>
    obtain ⟨m, n⟩ := found
    obtain ⟨rest, hline, -⟩ := codeMark?_eq_some_iff.1 hcode
    have hif : ¬ (decide (mark = m) && decide (length ≤ n) && decide (line.length = n)) = true := by
      rw [Bool.and_eq_true, Bool.and_eq_true, decide_eq_true_eq, decide_eq_true_eq,
        decide_eq_true_eq]
      rintro ⟨⟨rfl, hn⟩, hall⟩
      rw [hline, List.length_append, List.length_replicate] at hall
      have hrest : rest = [] := List.length_eq_zero_iff.1 (by omega)
      rw [hrest, List.append_nil] at hline
      exact h ⟨n, hn, hline⟩
    simp only [State.line, hcode, State.codeLine, if_neg hif]

theorem State.line_in_math {opened : Nat} (h : line ≠ dollars) :
    State.line { math := some opened } start line = ({ math := some opened }, none) := by
  have hif : ¬ isDollars line = true := fun hd => h (beq_iff_eq.1 hd)
  simp only [State.line, if_neg hif]

end

theorem linesSize_cons (line : Text) (lines : List Text) :
    linesSize (line :: lines) = line.size + 1 + linesSize lines :=
  rfl

theorem linesSize_concat (lines : List Text) (line : Text) :
    linesSize (lines ++ [line]) = linesSize lines + line.size + 1 := by
  induction lines with
  | nil => simp only [List.nil_append, linesSize, Nat.zero_add, Nat.add_zero]
  | cons l lines ih =>
    rw [List.cons_append, linesSize_cons, linesSize_cons, ih]
    omega

section

variable {s s' : State} {offset : Nat} {raw : Text} {inside rest : List Text}

theorem readLines_step {found : Option Span} (hle : indentation raw ≤ 3)
    (h : s.line (offset + indentation raw) (content raw) = (s', found)) :
    readLines s offset (raw :: rest) =
      found.toList ++ readLines s' (offset + raw.size + 1) rest := by
  have hif : ¬ 3 < ((body raw).takeWhile (· == ' ')).length := Nat.not_lt.2 hle
  have hline : s.line (offset + ((body raw).takeWhile (· == ' ')).length)
      (Text.trimEndBy isBlank ((body raw).drop ((body raw).takeWhile (· == ' ')).length)) =
      (s', found) := h
  simp only [readLines, if_neg hif, hline]

theorem readLines_stay
    (h : indentation raw ≤ 3 → ∀ start, s.line start (content raw) = (s, none)) :
    readLines s offset (raw :: rest) = readLines s (offset + raw.size + 1) rest := by
  by_cases hle : indentation raw ≤ 3
  · exact readLines_step hle (h hle _)
  · have hif : 3 < ((body raw).takeWhile (· == ' ')).length := Nat.not_le.1 hle
    simp only [readLines, if_pos hif]

theorem readLines_append_stay
    (h : ∀ l ∈ inside, indentation l ≤ 3 → ∀ start, s.line start (content l) = (s, none)) :
    readLines s offset (inside ++ rest) = readLines s (offset + linesSize inside) rest := by
  induction inside generalizing offset with
  | nil => rfl
  | cons l inside ih =>
    obtain ⟨hl, hinside⟩ := List.forall_mem_cons.1 h
    rw [List.cons_append, readLines_stay hl, ih hinside, linesSize_cons]
    congr 1
    omega

end

section

variable {offset length indent : Nat} {mark : Char} {line : Text} {inside rest : List Text}

theorem readLines_code (hopens : StartsWithMarks line mark length)
    (hinside : ∀ l ∈ inside, ¬ ClosesCode mark length l) :
    readLines {} offset (line :: (inside ++ rest)) =
      readLines { code := some (mark, length) } (offset + linesSize (line :: inside)) rest := by
  obtain ⟨hle, hcode⟩ := startsWithMarks_iff.1 hopens
  obtain ⟨-, -, -, -, hlength, hmark⟩ := hopens
  have hstay : ∀ l ∈ inside, indentation l ≤ 3 → ∀ start,
      State.line { code := some (mark, length) } start (content l) =
        ({ code := some (mark, length) }, none) := by
    intro l hl hle start
    apply State.line_in_code
    exact fun hrun => hinside l hl ((closesCode_iff hmark hlength).2 ⟨hle, hrun⟩)
  rw [readLines_step hle (State.line_of_codeMark? hcode), Option.toList_none, List.nil_append,
    readLines_append_stay hstay, linesSize_cons]
  congr 1
  omega

theorem readLines_math (hopens : IsDollarsLine line indent)
    (hinside : ∀ l ∈ inside, ∀ i, ¬ IsDollarsLine l i) :
    readLines {} offset (line :: (inside ++ rest)) =
      readLines { math := some (offset + indent) } (offset + linesSize (line :: inside)) rest := by
  obtain ⟨rfl, hle, hdollars⟩ := isDollarsLine_iff.1 hopens
  have hopen : State.line {} (offset + indentation line) (content line) =
      ({ math := some (offset + indentation line) }, none) := by
    rw [hdollars]
    rfl
  have hstay : ∀ l ∈ inside, indentation l ≤ 3 → ∀ start,
      State.line { math := some (offset + indentation line) } start (content l) =
        ({ math := some (offset + indentation line) }, none) := by
    intro l hl hle start
    apply State.line_in_math
    exact fun hdollars => hinside l hl _ (isDollarsLine_iff.2 ⟨rfl, hle, hdollars⟩)
  rw [readLines_step hle hopen, Option.toList_none, List.nil_append, readLines_append_stay hstay,
    linesSize_cons]
  congr 1
  omega

end

/-- The walk over lines finds the math of a reading of them. -/
theorem Blocks.readLines_eq {offset : Nat} {lines : List Text} {fences : List Span}
    (h : Blocks StartsWithMarks offset lines fences) : readLines {} offset lines = fences := by
  induction h with
  | nil => rfl
  | other hdollars hopens h ih =>
    rw [readLines_stay, ← ih]
    · rfl
    · intro hle start
      apply State.line_other
      · cases hcode : codeMark? (content _) with
        | none => rfl
        | some found => exact absurd (startsWithMarks_iff.2 ⟨hle, hcode⟩) (hopens found.1 found.2)
      · exact fun hd => hdollars _ (isDollarsLine_iff.2 ⟨rfl, hle, hd⟩)
  | @code offset length mark line closing inside rest fences hopens hinside hcloses h ih =>
    rw [readLines_code hopens hinside]
    obtain ⟨-, -, -, -, hlength, hmark⟩ := hopens
    obtain ⟨hle, n, hn, hcontent⟩ := (closesCode_iff hmark hlength).1 hcloses
    have hclose : State.line { code := some (mark, length) }
        (offset + linesSize (line :: inside) + indentation closing) (content closing) =
        ({}, none) := by
      rw [hcontent]
      exact State.line_closes hmark hlength hn
    rw [readLines_step hle hclose, Option.toList_none, List.nil_append, ← ih, linesSize_concat,
      ← Nat.add_assoc, ← Nat.add_assoc]
  | @openCode offset length mark line inside hopens hinside =>
    have hread : readLines {} offset (line :: (inside ++ [])) = [] := readLines_code hopens hinside
    rw [List.append_nil] at hread
    exact hread
  | @math offset indent indent' line closing inside rest fences hopens hinside hcloses h ih =>
    obtain ⟨rfl, hle, hdollars⟩ := isDollarsLine_iff.1 hcloses
    have hclose : State.line { math := some (offset + indent) }
        (offset + linesSize (line :: inside) + indentation closing) (content closing) =
        ({}, some ⟨offset + indent, offset + linesSize (line :: inside) + indentation closing +
          dollars.size⟩) := by
      rw [hdollars]
      rfl
    rw [readLines_math hopens hinside, readLines_step hle hclose, Option.toList_some,
      List.singleton_append, ← ih, linesSize_concat, ← Nat.add_assoc, ← Nat.add_assoc]
  | @openMath offset indent line inside hopens hinside =>
    have hread : readLines {} offset (line :: (inside ++ [])) = [] := readLines_math hopens hinside
    rw [List.append_nil] at hread
    exact hread

theorem exists_first (p : Text → Prop) (lines : List Text) :
    (∃ inside l rest, lines = inside ++ l :: rest ∧ (∀ x ∈ inside, ¬ p x) ∧ p l) ∨
      ∀ x ∈ lines, ¬ p x := by
  induction lines with
  | nil => exact .inr (List.forall_mem_nil _)
  | cons l lines ih =>
    by_cases hl : p l
    · exact .inl ⟨[], l, lines, rfl, List.forall_mem_nil _, hl⟩
    · rcases ih with ⟨inside, m, rest, rfl, hinside, hm⟩ | hnone
      · exact .inl ⟨l :: inside, m, rest, rfl, List.forall_mem_cons.2 ⟨hl, hinside⟩, hm⟩
      · exact .inr (List.forall_mem_cons.2 ⟨hl, hnone⟩)

theorem exists_blocks (opens : Text → Char → Nat → Prop) (offset : Nat) (lines : List Text) :
    ∃ fences, Blocks opens offset lines fences := by
  induction hlength : lines.length using Nat.strongRecOn generalizing lines offset with
  | ind length ih =>
    subst hlength
    cases lines with
    | nil => exact ⟨[], .nil⟩
    | cons line lines =>
      have behind {inside rest : List Text} {l : Text} (offset : Nat)
          (h : lines = inside ++ l :: rest) : ∃ fences, Blocks opens offset rest fences := by
        apply ih rest.length _ offset rest rfl
        rw [h, List.length_cons, List.length_append, List.length_cons]
        omega
      by_cases hdollars : ∃ indent, IsDollarsLine line indent
      · obtain ⟨indent, hopens⟩ := hdollars
        rcases exists_first (fun l => ∃ i, IsDollarsLine l i) lines with
          ⟨inside, closing, rest, rfl, hinside, indent', hcloses⟩ | hnone
        · obtain ⟨fences, hrest⟩ := behind (offset + linesSize (line :: inside ++ [closing])) rfl
          exact ⟨_, .math hopens (fun l hl => not_exists.1 (hinside l hl)) hcloses hrest⟩
        · exact ⟨[], .openMath hopens fun l hl => not_exists.1 (hnone l hl)⟩
      · by_cases hcode : ∃ mark length, opens line mark length
        · obtain ⟨mark, length, hopens⟩ := hcode
          rcases exists_first (ClosesCode mark length) lines with
            ⟨inside, closing, rest, rfl, hinside, hcloses⟩ | hnone
          · obtain ⟨fences, hrest⟩ := behind (offset + linesSize (line :: inside ++ [closing])) rfl
            exact ⟨fences, .code hopens hinside hcloses hrest⟩
          · exact ⟨[], .openCode hopens hnone⟩
        · obtain ⟨fences, hrest⟩ := ih lines.length (Nat.lt_succ_self _) _ lines rfl
          refine ⟨fences, .other (not_exists.1 hdollars) ?_ hrest⟩
          exact fun mark length hopens => hcode ⟨mark, length, hopens⟩

theorem Blocks.congr {opens opens' : Text → Char → Nat → Prop} {offset : Nat} {lines : List Text}
    {fences : List Span} (h : Blocks opens offset lines fences)
    (hiff : ∀ line ∈ lines, ∀ mark length, opens line mark length ↔ opens' line mark length) :
    Blocks opens' offset lines fences := by
  induction h with
  | nil => exact .nil
  | other hdollars hopens h ih =>
    obtain ⟨hline, hrest⟩ := List.forall_mem_cons.1 hiff
    refine .other hdollars ?_ (ih hrest)
    exact fun mark length ho => hopens mark length ((hline mark length).2 ho)
  | code hopens hinside hcloses h ih =>
    obtain ⟨hline, hlines⟩ := List.forall_mem_cons.1 hiff
    obtain ⟨-, hclosing⟩ := List.forall_mem_append.1 hlines
    obtain ⟨-, hrest⟩ := List.forall_mem_cons.1 hclosing
    exact .code ((hline _ _).1 hopens) hinside hcloses (ih hrest)
  | openCode hopens hinside =>
    obtain ⟨hline, -⟩ := List.forall_mem_cons.1 hiff
    exact .openCode ((hline _ _).1 hopens) hinside
  | math hopens hinside hcloses h ih =>
    obtain ⟨-, hlines⟩ := List.forall_mem_cons.1 hiff
    obtain ⟨-, hclosing⟩ := List.forall_mem_append.1 hlines
    obtain ⟨-, hrest⟩ := List.forall_mem_cons.1 hclosing
    exact .math hopens hinside hcloses (ih hrest)
  | openMath hopens hinside => exact .openMath hopens hinside

/-- The math fences of a text are the pairs of dollars of the one reading of its lines in which a run
of marks opens code, and follow one another. -/
theorem blocks_iff_eq_mathFences {t : Text} {fences : List Span} :
    Blocks StartsWithMarks 0 t.rawLines fences ↔ fences = mathFences t := by
  constructor
  · intro h
    exact h.readLines_eq.symm
  · rintro rfl
    obtain ⟨fences, h⟩ := exists_blocks StartsWithMarks 0 t.rawLines
    have hfences : mathFences t = fences := h.readLines_eq
    rw [hfences]
    exact h

theorem OpensCode.startsWithMarks {line : Text} {mark : Char} {length : Nat}
    (h : OpensCode line mark length) : StartsWithMarks line mark length := by
  obtain ⟨indent, rest, hline, hhead, hlength, hmark, -⟩ := h
  exact ⟨indent, rest, hline, hhead, hlength, hmark⟩

/-- The math fences of a text are the pairs of dollars of a reading of its lines, and follow one
another. Code opens at each line of at least three marks, so that they are those outside fenced code
where no backtick stands behind such backticks. -/
theorem mathFences_exactly_dollar_pairs (t : Text) :
    (∀ fences, Blocks StartsWithMarks 0 t.rawLines fences ↔ fences = mathFences t) ∧
      ((∀ line ∈ t.rawLines, ∀ mark length,
          StartsWithMarks line mark length → OpensCode line mark length) →
        ∀ fences, Blocks OpensCode 0 t.rawLines fences ↔ fences = mathFences t) ∧
      (∀ f ∈ mathFences t, f.EnclosedBy dollars dollars t) ∧
      (mathFences t).Pairwise fun f g => f.stop ≤ g.start := by
  refine ⟨fun _ => blocks_iff_eq_mathFences, ?_, fun _ hf => enclosedBy_of_mem_mathFences hf, ?_⟩
  · intro hopens fences
    rw [← blocks_iff_eq_mathFences]
    have hiff : ∀ line ∈ t.rawLines, ∀ mark length,
        OpensCode line mark length ↔ StartsWithMarks line mark length :=
      fun line hline mark length => ⟨OpensCode.startsWithMarks, hopens line hline mark length⟩
    constructor
    · exact fun h => h.congr hiff
    · exact fun h => h.congr fun line hline mark length => (hiff line hline mark length).symm
  · apply (consecutive_mathFences t).pairwise_stop_le
    intro f hf
    exact (enclosedBy_of_mem_mathFences hf).fitsIn.start_le

/-- The dollars in fenced code are none. Code between backticks at the head of a line opens no fenced
code, but the walk takes it to do so, and misses the dollars behind it. -/
theorem mathFences_exactly_dollar_pairs_code :
    let fenced : Text := "```\n$$\n```\n  $$ \n\n$$".toList
    let inline : Text := "```x```\n\n$$\n\n$$\n".toList
    (∀ line ∈ fenced.rawLines, ∀ mark length,
        StartsWithMarks line mark length → OpensCode line mark length) ∧
      Blocks OpensCode 0 fenced.rawLines [⟨13, 20⟩] ∧
      Blocks StartsWithMarks 0 inline.rawLines [] ∧ Blocks OpensCode 0 inline.rawLines [⟨9, 15⟩] := by
  intro fenced inline
  have hopens : ∀ line ∈ fenced.rawLines, ∀ mark length,
      StartsWithMarks line mark length → OpensCode line mark length := by
    have hbacktick : ∀ line ∈ fenced.rawLines, ∀ found ∈ codeMark? (content line),
        found.1 = '`' → found.1 ∉ (content line).drop found.2 := by decide
    intro line hline mark length h
    obtain ⟨hle, hcode⟩ := startsWithMarks_iff.1 h
    exact opensCode_iff.2 ⟨hle, hcode, hbacktick line hline _ hcode⟩
  obtain ⟨-, hstrict, -, -⟩ := mathFences_exactly_dollar_pairs fenced
  obtain ⟨hloose, -, -, -⟩ := mathFences_exactly_dollar_pairs inline
  refine ⟨hopens, (hstrict hopens _).2 (by decide), (hloose _).2 (by decide), ?_⟩
  have hdollars (line : Text) (h : content line ≠ dollars) (indent : Nat) :
      ¬ IsDollarsLine line indent := fun hd => h (isDollarsLine_iff.1 hd).2.2
  have hinline : ∀ mark length, ¬ OpensCode "```x```".toList mark length := by
    intro mark length h
    obtain ⟨-, hcode, hbacktick⟩ := opensCode_iff.1 h
    obtain ⟨rfl, rfl⟩ := Prod.mk.inj (Option.some.inj hcode)
    exact hbacktick rfl (by decide)
  have hempty : ∀ mark length, ¬ OpensCode [] mark length := by
    intro mark length h
    obtain ⟨-, hcode, -⟩ := opensCode_iff.1 h
    cases hcode
  have hmath : IsDollarsLine dollars 0 := isDollarsLine_iff.2 (by decide)
  have hinside : ∀ l ∈ [([] : Text)], ∀ i, ¬ IsDollarsLine l i := by
    intro l hl
    exact hdollars l (by rw [List.mem_singleton.1 hl]; decide)
  apply Blocks.other (hdollars _ (by decide)) hinline
  apply Blocks.other (hdollars _ (by decide)) hempty
  exact Blocks.math hmath hinside hmath (Blocks.other (hdollars _ (by decide)) hempty .nil)

end Fence

end Cloak
