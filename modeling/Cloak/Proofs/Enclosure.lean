import Cloak.Node.Expression
import Cloak.Node.Fence
import Cloak.Proofs.Lines
import Cloak.Proofs.Search
import Cloak.Snippet.Delimited

namespace Cloak

/-- A range starts with one word and ends with another one behind it. -/
structure Span.EnclosedBy (opening closing : Text) (s : Span) (t : Text) : Prop where
  opens : t.WordAt s.start opening
  closes : t.WordAt (s.stop - closing.size) closing
  apart : s.start + opening.size + closing.size ≤ s.stop

namespace Span.EnclosedBy

variable {opening closing t : Text} {s : Span}

theorem fitsIn (h : s.EnclosedBy opening closing t) : s.FitsIn t := by
  have hlong := h.apart
  have hstop := h.closes.isBoundary_add
  rw [Nat.sub_add_cancel (by omega)] at hstop
  exact fitsIn_of_isBoundary (by omega) h.opens.isBoundary hstop

theorem fitsIn_inside (h : s.EnclosedBy opening closing t) :
    (⟨s.start + opening.size, s.stop - closing.size⟩ : Span).FitsIn t := by
  have hlong := h.apart
  exact fitsIn_of_isBoundary (by simp only; omega) h.opens.isBoundary_add h.closes.isBoundary

theorem exists_append (h : s.EnclosedBy opening closing t) :
    ∃ before content after, t = before ++ (opening ++ (content ++ (closing ++ after))) ∧
      s.start = before.size ∧ s.stop = before.size + opening.size + content.size + closing.size := by
  obtain ⟨before, rest, hopen, hstart⟩ := h.opens
  obtain ⟨before', after, hclose, hstop⟩ := h.closes
  have hlong := h.apart
  have hsplit : before ++ opening ++ rest = before' ++ (closing ++ after) := by
    rw [← hclose, hopen, List.append_assoc]
  have hle : (before ++ opening).size ≤ before'.size := by
    rw [Text.size_append]
    omega
  obtain ⟨content, rfl, rfl⟩ := Text.append_eq_append_of_size_le hsplit hle
  refine ⟨before, content, after, hopen, hstart, ?_⟩
  rw [Text.size_append, Text.size_append] at hstop
  omega

end Span.EnclosedBy

namespace Text

theorem WordAt.of_append {t a b : Text} {n : Nat} (h : t.WordAt n (a ++ b)) :
    t.WordAt n a ∧ t.WordAt (n + a.size) b := by
  obtain ⟨l, r, rfl, rfl⟩ := h
  refine ⟨⟨l, b ++ r, ?_, rfl⟩, l ++ a, r, ?_, (size_append l a).symm⟩
  · rw [List.append_assoc]
  · rw [List.append_assoc, List.append_assoc]

theorem size_of_forall_eq_space {t : Text} (h : ∀ c ∈ t, (c == ' ') = true) :
    t.size = t.length := by
  induction t with
  | nil => rfl
  | cons c t ih =>
    obtain ⟨hc, ht⟩ := List.forall_mem_cons.1 h
    rw [size_cons, ih ht, beq_iff_eq.1 hc, List.length_cons, Nat.add_comm]
    rfl

end Text

def dollars : Text :=
  ['$', '$']

namespace Fence

/-- The dollars that are open stand in the text that was read. -/
def State.OpenIn (s : State) (t : Text) (reached : Nat) : Prop :=
  ∀ n ∈ s.math, t.WordAt n dollars ∧ n + 2 ≤ reached

theorem State.line_spec {s s' : State} {start : Nat} {line : Text} {found : Option Span}
    (h : s.line start line = (s', found)) :
    (s'.math = s.math ∧ found = none) ∨
      line = dollars ∧
        ((s.math = none ∧ s'.math = some start ∧ found = none) ∨
          ∃ opened, s.math = some opened ∧ s'.math = none ∧ found = some ⟨opened, start + 2⟩) := by
  rw [State.line] at h
  split at h
  · rename_i opened hm
    split at h
    · rename_i hd
      cases h
      exact .inr ⟨beq_iff_eq.1 hd, .inr ⟨opened, hm, rfl, rfl⟩⟩
    · cases h
      exact .inl ⟨rfl, rfl⟩
  · rename_i hm
    split at h
    · cases h
      refine .inl ⟨?_, rfl⟩
      rw [State.codeLine]
      split
      · rfl
      · split
        · rfl
        · rfl
    · split at h
      · rename_i hd
        cases h
        exact .inr ⟨beq_iff_eq.1 (Bool.and_eq_true_iff.1 hd).2, .inl ⟨hm, rfl, rfl⟩⟩
      · cases h
        exact .inl ⟨rfl, rfl⟩

theorem wordAt_of_line {t raw : Text} {offset : Nat} (h : t.WordAt offset raw) :
    let indent := ((body raw).takeWhile (· == ' ')).length
    let line := Text.trimEndBy isBlank ((body raw).drop indent)
    t.WordAt (offset + indent) line ∧ indent + line.size ≤ raw.size := by
  intro indent line
  obtain ⟨ending, hraw, -⟩ := Text.exists_trimEndBy_append (fun c => c == '\n' || c == '\r') raw
  obtain ⟨blanks, hline, -⟩ := Text.exists_trimEndBy_append isBlank ((body raw).drop indent)
  have htake : (body raw).take indent = (body raw).takeWhile (· == ' ') :=
    (List.prefix_iff_eq_take.1 (List.takeWhile_prefix _)).symm
  have hindent : Text.size ((body raw).take indent) = indent := by
    rw [htake]
    refine Text.size_of_forall_eq_space ?_
    intro c hc
    exact Text.of_mem_takeWhile (p := (· == ' ')) hc
  have hsplit : raw = (body raw).take indent ++ (line ++ (blanks ++ ending)) := by
    rw [← List.append_assoc line, ← hline, ← List.append_assoc, List.take_append_drop]
    exact hraw
  rw [hsplit] at h
  have hword := h.of_append.2.of_append.1
  rw [hindent] at hword
  refine ⟨hword, ?_⟩
  rw [hsplit, Text.size_append, Text.size_append, hindent]
  omega

theorem enclosedBy_of_mem_readLines {t : Text} {s : State} {offset : Nat} {lines : List Text}
    (hs : s.OpenIn t offset) (hl : t.LinesAt offset lines) {f : Span}
    (hf : f ∈ readLines s offset lines) : f.EnclosedBy dollars dollars t := by
  induction lines generalizing s offset with
  | nil => cases hf
  | cons raw rest ih =>
    obtain ⟨hraw, hrest⟩ := hl
    obtain ⟨hword, hsize⟩ := wordAt_of_line hraw
    have hstay : s.OpenIn t (offset + raw.size + 1) := by
      intro n hn
      obtain ⟨hat, hle⟩ := hs n hn
      exact ⟨hat, by omega⟩
    rw [readLines] at hf
    simp only at hf
    split at hf
    · exact ih hstay hrest hf
    · generalize hstep : s.line _ _ = step at hf
      obtain ⟨s', found⟩ := step
      rcases State.line_spec hstep with ⟨hmath, rfl⟩ | ⟨hline, hmath⟩
      · rw [State.OpenIn, ← hmath] at hstay
        exact ih hstay hrest hf
      · rw [hline] at hword hsize
        rcases hmath with ⟨-, hopen, rfl⟩ | ⟨opened, hopened, hclosed, rfl⟩
        · refine ih ?_ hrest hf
          intro n hn
          rw [hopen] at hn
          cases hn
          change _ + 2 ≤ _ at hsize
          exact ⟨hword, by omega⟩
        · obtain ⟨hat, hle⟩ := hs opened hopened
          rcases List.mem_cons.1 hf with rfl | hf
          · refine ⟨hat, hword, ?_⟩
            change opened + 2 + 2 ≤ _ + 2
            omega
          · refine ih ?_ hrest hf
            intro n hn
            rw [hclosed] at hn
            cases hn

theorem enclosedBy_of_mem_mathFences {t : Text} {f : Span} (hf : f ∈ mathFences t) :
    f.EnclosedBy dollars dollars t :=
  enclosedBy_of_mem_readLines (fun _ hn => (Option.not_mem_none _ hn).elim) t.linesAt_rawLines hf

end Fence

namespace Expression

theorem closingFrom_eq_some {quote : Option Char} {hidden : Bool} {depth count n : Nat} {t : Text}
    (h : closingFrom quote hidden depth count t = some n) :
    ∃ a b : Text, t = a ++ '\x7d' :: b ∧ n = count + a.size := by
  induction t generalizing quote hidden depth count with
  | nil => cases h
  | cons c t ih =>
    have later {quote' : Option Char} {hidden' : Bool} {depth' : Nat}
        (h : closingFrom quote' hidden' depth' (count + c.utf8Size) t = some n) :
        ∃ a b : Text, c :: t = a ++ '\x7d' :: b ∧ n = count + a.size := by
      obtain ⟨a, b, rfl, rfl⟩ := ih h
      exact ⟨c :: a, b, rfl, by rw [Text.size_cons, Nat.add_assoc]⟩
    unfold closingFrom at h
    simp only at h
    split at h
    · exact later h
    · split at h
      · cases h
      · cases quote with
        | some q =>
          simp only at h
          split at h
          · exact later h
          · exact later h
        | none =>
          simp only at h
          split at h
          · exact later h
          · split at h
            · exact later h
            · split at h
              · rename_i hc
                split at h
                · cases h
                  exact ⟨[], t, congrArg (· :: t) hc, rfl⟩
                · exact later h
              · exact later h

theorem enclosedBy_of_braces? {t rest : Text} {offset : Nat} (hr : t.RestAt offset rest) {s : Span}
    (h : braces? offset rest = some s) : s.EnclosedBy ['\x7b'] ['\x7d'] t := by
  unfold braces? at h
  split at h
  · rename_i cs
    obtain ⟨n, hn, rfl⟩ := Option.map_eq_some_iff.1 h
    obtain ⟨l, r, rfl, rfl⟩ := closingFrom_eq_some hn
    have hclose : t.WordAt (offset + 1 + l.size) ['\x7d'] := hr.tail.drop.head
    refine ⟨hr.head, ?_, ?_⟩
    · rw [Nat.zero_add]
      exact hclose
    · change offset + 1 + 1 ≤ offset + 1 + (0 + l.size) + 1
      omega
  · cases h

theorem enclosedBy_of_mem_scan {t rest : Text} {shields : List Span} {reached offset : Nat}
    {hidden : Bool} (hr : t.RestAt offset rest) {s : Span}
    (h : s ∈ scan shields reached hidden offset rest) :
    s.EnclosedBy ['\x7b'] ['\x7d'] t := by
  induction rest generalizing shields reached hidden offset with
  | nil => cases h
  | cons c rest ih =>
    rw [scan] at h
    split at h
    · exact ih hr.tail h
    · split at h
      · exact ih hr.tail h
      · split at h
        · exact ih hr.tail h
        · split at h
          · exact ih hr.tail h
          · split at h
            · rename_i span hspan
              rcases List.mem_cons.1 h with rfl | h
              · exact enclosedBy_of_braces? hr hspan
              · exact ih hr.tail h
            · exact ih hr.tail h

end Expression

namespace MathDelimiter

def opening : MathDelimiter → Text
  | brackets => ['\\', '[']
  | parentheses => ['\\', '(']

def closing : MathDelimiter → Text
  | brackets => ['\\', ']']
  | parentheses => ['\\', ')']

theorem ofChar?_eq_some {c : Char} {d : MathDelimiter} {opens : Bool}
    (h : ofChar? c = some (d, opens)) :
    ['\\', c] = if opens then d.opening else d.closing := by
  rw [ofChar?] at h
  split at h
  · rename_i hc
    cases h
    rw [hc]
    rfl
  · split at h
    · rename_i hc
      cases h
      rw [hc]
      rfl
    · split at h
      · rename_i hc
        cases h
        rw [hc]
        rfl
      · split at h
        · rename_i hc
          cases h
          rw [hc]
          rfl
        · cases h

theorem size_opening (d : MathDelimiter) : Text.size d.opening = 2 := by
  cases d <;> rfl

theorem size_closing (d : MathDelimiter) : Text.size d.closing = 2 := by
  cases d <;> rfl

theorem restAt_of_ofChar? {t rest : Text} {offset : Nat} {c : Char} {d : MathDelimiter}
    {opens : Bool} (hc : ofChar? c = some (d, opens)) (hr : t.RestAt offset ('\\' :: c :: rest)) :
    t.WordAt offset (if opens then d.opening else d.closing) ∧ t.RestAt (offset + 2) rest := by
  have hword := ofChar?_eq_some hc
  have hsize : Text.size (if opens then d.opening else d.closing) = 2 := by
    split
    · exact d.size_opening
    · exact d.size_closing
  have hr' : t.RestAt offset (['\\', c] ++ rest) := hr
  rw [hword] at hr'
  refine ⟨hr'.wordAt, ?_⟩
  rw [← hsize]
  exact hr'.drop

end MathDelimiter

namespace DelimitedMath

/-- The delimiters that are open stand in the text that was read. -/
def OpenIn (opened : Opened) (t : Text) (reached : Nat) : Prop :=
  ∀ o ∈ opened, t.WordAt o.2 o.1.opening ∧ o.2 + 2 ≤ reached

theorem OpenIn.mono {opened : Opened} {t : Text} {reached reached' : Nat}
    (h : OpenIn opened t reached) (hle : reached ≤ reached') : OpenIn opened t reached' := by
  intro o ho
  obtain ⟨hat, hr⟩ := h o ho
  exact ⟨hat, Nat.le_trans hr hle⟩

theorem openIn_step {opened : Opened} {t : Text} {offset : Nat} {d : MathDelimiter} {opens : Bool}
    (ho : OpenIn opened t offset) (hat : t.WordAt offset (if opens then d.opening else d.closing)) :
    OpenIn (step opened offset d opens).1 t (offset + 2) ∧
      ∀ m ∈ (step opened offset d opens).2,
        m.span.EnclosedBy m.delimiter.opening m.delimiter.closing t := by
  have hlater := ho.mono (Nat.le_add_right offset 2)
  unfold step
  split
  · rename_i hopens
    rw [if_pos hopens] at hat
    refine ⟨List.forall_mem_cons.2 ⟨⟨hat, Nat.le_refl _⟩, hlater⟩, ?_⟩
    intro m hm
    cases hm
  · rename_i hcloses
    rw [if_neg hcloses] at hat
    split
    · rename_i top start rest
      obtain ⟨htop, hrest⟩ := List.forall_mem_cons.1 ho
      split
      · rename_i hd
        subst hd
        refine ⟨(show OpenIn rest t offset from hrest).mono (Nat.le_add_right offset 2), ?_⟩
        intro m hm
        cases hm
        refine ⟨htop.1, ?_, ?_⟩
        · rw [MathDelimiter.size_closing]
          exact hat
        · rw [MathDelimiter.size_closing, MathDelimiter.size_opening]
          exact Nat.add_le_add_right htop.2 2
      · refine ⟨hlater, ?_⟩
        intro m hm
        cases hm
    · refine ⟨hlater, ?_⟩
      intro m hm
      cases hm

theorem enclosedBy_of_mem_pairsFrom {settings : MathSettings} {opened : Opened} {offset : Nat}
    {t rest : Text} (hr : t.RestAt offset rest) (ho : OpenIn opened t offset) {m : DelimitedMath}
    (h : m ∈ pairsFrom settings opened offset rest) :
    m.span.EnclosedBy m.delimiter.opening m.delimiter.closing t := by
  fun_induction pairsFrom settings opened offset rest with
  | case1 opened offset c cs d opens hc _ opened' found hstep ih =>
    obtain ⟨hat, hnext⟩ := MathDelimiter.restAt_of_ofChar? hc hr
    have hs := openIn_step ho hat
    rw [hstep] at hs
    rcases List.mem_append.1 h with h | h
    · exact hs.2 m (Option.mem_toList.1 h)
    · exact ih hnext hs.1 h
  | case2 opened offset c cs d opens hc _ ih =>
    obtain ⟨-, hnext⟩ := MathDelimiter.restAt_of_ofChar? hc hr
    exact ih hnext (ho.mono (Nat.le_add_right _ _)) h
  | case3 opened offset c cs _ ih =>
    refine ih hr.tail.tail (ho.mono ?_) h
    omega
  | case4 opened offset c cs _ ih => exact ih hr.tail (ho.mono (Nat.le_add_right _ _)) h
  | case5 => cases h

theorem enclosedBy_of_mem_pairs {settings : MathSettings} {t : Text} {m : DelimitedMath}
    (h : m ∈ pairs settings t) :
    m.span.EnclosedBy m.delimiter.opening m.delimiter.closing t :=
  enclosedBy_of_mem_pairsFrom t.restAt_zero (fun _ ho => (List.not_mem_nil ho).elim) h

end DelimitedMath

end Cloak
