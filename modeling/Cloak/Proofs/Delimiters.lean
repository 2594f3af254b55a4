import Mathlib.Algebra.GroupWithZero.Nat
import Cloak.Proofs.Bytes
import Cloak.Proofs.Overlap
import Cloak.Proofs.Selection

namespace Cloak

namespace DelimitedMath

/-- What is read from the left: an enabled delimiter, or some bytes that are none. -/
inductive Token where
  | plain (width : Nat)
  | opener (delimiter : MathDelimiter)
  | closer (delimiter : MathDelimiter)

namespace Token

def width : Token → Nat
  | plain n => n
  | opener _ => 2
  | closer _ => 2

/-- The token of a backslash and the byte after it. -/
def ofEscaped (settings : MathSettings) (b : UInt8) : Token :=
  if b = 0x5B && settings.escapedSquareBrackets then opener .brackets
  else if b = 0x5D && settings.escapedSquareBrackets then closer .brackets
  else if b = 0x28 && settings.escapedParentheses then opener .parentheses
  else if b = 0x29 && settings.escapedParentheses then closer .parentheses
  else plain 2

end Token

/-- The tokens of some bytes: two bytes from a backslash on, and else one. -/
def tokens (settings : MathSettings) : List UInt8 → List Token
  | [] => []
  | [_] => [.plain 1]
  | b :: c :: rest =>
    if b = 0x5C then .ofEscaped settings c :: tokens settings rest
    else .plain 1 :: tokens settings (c :: rest)

def width (w : List Token) : Nat :=
  (w.map Token.width).sum

/-- What may stand between two delimiters of a kind: other delimiters only in balanced pairs, apart
from closing ones of another kind. -/
inductive Segment : MathDelimiter → List Token → Prop
  | nil (k : MathDelimiter) : Segment k []
  | plain {k : MathDelimiter} {w : List Token} (hw : Segment k w) (n : Nat) :
      Segment k (w ++ [.plain n])
  | stray {k d : MathDelimiter} {w : List Token} (hw : Segment k w) (hd : d ≠ k) :
      Segment k (w ++ [.closer d])
  | nested {k d : MathDelimiter} {w v : List Token} (hw : Segment k w) (hv : Segment d v) :
      Segment k (w ++ .opener d :: (v ++ [.closer d]))

/-- Some tokens end with a region between two delimiters of one kind. -/
def EndsWith (read : List Token) (m : DelimitedMath) : Prop :=
  ∃ before word, read = before ++ .opener m.delimiter :: (word ++ [.closer m.delimiter]) ∧
    Segment m.delimiter word ∧ m.span = ⟨width before, width read⟩

/-- A region of a document between two delimiters of one kind with balanced ones in between. -/
def IsRegion (settings : MathSettings) (document : Text) (m : DelimitedMath) : Prop :=
  ∃ read rest, tokens settings document.bytes = read ++ rest ∧ EndsWith read m

@[simp] theorem width_nil : width [] = 0 := rfl

@[simp] theorem width_cons (t : Token) (w : List Token) : width (t :: w) = t.width + width w :=
  List.sum_cons

@[simp] theorem width_append (a b : List Token) : width (a ++ b) = width a + width b := by
  rw [width, List.map_append, List.sum_append]
  rfl

def stepToken (opened : Opened) (offset : Nat) : Token → Opened × Option DelimitedMath
  | .plain _ => (opened, none)
  | .opener d => step opened offset d true
  | .closer d => step opened offset d false

def openedAfter (opened : Opened) (offset : Nat) : List Token → Opened
  | [] => opened
  | t :: w => openedAfter (stepToken opened offset t).1 (offset + t.width) w

def closedBy (opened : Opened) (offset : Nat) : List Token → List DelimitedMath
  | [] => []
  | t :: w =>
    (stepToken opened offset t).2.toList ++
      closedBy (stepToken opened offset t).1 (offset + t.width) w

theorem openedAfter_append (opened : Opened) (offset : Nat) (a b : List Token) :
    openedAfter opened offset (a ++ b) =
      openedAfter (openedAfter opened offset a) (offset + width a) b := by
  induction a generalizing opened offset with
  | nil => rfl
  | cons t a ih => rw [List.cons_append, openedAfter, ih, openedAfter, width_cons, Nat.add_assoc]

theorem closedBy_append (opened : Opened) (offset : Nat) (a b : List Token) :
    closedBy opened offset (a ++ b) = closedBy opened offset a ++
      closedBy (openedAfter opened offset a) (offset + width a) b := by
  induction a generalizing opened offset with
  | nil => rfl
  | cons t a ih =>
    rw [List.cons_append, closedBy, ih, closedBy, openedAfter, width_cons, Nat.add_assoc,
      List.append_assoc]

theorem closedBy_plain (opened : Opened) (offset n : Nat) (w : List Token) :
    closedBy opened offset (.plain n :: w) = closedBy opened (offset + n) w :=
  rfl

theorem closedBy_replicate (opened : Opened) (offset n : Nat) (w : List Token) :
    closedBy opened offset (List.replicate n (.plain 1) ++ w) = closedBy opened (offset + n) w := by
  induction n generalizing offset with
  | zero => rfl
  | succ n ih =>
    rw [List.replicate_succ, List.cons_append, closedBy_plain, ih, Nat.add_assoc, Nat.add_comm 1 n]

section

variable {settings : MathSettings}

theorem tokens_cons_of_ne {b : UInt8} (hb : b ≠ 0x5C) (rest : List UInt8) :
    tokens settings (b :: rest) = .plain 1 :: tokens settings rest := by
  cases rest with
  | nil => rfl
  | cons c rest => rw [tokens, if_neg hb]

theorem tokens_append_of_ne {a : List UInt8} (ha : ∀ b ∈ a, b ≠ 0x5C) (rest : List UInt8) :
    tokens settings (a ++ rest) = List.replicate a.length (.plain 1) ++ tokens settings rest := by
  induction a with
  | nil => rfl
  | cons b a ih =>
    obtain ⟨hb, ha⟩ := List.forall_mem_cons.1 ha
    rw [List.cons_append, tokens_cons_of_ne hb, ih ha]
    rfl

theorem tokens_backslash (b : UInt8) (rest : List UInt8) :
    tokens settings (0x5C :: b :: rest) = .ofEscaped settings b :: tokens settings rest :=
  if_pos rfl

end

/-- The token of a backslash and the character after it, without the further bytes of that. -/
def Token.ofChar (settings : MathSettings) (c : Char) : Token :=
  match MathDelimiter.ofChar? c with
  | some (d, opens) =>
    if d.isEnabled settings then (if opens then opener d else closer d) else plain 2
  | none => plain 2

theorem ofEscaped_eq_ofChar (settings : MathSettings) {c : Char} {b : UInt8} {bs : List UInt8}
    (h : String.utf8EncodeChar c = b :: bs) :
    Token.ofEscaped settings b = .ofChar settings c := by
  have differs (n : UInt8) (hn : n < 128) (hc : c ≠ Char.ofNat n.toNat) : b ≠ n := by
    rintro rfl
    exact hc (Text.utf8EncodeChar_of_mem (by rw [h]; exact List.mem_cons_self) hn).2
  by_cases hopen : c = '['
  · subst hopen
    cases h
    cases hs : settings.escapedSquareBrackets <;>
      simp [Token.ofEscaped, Token.ofChar, MathDelimiter.ofChar?, MathDelimiter.isEnabled, hs]
  by_cases hclose : c = ']'
  · subst hclose
    cases h
    cases hs : settings.escapedSquareBrackets <;>
      simp [Token.ofEscaped, Token.ofChar, MathDelimiter.ofChar?, MathDelimiter.isEnabled, hs]
  by_cases hopen' : c = '('
  · subst hopen'
    cases h
    cases hs : settings.escapedParentheses <;>
      simp [Token.ofEscaped, Token.ofChar, MathDelimiter.ofChar?, MathDelimiter.isEnabled, hs]
  by_cases hclose' : c = ')'
  · subst hclose'
    cases h
    cases hs : settings.escapedParentheses <;>
      simp [Token.ofEscaped, Token.ofChar, MathDelimiter.ofChar?, MathDelimiter.isEnabled, hs]
  · simp only [Token.ofEscaped, Token.ofChar, MathDelimiter.ofChar?, if_neg hopen, if_neg hclose,
      if_neg hopen', if_neg hclose', differs 0x5B (by decide) hopen,
      differs 0x5D (by decide) hclose, differs 0x28 (by decide) hopen',
      differs 0x29 (by decide) hclose', decide_false, Bool.false_and, Bool.false_eq_true,
      if_false]

theorem tokens_bytes_backslash (settings : MathSettings) (c : Char) (t : Text) :
    tokens settings (Text.bytes ('\\' :: c :: t)) =
      .ofChar settings c :: (List.replicate (c.utf8Size - 1) (.plain 1) ++
        tokens settings (Text.bytes t)) := by
  have hlength := String.length_utf8EncodeChar c
  have hbackslash : String.utf8EncodeChar '\\' = [0x5C] := rfl
  cases hc : String.utf8EncodeChar c with
  | nil =>
    have hpos := c.utf8Size_pos
    rw [hc, List.length_nil] at hlength
    omega
  | cons b bs =>
    have hplain : ∀ b' ∈ bs, b' ≠ 0x5C := by
      rintro b' hb' rfl
      have hmem : 0x5C ∈ String.utf8EncodeChar c := by
        rw [hc]
        exact List.mem_cons_of_mem b hb'
      rw [(Text.utf8EncodeChar_of_mem hmem (by decide)).1] at hc
      obtain ⟨-, rfl⟩ := List.cons.inj hc
      cases hb'
    rw [hc, List.length_cons] at hlength
    rw [Text.bytes_cons, Text.bytes_cons, hbackslash, hc, List.singleton_append, List.cons_append,
      tokens_backslash, tokens_append_of_ne hplain, ofEscaped_eq_ofChar settings hc, ← hlength,
      Nat.add_sub_cancel]

theorem tokens_bytes_cons (settings : MathSettings) {c : Char} (hc : c ≠ '\\') (t : Text) :
    tokens settings (Text.bytes (c :: t)) =
      List.replicate c.utf8Size (.plain 1) ++ tokens settings (Text.bytes t) := by
  have hplain : ∀ b ∈ String.utf8EncodeChar c, b ≠ 0x5C := by
    rintro b hb rfl
    exact hc (Text.utf8EncodeChar_of_mem hb (by decide)).2
  rw [Text.bytes_cons, tokens_append_of_ne hplain, String.length_utf8EncodeChar]

theorem utf8Size_of_ofChar? {c : Char} {d : MathDelimiter} {opens : Bool}
    (h : MathDelimiter.ofChar? c = some (d, opens)) : c.utf8Size = 1 := by
  have hsize := congrArg Text.size (MathDelimiter.ofChar?_eq_some h)
  have htwo : Text.size (if opens then d.opening else d.closing) = 2 := by
    split
    · exact d.size_opening
    · exact d.size_closing
  rw [htwo, Text.size_cons, Text.size_cons, Text.size_nil] at hsize
  have hbackslash : Char.utf8Size '\\' = 1 := rfl
  omega

theorem Token.width_ofChar (settings : MathSettings) (c : Char) :
    (Token.ofChar settings c).width = 2 := by
  rw [ofChar]
  split
  · split
    · split <;> rfl
    · rfl
  · rfl

theorem closedBy_backslash (settings : MathSettings) (opened : Opened) (offset : Nat) (c : Char)
    (t : Text) :
    closedBy opened offset (tokens settings (Text.bytes ('\\' :: c :: t))) =
      (stepToken opened offset (.ofChar settings c)).2.toList ++
        closedBy (stepToken opened offset (.ofChar settings c)).1 (offset + 1 + c.utf8Size)
          (tokens settings (Text.bytes t)) := by
  have hpos := c.utf8Size_pos
  have hoffset : offset + 2 + (c.utf8Size - 1) = offset + 1 + c.utf8Size := by omega
  rw [tokens_bytes_backslash, closedBy, Token.width_ofChar, closedBy_replicate, hoffset]

theorem pairsFrom_eq_closedBy (settings : MathSettings) (opened : Opened) (offset : Nat)
    (t : Text) : pairsFrom settings opened offset t =
      closedBy opened offset (tokens settings (Text.bytes t)) := by
  fun_induction pairsFrom settings opened offset t with
  | case1 opened offset c cs d opens hc henabled opened' found hstep ih =>
    have htoken : stepToken opened offset (.ofChar settings c) = (opened', found) := by
      rw [← hstep, Token.ofChar, hc]
      simp only [henabled, if_true]
      cases opens <;> rfl
    rw [closedBy_backslash, htoken, utf8Size_of_ofChar? hc, ih]
  | case2 opened offset c cs d opens hc henabled ih =>
    have htoken : stepToken opened offset (.ofChar settings c) = (opened, none) := by
      rw [Token.ofChar, hc]
      simp only [henabled]
      rfl
    rw [closedBy_backslash, htoken, utf8Size_of_ofChar? hc, ih]
    rfl
  | case3 opened offset c cs hc ih =>
    have htoken : stepToken opened offset (.ofChar settings c) = (opened, none) := by
      rw [Token.ofChar, hc]
      rfl
    rw [closedBy_backslash, htoken, ih]
    rfl
  | case4 opened offset c cs hc ih =>
    by_cases hbackslash : c = '\\'
    · -- a backslash at the end of the document
      subst hbackslash
      cases cs with
      | nil => rfl
      | cons d cs => exact absurd rfl (hc d cs rfl)
    · rw [tokens_bytes_cons settings hbackslash, closedBy_replicate, ih]
  | case5 => rfl

/-- Every kind of open delimiters stands in the tokens that were read, a segment before the next. -/
def Stacked : List Token → Opened → Prop
  | _, [] => True
  | read, (k, start) :: opened =>
    ∃ before word, read = before ++ .opener k :: word ∧ Segment k word ∧ start = width before ∧
      Stacked before opened

theorem Stacked.start_lt {read : List Token} {opened : Opened} (h : Stacked read opened) :
    ∀ o ∈ opened, o.2 < width read := by
  induction opened generalizing read with
  | nil => exact List.forall_mem_nil _
  | cons o opened ih =>
    obtain ⟨before, word, rfl, -, hstart, hrest⟩ := h
    have hlt : width before < width (before ++ .opener o.1 :: word) := by
      rw [width_append, width_cons, Token.width]
      omega
    refine List.forall_mem_cons.2 ⟨hstart ▸ hlt, ?_⟩
    intro p hp
    exact Nat.lt_trans (ih hrest p hp) hlt

theorem Stacked.append {read piece : List Token} {opened : Opened} (h : Stacked read opened)
    (hpiece : ∀ k w, Segment k w → k ∈ opened.head?.map Prod.fst → Segment k (w ++ piece)) :
    Stacked (read ++ piece) opened := by
  cases opened with
  | nil => trivial
  | cons o opened =>
    obtain ⟨before, word, rfl, hword, hstart, hrest⟩ := h
    refine ⟨before, word ++ piece, ?_, hpiece o.1 word hword rfl, hstart, hrest⟩
    rw [List.append_assoc, List.cons_append]

/-- What one token does: the open delimiters stay stacked, and a pair that is closed is a region
that begins behind all that are still open. -/
theorem Stacked.step {read : List Token} {opened : Opened} (h : Stacked read opened) (t : Token) :
    Stacked (read ++ [t]) (stepToken opened (width read) t).1 ∧
      ∀ m ∈ (stepToken opened (width read) t).2, EndsWith (read ++ [t]) m ∧
        ∀ o ∈ (stepToken opened (width read) t).1, o.2 < m.span.start := by
  cases t with
  | plain n =>
    refine ⟨h.append fun k w hw _ => hw.plain n, ?_⟩
    intro m hm
    cases hm
  | opener d =>
    refine ⟨⟨read, [], rfl, .nil d, rfl, h⟩, ?_⟩
    intro m hm
    cases hm
  | closer d =>
    cases opened with
    | nil =>
      refine ⟨trivial, ?_⟩
      intro m hm
      cases hm
    | cons o opened =>
      obtain ⟨k, start⟩ := o
      by_cases hk : k = d
      · subst hk
        have hstep : stepToken ((k, start) :: opened) (width read) (.closer k) =
            (opened, some ⟨k, ⟨start, width read + 2⟩⟩) := if_pos rfl
        obtain ⟨before, word, rfl, hword, rfl, hrest⟩ := h
        rw [hstep]
        have hread : before ++ .opener k :: word ++ [.closer k] =
            before ++ .opener k :: (word ++ [.closer k]) := by
          rw [List.append_assoc, List.cons_append]
        rw [hread]
        refine ⟨hrest.append fun k' w hw _ => hw.nested hword, ?_⟩
        intro m hm
        cases hm
        refine ⟨⟨before, word, rfl, hword, ?_⟩, hrest.start_lt⟩
        rw [← hread, width_append (before ++ .opener k :: word)]
        rfl
      · have hstep : stepToken ((k, start) :: opened) (width read) (.closer d) =
            ((k, start) :: opened, none) := if_neg hk
        rw [hstep]
        refine ⟨h.append fun k' w hw hk' => hw.stray ?_, ?_⟩
        · cases hk'
          exact Ne.symm hk
        · intro m hm
          cases hm

theorem width_append_singleton (read : List Token) (t : Token) :
    width (read ++ [t]) = width read + t.width := by
  rw [width_append, width_cons, width_nil, Nat.add_zero]

theorem Stacked.exists_endsWith {read rest : List Token} {opened : Opened}
    (h : Stacked read opened) {m : DelimitedMath} (hm : m ∈ closedBy opened (width read) rest) :
    ∃ read' rest', read ++ rest = read' ++ rest' ∧ EndsWith read' m := by
  induction rest generalizing read opened with
  | nil => cases hm
  | cons t rest ih =>
    obtain ⟨hstacked, hfound⟩ := h.step t
    have hread : read ++ t :: rest = read ++ [t] ++ rest := by
      rw [List.append_assoc, List.singleton_append]
    rw [closedBy, ← width_append_singleton] at hm
    rw [hread]
    rcases List.mem_append.1 hm with hm | hm
    · exact ⟨read ++ [t], rest, rfl, (hfound m (Option.mem_toList.1 hm)).1⟩
    · exact ih hstacked hm

theorem mem_stepToken (opened : Opened) (offset : Nat) (t : Token) :
    (∀ o ∈ (stepToken opened offset t).1, o ∈ opened ∨ o.2 = offset) ∧
      ∀ m ∈ (stepToken opened offset t).2,
        offset < m.span.stop ∧ ∃ o ∈ opened, o.2 = m.span.start := by
  have stays : (∀ o ∈ (opened, (none : Option DelimitedMath)).1, o ∈ opened ∨ o.2 = offset) ∧
      ∀ m ∈ (opened, (none : Option DelimitedMath)).2,
        offset < m.span.stop ∧ ∃ o ∈ opened, o.2 = m.span.start :=
    ⟨fun o ho => .inl ho, fun m hm => nomatch hm⟩
  cases t with
  | plain n => exact stays
  | opener d =>
    refine ⟨?_, fun m hm => nomatch hm⟩
    intro o ho
    rcases List.mem_cons.1 ho with rfl | ho
    · exact .inr rfl
    · exact .inl ho
  | closer d =>
    cases opened with
    | nil => exact stays
    | cons o opened =>
      by_cases hd : o.1 = d
      · have hstep : stepToken (o :: opened) offset (.closer d) =
            (opened, some ⟨d, ⟨o.2, offset + 2⟩⟩) := if_pos hd
        rw [hstep]
        refine ⟨fun p hp => .inl (List.mem_cons_of_mem o hp), ?_⟩
        intro m hm
        cases hm
        exact ⟨Nat.lt_add_of_pos_right Nat.two_pos, o, List.mem_cons_self, rfl⟩
      · have hstep : stepToken (o :: opened) offset (.closer d) = (o :: opened, none) := if_neg hd
        rw [hstep]
        exact stays

theorem start_of_mem_closedBy {opened : Opened} {offset : Nat} {w : List Token} {m : DelimitedMath}
    (h : m ∈ closedBy opened offset w) :
    offset < m.span.stop ∧ (offset ≤ m.span.start ∨ ∃ o ∈ opened, o.2 = m.span.start) := by
  induction w generalizing opened offset with
  | nil => cases h
  | cons t w ih =>
    obtain ⟨hopened, hfound⟩ := mem_stepToken opened offset t
    rcases List.mem_append.1 h with h | h
    · obtain ⟨hlt, ho⟩ := hfound m (Option.mem_toList.1 h)
      exact ⟨hlt, .inr ho⟩
    · obtain ⟨hlt, hstart⟩ := ih h
      refine ⟨Nat.lt_of_le_of_lt (Nat.le_add_right _ _) hlt, ?_⟩
      rcases hstart with hle | ⟨o, ho, he⟩
      · exact .inl (Nat.le_trans (Nat.le_add_right _ _) hle)
      · rcases hopened o ho with ho | ho
        · exact .inr ⟨o, ho, he⟩
        · exact .inl (Nat.le_of_eq (ho.symm.trans he))

theorem Stacked.pairwise_closedBy {read : List Token} {opened : Opened} (h : Stacked read opened)
    (rest : List Token) :
    (closedBy opened (width read) rest).Pairwise fun a b =>
      a.span.stop < b.span.stop ∧ (a.span.stop ≤ b.span.start ∨ b.span.start < a.span.start) := by
  induction rest generalizing read opened with
  | nil => exact .nil
  | cons t rest ih =>
    obtain ⟨hstacked, hfound⟩ := h.step t
    have hrest := ih hstacked
    rw [closedBy, ← width_append_singleton]
    refine List.pairwise_append.2 ⟨?_, hrest, ?_⟩
    · cases (stepToken opened (width read) t).2 with
      | none => exact .nil
      | some m => exact List.pairwise_singleton _ m
    · intro a ha b hb
      obtain ⟨⟨before, word, -, -, hspan⟩, hstart⟩ := hfound a (Option.mem_toList.1 ha)
      have hstop : a.span.stop = width (read ++ [t]) := by rw [hspan]
      obtain ⟨hlt, hb⟩ := start_of_mem_closedBy hb
      rw [hstop]
      refine ⟨hlt, ?_⟩
      rcases hb with hle | ⟨o, ho, he⟩
      · exact .inl hle
      · right
        rw [← he]
        exact hstart o ho

theorem Segment.openedAfter_eq {k : MathDelimiter} {w : List Token} (h : Segment k w)
    (start offset : Nat) (opened : Opened) :
    openedAfter ((k, start) :: opened) offset w = (k, start) :: opened := by
  induction h generalizing start offset opened with
  | nil => rfl
  | plain _ n ih =>
    rw [openedAfter_append, ih]
    rfl
  | stray _ hd ih =>
    rw [openedAfter_append, ih]
    exact congrArg Prod.fst (if_neg (Ne.symm hd))
  | @nested k d w v _ _ ihw ihv =>
    have hopen (n : Nat) : openedAfter ((k, start) :: opened) n (.opener d :: (v ++ [.closer d])) =
        openedAfter ((d, n) :: (k, start) :: opened) (n + 2) (v ++ [.closer d]) := rfl
    rw [openedAfter_append, ihw, hopen, openedAfter_append, ihv]
    exact congrArg Prod.fst (if_pos rfl)

theorem EndsWith.mem_closedBy {read : List Token} {m : DelimitedMath} (h : EndsWith read m)
    (opened : Opened) : m ∈ closedBy opened 0 read := by
  obtain ⟨before, word, rfl, hword, hspan⟩ := h
  have hopen (o : Opened) (n : Nat) :
      closedBy o n (.opener m.delimiter :: (word ++ [.closer m.delimiter])) =
        closedBy ((m.delimiter, n) :: o) (n + 2) (word ++ [.closer m.delimiter]) := rfl
  have hclose (o : Opened) (start n : Nat) :
      closedBy ((m.delimiter, start) :: o) n [.closer m.delimiter] =
        [⟨m.delimiter, ⟨start, n + 2⟩⟩] := by
    have hstep : stepToken ((m.delimiter, start) :: o) n (.closer m.delimiter) =
        (o, some ⟨m.delimiter, ⟨start, n + 2⟩⟩) := if_pos rfl
    rw [closedBy, hstep]
    rfl
  have hstop : 0 + width before + 2 + width word + 2 =
      width (before ++ .opener m.delimiter :: (word ++ [.closer m.delimiter])) := by
    rw [width_append, width_cons, width_append_singleton, Token.width, Token.width]
    omega
  have hm : m = ⟨m.delimiter, ⟨0 + width before, 0 + width before + 2 + width word + 2⟩⟩ := by
    rw [hstop, Nat.zero_add, ← hspan]
  rw [closedBy_append, hopen, closedBy_append, hword.openedAfter_eq, hclose, ← hm]
  exact List.mem_append_right _ (List.mem_append_right _ List.mem_cons_self)

/-- The scan closes exactly the regions of the grammar. -/
theorem mem_pairs_iff {settings : MathSettings} {document : Text} {m : DelimitedMath} :
    m ∈ pairs settings document ↔ IsRegion settings document m := by
  rw [pairs, pairsFrom_eq_closedBy]
  constructor
  · intro h
    have hstart : Stacked [] [] := trivial
    exact hstart.exists_endsWith h
  · rintro ⟨read, rest, hsplit, hends⟩
    rw [hsplit, closedBy_append]
    exact List.mem_append_left _ (hends.mem_closedBy [])

theorem pairwise_pairs (settings : MathSettings) (document : Text) :
    (pairs settings document).Pairwise fun a b =>
      a.span.stop < b.span.stop ∧ (a.span.stop ≤ b.span.start ∨ b.span.start < a.span.start) := by
  have hstart : Stacked [] [] := trivial
  rw [pairs, pairsFrom_eq_closedBy]
  exact hstart.pairwise_closedBy _

theorem start_lt_stop_of_mem_pairs {settings : MathSettings} {document : Text} {m : DelimitedMath}
    (h : m ∈ pairs settings document) : m.span.start < m.span.stop := by
  have hapart := (enclosedBy_of_mem_pairs h).apart
  rw [MathDelimiter.size_opening, MathDelimiter.size_closing] at hapart
  omega

theorem nested_of_mem_pairs {settings : MathSettings} {document : Text} :
    ∀ a ∈ pairs settings document, ∀ b ∈ pairs settings document, a.span.Nested b.span := by
  have : Std.Symm fun a b : DelimitedMath => a.span.Nested b.span := ⟨fun _ _ hab => hab.symm⟩
  refine List.Pairwise.forall_of_forall (fun a _ => Span.Nested.refl a.span)
    ((pairwise_pairs settings document).imp ?_)
  rintro a b ⟨hstop, hstart | hstart⟩
  · exact Span.nested_of_stop_le hstart
  · right
    right
    simp only [Span.contains, Bool.and_eq_true, decide_eq_true_eq]
    omega

theorem eq_of_span_eq {settings : MathSettings} {document : Text} :
    ∀ a ∈ pairs settings document, ∀ b ∈ pairs settings document, a.span = b.span → a = b := by
  have : Std.Symm fun a b : DelimitedMath => a.span = b.span → a = b :=
    ⟨fun _ _ hab h => (hab h.symm).symm⟩
  refine List.Pairwise.forall_of_forall (fun a _ _ => rfl)
    ((pairwise_pairs settings document).imp ?_)
  rintro a b ⟨hstop, -⟩ he
  rw [he] at hstop
  exact absurd hstop (Nat.lt_irrefl _)

end DelimitedMath

/-- Of ranges that do not overlap in part a sweep keeps those that no other one contains. -/
theorem mem_outermost_iff_of_nested {span : α → Span} {items : List α}
    (hne : ∀ a ∈ items, (span a).start < (span a).stop)
    (hnested : ∀ a ∈ items, ∀ b ∈ items, (span a).Nested (span b))
    (hinj : ∀ a ∈ items, ∀ b ∈ items, span a = span b → a = b) {a : α} :
    a ∈ outermost span items ↔
      a ∈ items ∧ ∀ b ∈ items, (span b).contains (span a) → b = a := by
  -- what hides the start of a range hides all of it
  have covers {b : α} (hb : b ∈ items) :
      ∃ k ∈ outermost span items, (span k).contains (span b) := by
    obtain ⟨k, hk, hstart, hlt, hstop⟩ := outermost_covers hb (hne b hb)
    refine ⟨k, hk, ?_⟩
    have hkb := hnested k (mem_of_mem_outermost hk) b hb
    have hb' := hne b hb
    simp only [Span.Nested, Span.Apart, Span.contains, Bool.and_eq_true, decide_eq_true_eq]
      at hkb ⊢
    omega
  have hle : ∀ b ∈ outermost span items, (span b).start ≤ (span b).stop :=
    fun b hb => Nat.le_of_lt (hne b (mem_of_mem_outermost hb))
  have hconsecutive := outermost_consecutive span items
  constructor
  · intro ha
    have ha' := mem_of_mem_outermost ha
    refine ⟨ha', ?_⟩
    intro b hb hba
    obtain ⟨k, hk, hkb⟩ := covers hb
    simp only [Span.contains, Bool.and_eq_true, decide_eq_true_eq] at hba hkb
    have hlt := hne a ha'
    have hk' := hne k (mem_of_mem_outermost hk)
    have hstart : (span k).start = (span a).start := by
      rcases Nat.lt_or_ge (span k).start (span a).start with h | h
      · have hstop := hconsecutive.stop_le hle hk ha h
        omega
      · omega
    obtain rfl := hconsecutive.eq_of_start_eq hle hk ha hstart hk' hlt
    refine hinj b hb k ha' (Span.ext ?_ ?_)
    · omega
    · omega
  · rintro ⟨ha, hmax⟩
    obtain ⟨k, hk, hka⟩ := covers ha
    rw [← hmax k (mem_of_mem_outermost hk) hka]
    exact hk

namespace Text

/-- A text and what is left without one white space character, or one line ending of two, at its
start. -/
inductive TrimsStart : Text → Text → Prop
  | ending (t : Text) : TrimsStart ('\r' :: '\n' :: t) t
  | blank {c : Char} {t : Text} (hc : isBlank c) (hne : ¬ ['\r', '\n'] <+: c :: t) :
      TrimsStart (c :: t) t
  | none {t : Text} (h : StopsBy isBlank t) : TrimsStart t t

/-- A text and what is left without one white space character, or one line ending of two, at its
end. -/
inductive TrimsEnd : Text → Text → Prop
  | ending (t : Text) : TrimsEnd (t ++ ['\r', '\n']) t
  | blank {c : Char} {t : Text} (hc : isBlank c) (hne : ¬ ['\r', '\n'] <:+ t ++ [c]) :
      TrimsEnd (t ++ [c]) t
  | none {t : Text} (h : ∀ c ∈ t.getLast?, isBlank c = false) : TrimsEnd t t

theorem trimsStart_trimOneStart (t : Text) : TrimsStart t t.trimOneStart := by
  fun_cases trimOneStart t with
  | case1 t => exact .ending t
  | case2 c t hne hc =>
    refine .blank hc ?_
    rintro ⟨u, hu⟩
    cases hu
    exact hne u rfl rfl
  | case3 c t hne hc => exact .none (stopsBy_cons_iff.2 (Bool.eq_false_iff.2 hc))
  | case4 => exact .none (stopsBy_nil isBlank)

theorem TrimsEnd.cons {t u : Text} (h : TrimsEnd t u) {c : Char} (hne : t ≠ [])
    (hending : c :: t ≠ ['\r', '\n']) : TrimsEnd (c :: t) (c :: u) := by
  cases h with
  | ending => exact .ending (c :: u)
  | @blank d _ hd hne' =>
    refine @TrimsEnd.blank d (c :: u) hd ?_
    intro hs
    rcases List.suffix_cons_iff.1 hs with h | h
    · exact hending h.symm
    · exact hne' h
  | none h =>
    refine .none ?_
    cases t with
    | nil => exact absurd rfl hne
    | cons d t => rwa [List.getLast?_cons_cons]

theorem trimsEnd_trimOneEnd (t : Text) : TrimsEnd t t.trimOneEnd := by
  fun_induction trimOneEnd t with
  | case1 => exact .none fun c hc => nomatch hc
  | case2 => exact .ending []
  | case3 c hc =>
    refine @TrimsEnd.blank c [] hc ?_
    intro hs
    have hlength : 2 ≤ 1 := hs.length_le
    exact absurd hlength (by decide)
  | case4 c hc =>
    refine .none ?_
    rintro d ⟨⟩
    exact Bool.eq_false_iff.2 hc
  | case5 c t hending hne ih =>
    refine ih.cons hne ?_
    intro h
    obtain ⟨hc, ht⟩ := List.cons.inj h
    exact hending hc ht

end Text

namespace DelimitedMath

theorem exists_content {settings : MathSettings} {document : Text} {m : DelimitedMath}
    (h : IsRegion settings document m) :
    ∃ before content after trimmed inner,
      document = before ++ (m.delimiter.opening ++ (content ++ (m.delimiter.closing ++ after))) ∧
        m.span = ⟨before.size, before.size + 2 + content.size + 2⟩ ∧
        content.TrimsStart trimmed ∧ trimmed.TrimsEnd inner ∧
        (snippet document m).processable =
          some ⟨inner, .math (m.delimiter != .brackets)⟩ := by
  obtain ⟨before, content, after, hd, hstart, hstop⟩ :=
    (enclosedBy_of_mem_pairs (mem_pairs_iff.2 h)).exists_append
  rw [MathDelimiter.size_opening, MathDelimiter.size_closing] at hstop
  have hslice : document.slice (m.span.start + 2) (m.span.stop - 2) = content := by
    have hopen : m.span.start + 2 = Text.size (before ++ m.delimiter.opening) := by
      rw [Text.size_append, MathDelimiter.size_opening, hstart]
    have hclose : m.span.stop - 2 =
        Text.size (before ++ m.delimiter.opening) + content.size := by
      rw [← hopen]
      omega
    rw [Text.slice, hd, hopen, hclose, ← List.append_assoc, Text.slice?_append, Option.getD_some]
  refine ⟨before, content, after, _, _, hd, Span.ext hstart hstop,
    content.trimsStart_trimOneStart, Text.trimsEnd_trimOneEnd _, ?_⟩
  rw [snippet, hslice]
  rfl

/-- The snippets of math between delimiters stand for exactly the outermost regions, in ascending
order. No two regions overlap in part, so that none is lost. -/
theorem snippets_outermost_regions (settings : MathSettings) (document : Text) :
    (∃ regions : List DelimitedMath, snippets document settings = regions.map (snippet document) ∧
      regions.Pairwise (fun a b => a.span.stop ≤ b.span.start) ∧
      ∀ m, m ∈ regions ↔ IsRegion settings document m ∧
        ∀ m', IsRegion settings document m' → m'.span.contains m.span → m' = m) ∧
    (∀ m m', IsRegion settings document m → IsRegion settings document m' →
      m.span.Nested m'.span) ∧
    ∀ m, IsRegion settings document m → (snippet document m).span = m.span ∧
      ∃ before content after trimmed inner,
        document = before ++ (m.delimiter.opening ++ (content ++ (m.delimiter.closing ++ after))) ∧
          m.span = ⟨before.size, before.size + 2 + content.size + 2⟩ ∧
          content.TrimsStart trimmed ∧ trimmed.TrimsEnd inner ∧
          (snippet document m).processable =
            some ⟨inner, .math (m.delimiter != .brackets)⟩ := by
  have hne : ∀ m ∈ pairs settings document, m.span.start < m.span.stop :=
    fun m => start_lt_stop_of_mem_pairs
  refine ⟨⟨outermost span (pairs settings document), rfl, ?_, ?_⟩, ?_, ?_⟩
  · apply (outermost_consecutive span _).pairwise_stop_le
    intro m hm
    exact Nat.le_of_lt (hne m (mem_of_mem_outermost hm))
  · intro m
    rw [mem_outermost_iff_of_nested hne nested_of_mem_pairs eq_of_span_eq]
    simp only [mem_pairs_iff]
  · intro m m' hm hm'
    exact nested_of_mem_pairs m (mem_pairs_iff.2 hm) m' (mem_pairs_iff.2 hm')
  · intro m hm
    exact ⟨rfl, exists_content hm⟩

/-- A closing delimiter of another kind does not end a region, and one that is never closed begins
none. -/
example : pairs {} "\\(a\\[b\\)c\\]".toList = [⟨.brackets, ⟨3, 11⟩⟩] := by decide

end DelimitedMath

end Cloak
