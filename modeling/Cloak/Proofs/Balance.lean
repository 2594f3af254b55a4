import Cloak.Proofs.Enclosure

namespace Cloak.Expression

def StartsBlankLine (t : Text) : Prop :=
  ∃ blanks rest, t = blanks ++ '\n' :: rest ∧ ∀ c ∈ blanks, isAsciiBlank c

theorem blankLineAhead_iff {t : Text} : blankLineAhead t ↔ StartsBlankLine t := by
  rw [blankLineAhead, beq_iff_eq]
  constructor
  · intro h
    have ht := List.takeWhile_append_dropWhile (p := fun c => isAsciiBlank c && c != '\n') (l := t)
    cases hd : t.dropWhile fun c => isAsciiBlank c && c != '\n' with
    | nil =>
      rw [hd] at h
      cases h
    | cons c rest =>
      rw [hd] at h ht
      cases h
      refine ⟨_, rest, ht.symm, ?_⟩
      intro c hc
      exact (Bool.and_eq_true_iff.1 (Text.of_mem_takeWhile hc)).1
  · rintro ⟨blanks, rest, rfl, hblanks⟩
    induction blanks with
    | nil => rfl
    | cons c blanks ih =>
      obtain ⟨hc, hblanks⟩ := List.forall_mem_cons.1 hblanks
      by_cases hfeed : c = '\n'
      · rw [hfeed]
        rfl
      · have hskip : (isAsciiBlank c && c != '\n') = true :=
          Bool.and_eq_true_iff.2 ⟨hc, bne_iff_ne.2 hfeed⟩
        rw [List.cons_append, List.dropWhile_cons, if_pos hskip]
        exact ih hblanks

theorem startsBlankLine_append_cons {t rest : Text} {c : Char} (hc : isAsciiBlank c = false) :
    StartsBlankLine (t ++ c :: rest) ↔ StartsBlankLine t := by
  have hne : c ≠ '\n' := by
    rintro rfl
    exact absurd hc (by decide)
  constructor
  · rintro ⟨blanks, behind, h, hblanks⟩
    rcases List.append_eq_append_iff.1 h with ⟨m, rfl, hm⟩ | ⟨m, rfl, hm⟩
    · cases m with
      | nil => exact absurd (List.cons.inj hm).1 hne
      | cons d m =>
        obtain ⟨rfl, -⟩ := List.cons.inj hm
        have hblank := hblanks c (List.mem_append_right t List.mem_cons_self)
        rw [hc] at hblank
        cases hblank
    · cases m with
      | nil => exact absurd (List.cons.inj hm).1.symm hne
      | cons d m =>
        obtain ⟨rfl, -⟩ := List.cons.inj hm
        exact ⟨blanks, m, rfl, hblanks⟩
  · rintro ⟨blanks, behind, rfl, hblanks⟩
    exact ⟨blanks, behind ++ c :: rest, List.append_assoc _ _ _, hblanks⟩

/-- A character of a word, and whether a backslash in a string skips it. -/
structure Letter where
  char : Char
  skipped : Bool
deriving DecidableEq, Repr

def chars (w : List Letter) : Text :=
  w.map Letter.char

@[simp] theorem chars_nil : chars [] = [] := rfl

@[simp] theorem chars_cons (c : Char) (skipped : Bool) (w : List Letter) :
    chars (⟨c, skipped⟩ :: w) = c :: chars w :=
  rfl

@[simp] theorem chars_append (v w : List Letter) : chars (v ++ w) = chars v ++ chars w :=
  List.map_append

def IsQuote (c : Char) : Prop :=
  c = '"' ∨ c = '\'' ∨ c = '`'

instance (c : Char) : Decidable (IsQuote c) :=
  inferInstanceAs (Decidable (_ ∨ _))

/-- What follows a quote, up to the same quote when no backslash skips it. At first the character
ahead may be one that is skipped. -/
inductive IsString (q : Char) : Bool → List Letter → Prop
  | close : IsString q false [⟨q, false⟩]
  | backslash {w : List Letter} (h : IsString q true w) : IsString q false (⟨'\\', false⟩ :: w)
  | skipped (c : Char) {w : List Letter} (h : IsString q false w) : IsString q true (⟨c, true⟩ :: w)
  | other {c : Char} {w : List Letter} (hq : c ≠ q) (hc : c ≠ '\\') (h : IsString q false w) :
      IsString q false (⟨c, false⟩ :: w)

/-- What stands between balanced braces: strings, balanced braces and other characters. -/
inductive IsContent : List Letter → Prop
  | nil : IsContent []
  | other {c : Char} {w : List Letter} (hq : ¬ IsQuote c) (hopen : c ≠ '\x7b') (hclose : c ≠ '\x7d')
      (h : IsContent w) : IsContent (⟨c, false⟩ :: w)
  | string {q : Char} {s w : List Letter} (hq : IsQuote q) (hs : IsString q false s)
      (h : IsContent w) : IsContent (⟨q, false⟩ :: (s ++ w))
  | braces {v w : List Letter} (hv : IsContent v) (h : IsContent w) :
      IsContent (⟨'\x7b', false⟩ :: (v ++ ⟨'\x7d', false⟩ :: w))

/-- No line feed of a word that some text follows stands before a blank line, but a skipped one. -/
def NoBlankLine (rest : Text) (w : List Letter) : Prop :=
  ∀ a b, w = a ++ ⟨'\n', false⟩ :: b → ¬ StartsBlankLine (chars b ++ rest)

/-- A word of balanced braces, with no blank line but behind a skipped line feed. -/
def IsBraces (w : List Letter) : Prop :=
  NoBlankLine [] w ∧
    ∃ content, IsContent content ∧ w = ⟨'\x7b', false⟩ :: (content ++ [⟨'\x7d', false⟩])

def IsBalanced (t : Text) : Prop :=
  ∃ w, IsBraces w ∧ chars w = t

section

variable {rest : Text} {c : Char} {skipped : Bool} {v w : List Letter}

theorem noBlankLine_nil : NoBlankLine rest [] := by
  intro a b h
  cases a <;> cases h

theorem noBlankLine_cons :
    NoBlankLine rest (⟨c, skipped⟩ :: w) ↔
      (c = '\n' → skipped = false → ¬ StartsBlankLine (chars w ++ rest)) ∧ NoBlankLine rest w := by
  constructor
  · intro h
    refine ⟨?_, fun a b hw => h (⟨c, skipped⟩ :: a) b (congrArg (⟨c, skipped⟩ :: ·) hw)⟩
    rintro rfl rfl
    exact h [] w rfl
  · rintro ⟨hc, hw⟩ a b h
    cases a with
    | nil =>
      cases h
      exact hc rfl rfl
    | cons d a => exact hw a b (List.cons.inj h).2

theorem noBlankLine_cons_of_ne (hc : c ≠ '\n') :
    NoBlankLine rest (⟨c, skipped⟩ :: w) ↔ NoBlankLine rest w := by
  rw [noBlankLine_cons, and_iff_right]
  exact fun h => absurd h hc

theorem noBlankLine_cons_skipped :
    NoBlankLine rest (⟨c, true⟩ :: w) ↔ NoBlankLine rest w := by
  rw [noBlankLine_cons, and_iff_right]
  exact fun _ h => Bool.noConfusion h

theorem noBlankLine_append :
    NoBlankLine rest (v ++ w) ↔ NoBlankLine (chars w ++ rest) v ∧ NoBlankLine rest w := by
  induction v with
  | nil => exact (and_iff_right noBlankLine_nil).symm
  | cons l v ih =>
    obtain ⟨c, skipped⟩ := l
    rw [List.cons_append, noBlankLine_cons, noBlankLine_cons, ih, chars_append, List.append_assoc,
      and_assoc]

theorem noBlankLine_close {rest rest' : Text} :
    NoBlankLine ('\x7d' :: rest) w ↔ NoBlankLine ('\x7d' :: rest') w := by
  have hc : isAsciiBlank '\x7d' = false := by decide
  simp only [NoBlankLine, startsBlankLine_append_cons hc]

end

theorem IsQuote.ne {q c : Char} (hq : IsQuote q) (hc : ¬ IsQuote c) : q ≠ c := by
  rintro rfl
  exact hc hq

section

variable {depth count : Nat} {c q : Char} {t : Text}

theorem closingFrom_skipped {quote : Option Char} :
    closingFrom quote true depth count (c :: t) =
      closingFrom quote false depth (count + c.utf8Size) t :=
  rfl

theorem closingFrom_blankLine {quote : Option Char} (h : StartsBlankLine t) :
    closingFrom quote false depth count ('\n' :: t) = none := by
  unfold closingFrom
  simp only [Bool.false_eq_true, if_false, decide_true, Bool.true_and, blankLineAhead_iff.2 h,
    if_true]

theorem not_startsBlankLine_of_closingFrom {quote : Option Char} {n : Nat}
    (h : closingFrom quote false depth count (c :: t) = some n) :
    c = '\n' → ¬ StartsBlankLine t := by
  rintro rfl hblank
  rw [closingFrom_blankLine hblank] at h
  cases h

theorem not_blankLineAhead (h : c = '\n' → ¬ StartsBlankLine t) :
    ¬ (decide (c = '\n') && blankLineAhead t) = true := by
  rw [Bool.and_eq_true, decide_eq_true_eq, blankLineAhead_iff]
  rintro ⟨hc, ht⟩
  exact h hc ht

theorem closingFrom_string (h : c = '\n' → ¬ StartsBlankLine t) :
    closingFrom (some q) false depth count (c :: t) =
      if c = '\\' then closingFrom (some q) true depth (count + c.utf8Size) t
      else closingFrom (if c = q then none else some q) false depth (count + c.utf8Size) t := by
  rw [closingFrom, if_neg Bool.false_ne_true, if_neg (not_blankLineAhead h)]

theorem closingFrom_quote (hc : IsQuote c) :
    closingFrom none false depth count (c :: t) =
      closingFrom (some c) false depth (count + c.utf8Size) t := by
  rcases hc with rfl | rfl | rfl <;> rfl

theorem closingFrom_open :
    closingFrom none false depth count ('\x7b' :: t) =
      closingFrom none false (depth + 1) (count + 1) t :=
  rfl

theorem closingFrom_close_succ :
    closingFrom none false (depth + 1) count ('\x7d' :: t) =
      closingFrom none false depth (count + 1) t :=
  rfl

theorem closingFrom_other (hq : ¬ IsQuote c) (hopen : c ≠ '\x7b') (hclose : c ≠ '\x7d')
    (h : c = '\n' → ¬ StartsBlankLine t) :
    closingFrom none false depth count (c :: t) =
      closingFrom none false depth (count + c.utf8Size) t := by
  have hquote : ¬ (decide (c = '"') || decide (c = '\'') || decide (c = '`')) = true := by
    rw [Bool.or_eq_true, Bool.or_eq_true, decide_eq_true_eq, decide_eq_true_eq, decide_eq_true_eq,
      or_assoc]
    exact hq
  rw [closingFrom, if_neg Bool.false_ne_true, if_neg (not_blankLineAhead h), if_neg hquote,
    if_neg hopen, if_neg hclose]

end

section

variable {depth count n : Nat} {q : Char} {rest t : Text} {w : List Letter}

theorem IsString.closingFrom_eq {hidden : Bool} (h : IsString q hidden w) (hq : IsQuote q)
    (hn : NoBlankLine rest w) :
    closingFrom (some q) hidden depth count (chars w ++ rest) =
      closingFrom none false depth (count + (chars w).size) rest := by
  induction h generalizing count with
  | close =>
    have hfeed : q ≠ '\n' := hq.ne (by decide)
    have hslash : q ≠ '\\' := hq.ne (by decide)
    rw [chars_cons, List.cons_append, closingFrom_string fun hc => absurd hc hfeed, if_neg hslash,
      if_pos rfl]
    rfl
  | backslash h ih =>
    rw [noBlankLine_cons_of_ne (by decide)] at hn
    rw [chars_cons, List.cons_append, closingFrom_string fun hc => absurd hc (by decide), if_pos rfl,
      ih hn, Text.size_cons, Nat.add_assoc]
  | skipped c h ih =>
    rw [noBlankLine_cons_skipped] at hn
    rw [chars_cons, List.cons_append, closingFrom_skipped, ih hn, Text.size_cons, Nat.add_assoc]
  | other hc hslash h ih =>
    obtain ⟨hfeed, hn⟩ := noBlankLine_cons.1 hn
    rw [chars_cons, List.cons_append, closingFrom_string fun hc => hfeed hc rfl,
      if_neg hslash, if_neg hc, ih hn, Text.size_cons, Nat.add_assoc]

theorem IsContent.closingFrom_eq (h : IsContent w) (hn : NoBlankLine rest w) :
    closingFrom none false depth count (chars w ++ rest) =
      closingFrom none false depth (count + (chars w).size) rest := by
  induction h generalizing depth count rest with
  | nil => rfl
  | other hq hopen hclose h ih =>
    obtain ⟨hfeed, hn⟩ := noBlankLine_cons.1 hn
    rw [chars_cons, List.cons_append,
      closingFrom_other hq hopen hclose fun hc => hfeed hc rfl, ih hn, Text.size_cons,
      Nat.add_assoc]
  | string hq hs h ih =>
    rw [noBlankLine_cons_of_ne (hq.ne (by decide)), noBlankLine_append] at hn
    rw [chars_cons, chars_append, List.cons_append, closingFrom_quote hq, List.append_assoc,
      hs.closingFrom_eq hq hn.1, ih hn.2, Text.size_cons, Text.size_append]
    congr 1
    omega
  | @braces v w hv h ihv ih =>
    rw [noBlankLine_cons_of_ne (by decide), noBlankLine_append,
      noBlankLine_cons_of_ne (by decide)] at hn
    rw [chars_cons, List.cons_append] at hn
    have hsize : (chars (⟨'\x7b', false⟩ :: (v ++ ⟨'\x7d', false⟩ :: w))).size =
        1 + ((chars v).size + (1 + (chars w).size)) := by
      rw [chars_cons, chars_append, chars_cons, Text.size_cons, Text.size_append, Text.size_cons]
      rfl
    rw [hsize, chars_cons, chars_append, chars_cons, List.cons_append, closingFrom_open,
      List.append_assoc, List.cons_append, ihv hn.1, closingFrom_close_succ, ih hn.2]
    congr 1
    omega

theorem exists_isString {hidden : Bool} (hq : IsQuote q)
    (h : closingFrom (some q) hidden depth count t = some n) :
    ∃ w rest, IsString q hidden w ∧ NoBlankLine rest w ∧ t = chars w ++ rest ∧
      closingFrom none false depth (count + (chars w).size) rest = some n := by
  induction t generalizing hidden count with
  | nil => cases h
  | cons c t ih =>
    -- the string that is found behind the character goes on from it
    have extend {hidden' skipped : Bool}
        (hstep : ∀ {w : List Letter}, IsString q hidden' w → IsString q hidden (⟨c, skipped⟩ :: w))
        (hfeed : c = '\n' → skipped = false → ¬ StartsBlankLine t)
        (h : closingFrom (some q) hidden' depth (count + c.utf8Size) t = some n) :
        ∃ w rest, IsString q hidden w ∧ NoBlankLine rest w ∧ c :: t = chars w ++ rest ∧
          closingFrom none false depth (count + (chars w).size) rest = some n := by
      obtain ⟨w, rest, hw, hn, rfl, hrest⟩ := ih h
      refine ⟨⟨c, skipped⟩ :: w, rest, hstep hw, noBlankLine_cons.2 ⟨hfeed, hn⟩, rfl, ?_⟩
      rw [chars_cons, Text.size_cons, ← Nat.add_assoc]
      exact hrest
    cases hidden with
    | true => exact extend (.skipped c) (fun _ h => Bool.noConfusion h) h
    | false =>
      have hfeed := not_startsBlankLine_of_closingFrom h
      rw [closingFrom_string hfeed] at h
      split at h
      · rename_i hc
        subst hc
        exact extend .backslash (fun hc _ => hfeed hc) h
      · rename_i hslash
        split at h
        · rename_i hc
          subst hc
          exact ⟨[⟨c, false⟩], t, .close,
            noBlankLine_cons.2 ⟨fun hc _ => hfeed hc, noBlankLine_nil⟩, rfl, h⟩
        · rename_i hc
          exact extend (.other hc hslash) (fun hc _ => hfeed hc) h

/-- What the reader passes over before the next closing brace of the same depth is the content of
balanced braces. -/
theorem exists_isContent (h : closingFrom none false depth count t = some n) :
    ∃ w rest, IsContent w ∧ NoBlankLine ('\x7d' :: rest) w ∧ t = chars w ++ '\x7d' :: rest ∧
      closingFrom none false depth (count + (chars w).size) ('\x7d' :: rest) = some n := by
  -- the content of inner braces is followed by more content
  induction hlength : t.length using Nat.strongRecOn generalizing t depth count with
  | ind length ih =>
    subst hlength
    cases t with
    | nil => cases h
    | cons c t =>
      have hfeed := not_startsBlankLine_of_closingFrom h
      by_cases hclose : c = '\x7d'
      · subst hclose
        exact ⟨[], t, .nil, noBlankLine_nil, rfl, h⟩
      by_cases hq : IsQuote c
      · rw [closingFrom_quote hq] at h
        obtain ⟨s, behind, hs, hns, rfl, hbehind⟩ := exists_isString hq h
        have hlt : behind.length < (c :: (chars s ++ behind)).length := by
          rw [List.length_cons, List.length_append]
          omega
        obtain ⟨w, rest, hw, hnw, rfl, hrest⟩ := ih _ hlt hbehind rfl
        refine ⟨⟨c, false⟩ :: (s ++ w), rest, .string hq hs hw, ?_, ?_, ?_⟩
        · rw [noBlankLine_cons_of_ne (hq.ne (by decide)), noBlankLine_append]
          exact ⟨hns, hnw⟩
        · rw [chars_cons, chars_append, List.cons_append, List.append_assoc]
        · rw [chars_cons, chars_append, Text.size_cons, Text.size_append, ← Nat.add_assoc,
            ← Nat.add_assoc]
          exact hrest
      by_cases hopen : c = '\x7b'
      · subst hopen
        rw [closingFrom_open] at h
        obtain ⟨v, behind, hv, hnv, rfl, hbehind⟩ := ih _ (Nat.lt_succ_self _) h rfl
        rw [closingFrom_close_succ] at hbehind
        have hlt : behind.length < ('\x7b' :: (chars v ++ '\x7d' :: behind)).length := by
          rw [List.length_cons, List.length_append, List.length_cons]
          omega
        obtain ⟨w, rest, hw, hnw, rfl, hrest⟩ := ih _ hlt hbehind rfl
        refine ⟨⟨'\x7b', false⟩ :: (v ++ ⟨'\x7d', false⟩ :: w), rest, .braces hv hw, ?_, ?_, ?_⟩
        · rw [noBlankLine_cons_of_ne (by decide), noBlankLine_append,
            noBlankLine_cons_of_ne (by decide)]
          exact ⟨hnv, hnw⟩
        · rw [chars_cons, chars_append, chars_cons, List.cons_append, List.append_assoc,
            List.cons_append]
        · rw [chars_cons, chars_append, chars_cons, Text.size_cons, Text.size_append,
            Text.size_cons, ← Nat.add_assoc, ← Nat.add_assoc, ← Nat.add_assoc]
          exact hrest
      · rw [closingFrom_other hq hopen hclose hfeed] at h
        obtain ⟨w, rest, hw, hnw, rfl, hrest⟩ := ih _ (Nat.lt_succ_self _) h rfl
        refine ⟨⟨c, false⟩ :: w, rest, .other hq hopen hclose hw, ?_, rfl, ?_⟩
        · exact noBlankLine_cons.2 ⟨fun hc _ => hfeed hc, hnw⟩
        · rw [chars_cons, Text.size_cons, ← Nat.add_assoc]
          exact hrest

end

theorem isBraces_iff {w : List Letter} :
    IsBraces w ↔ ∃ content, IsContent content ∧ NoBlankLine ['\x7d'] content ∧
      w = ⟨'\x7b', false⟩ :: (content ++ [⟨'\x7d', false⟩]) := by
  have hword (content : List Letter) :
      NoBlankLine [] (⟨'\x7b', false⟩ :: (content ++ [⟨'\x7d', false⟩])) ↔
        NoBlankLine ['\x7d'] content := by
    rw [noBlankLine_cons_of_ne (by decide), noBlankLine_append,
      noBlankLine_cons_of_ne (by decide), and_iff_left noBlankLine_nil]
    rfl
  constructor
  · rintro ⟨hn, content, hcontent, rfl⟩
    exact ⟨content, hcontent, (hword content).1 hn, rfl⟩
  · rintro ⟨content, hcontent, hn, rfl⟩
    exact ⟨(hword content).2 hn, content, hcontent, rfl⟩

/-- At the head of a text the reader finds a balanced word, if there is one. -/
theorem braces?_eq_some_iff {offset : Nat} {t : Text} {s : Span} :
    braces? offset t = some s ↔
      ∃ w rest, IsBraces w ∧ t = chars w ++ rest ∧ s = ⟨offset, offset + (chars w).size⟩ := by
  have hstop (content : List Letter) :
      offset + (chars (⟨'\x7b', false⟩ :: (content ++ [⟨'\x7d', false⟩]))).size =
        offset + 1 + (0 + (chars content).size) + 1 := by
    rw [chars_cons, chars_append, chars_cons, Text.size_cons, Text.size_append, Nat.zero_add,
      ← Nat.add_assoc, ← Nat.add_assoc]
    rfl
  constructor
  · intro h
    unfold braces? at h
    split at h
    · obtain ⟨n, hn, rfl⟩ := Option.map_eq_some_iff.1 h
      obtain ⟨content, rest, hcontent, hblank, rfl, hclose⟩ := exists_isContent hn
      cases hclose
      refine ⟨_, rest, isBraces_iff.2 ⟨content, hcontent, noBlankLine_close.1 hblank, rfl⟩, ?_, ?_⟩
      · rw [chars_cons, chars_append, List.cons_append, List.append_assoc]
        rfl
      · rw [hstop]
    · cases h
  · rintro ⟨w, rest, hw, rfl, rfl⟩
    obtain ⟨content, hcontent, hblank, rfl⟩ := isBraces_iff.1 hw
    have hclose : closingFrom none false 0 0 (chars content ++ '\x7d' :: rest) =
        some (0 + (chars content).size) :=
      hcontent.closingFrom_eq (noBlankLine_close.1 hblank)
    rw [hstop, chars_cons, chars_append, List.cons_append, List.append_assoc]
    change (closingFrom none false 0 0 (chars content ++ '\x7d' :: rest)).map _ = _
    rw [hclose, Option.map_some]

end Cloak.Expression
