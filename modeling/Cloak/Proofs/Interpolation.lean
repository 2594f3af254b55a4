import Cloak.Proofs.Balance
import Cloak.Proofs.Overlap

namespace Cloak

open Unclosed (inSome)

namespace Text

theorem RestAt.le_of_wordAt {t rest word : Text} {c : Char} {n m : Nat} (h : t.RestAt n (c :: rest))
    (hw : t.WordAt m word) (hlt : n < m) : n + c.utf8Size ≤ m := by
  obtain ⟨a, ht, rfl⟩ := h
  obtain ⟨a', b', rfl, rfl⟩ := hw
  obtain ⟨u, rfl, hu⟩ := append_eq_append_of_size_le ht.symm (Nat.le_of_lt hlt)
  cases u with
  | nil =>
    rw [List.append_nil] at hlt
    exact absurd hlt (Nat.lt_irrefl _)
  | cons d u =>
    obtain ⟨rfl, -⟩ := List.cons.inj hu
    rw [size_append, size_cons]
    omega

theorem RestAt.eq_of_wordAt_pred {t rest : Text} {c d : Char} {n : Nat} (h : t.RestAt n (c :: rest))
    (hw : t.WordAt (n + c.utf8Size - 1) [d]) : c = d := by
  have hpos := c.utf8Size_pos
  rcases Nat.lt_or_ge n (n + c.utf8Size - 1) with hlt | hge
  · have hle := h.le_of_wordAt hw hlt
    omega
  · have hn : n + c.utf8Size - 1 = n := by omega
    rw [hn] at hw
    exact h.head.char_eq hw

theorem RestAt.exists_append {t rest word : Text} {n : Nat} (h : t.RestAt n rest)
    (hw : t.WordAt n word) : ∃ behind, rest = word ++ behind := by
  obtain ⟨a, ht, rfl⟩ := h
  obtain ⟨a', b', rfl, hsize⟩ := hw
  obtain ⟨-, rfl⟩ := append_inj_of_size_eq ht hsize.symm
  exact ⟨b', rfl⟩

end Text

namespace Expression

/-- The number of backslashes directly before an offset, counted back to the last shield. -/
def backslashesBefore (t : Text) (shields : List Span) : Nat → Nat
  | 0 => 0
  | n + 1 =>
    if t.bytes[n]? = some 92 ∧ ¬ inSome shields n then backslashesBefore t shields n + 1 else 0

section

variable {t : Text} {shields : List Span} {n : Nat}

theorem backslash_iff : t.bytes[n]? = some 92 ↔ t.WordAt n ['\\'] :=
  Text.getElem?_bytes_eq_some_iff (b := 92) (by decide)

theorem backslashesBefore_succ (h : t.WordAt n ['\\']) (hout : ¬ inSome shields n) :
    backslashesBefore t shields (n + 1) = backslashesBefore t shields n + 1 :=
  if_pos ⟨backslash_iff.2 h, hout⟩

theorem backslashesBefore_eq_zero (h : t.WordAt (n - 1) ['\\'] → inSome shields (n - 1)) :
    backslashesBefore t shields n = 0 := by
  cases n with
  | zero => rfl
  | succ n => exact if_neg fun hn => hn.2 (h (backslash_iff.1 hn.1))

theorem backslashesBefore_behind {c : Char} {rest : Text} (hr : t.RestAt n (c :: rest))
    (h : c = '\\' → inSome shields n) : backslashesBefore t shields (n + c.utf8Size) = 0 := by
  apply backslashesBefore_eq_zero
  intro hword
  obtain rfl := hr.eq_of_wordAt_pred hword
  exact h rfl

end

section

variable {t : Text} {shields : List Span}

/-- A walk knows of the character ahead whether an odd number of backslashes stands before it. Where
it is asleep, none stands before the place at which it wakes up. -/
structure Walk.Counts (t : Text) (shields : List Span) (offset : Nat) (w : Walk) : Prop where
  awake : w.reached ≤ offset → (w.hidden = true ↔ backslashesBefore t shields offset % 2 = 1)
  asleep : offset < w.reached → backslashesBefore t shields w.reached = 0

theorem Walk.counts_start : Walk.Counts t shields 0 ⟨0, false⟩ where
  awake _ := iff_of_false Bool.false_ne_true Nat.zero_ne_one
  asleep h := absurd h (Nat.lt_irrefl 0)

theorem Walk.counts_of_eq_zero {offset reached : Nat}
    (hawake : reached ≤ offset → backslashesBefore t shields offset = 0)
    (hasleep : offset < reached → backslashesBefore t shields reached = 0) :
    Walk.Counts t shields offset ⟨reached, false⟩ where
  awake h := iff_of_false Bool.false_ne_true (by rw [hawake h]; exact Nat.zero_ne_one)
  asleep := hasleep

theorem Step.counts {w w' : Walk} {offset : Nat} {c : Char} {rest : Text} {found : Option Span}
    (h : Step shields w offset c rest found w') (hr : t.RestAt offset (c :: rest))
    (hw : w.Counts t shields offset) : w'.Counts t shields (offset + c.utf8Size) := by
  have hpos := c.utf8Size_pos
  have behind (hc : c = '\\' → inSome shields offset) :
      backslashesBefore t shields (offset + c.utf8Size) = 0 := backslashesBefore_behind hr hc
  have slash (hc : c = '\\') (hout : ¬ inSome shields offset) :
      backslashesBefore t shields (offset + c.utf8Size) =
        backslashesBefore t shields offset + 1 := by
    subst hc
    exact backslashesBefore_succ hr.head hout
  cases h with
  | asleep hasleep =>
    have hzero := hw.asleep hasleep
    apply Walk.counts_of_eq_zero
    · intro hle
      by_cases heq : offset + c.utf8Size = w.reached
      · rw [heq]
        exact hzero
      · -- the character goes on behind the place where the walk wakes up
        apply behind
        rintro rfl
        change w.reached ≤ offset + 1 at hle
        change offset + 1 ≠ w.reached at heq
        omega
    · exact fun _ => hzero
  | hidden hawake hh =>
    have hodd := (hw.awake hawake).1 hh
    refine ⟨fun _ => iff_of_false Bool.false_ne_true ?_, fun hlt => absurd hlt (by simp only; omega)⟩
    by_cases hc : c = '\\' ∧ ¬ inSome shields offset
    · rw [slash hc.1 hc.2]
      omega
    · rw [behind fun heq => of_not_not fun hout => hc ⟨heq, hout⟩]
      exact Nat.zero_ne_one
  | @shield hawake r hmem hold =>
    have hin {i : Nat} (hi : r.holds i) : inSome shields i := inSome_iff.2 ⟨r, hmem, hi⟩
    rw [Span.holds_iff] at hold
    apply Walk.counts_of_eq_zero
    · exact fun _ => behind fun _ => hin (Span.holds_iff.2 hold)
    · intro hlt
      exact backslashesBefore_eq_zero fun _ => hin (Span.holds_iff.2 (by omega))
  | backslash hlooks hc =>
    have heven := not_congr (hw.awake hlooks.awake)
    have hout : ¬ inSome shields offset := by
      intro hin
      obtain ⟨r, hmem, hold⟩ := inSome_iff.1 hin
      exact hlooks.outside r hmem hold
    refine ⟨fun _ => iff_of_true rfl ?_, fun hlt => ?_⟩
    · have hnot := heven.1 (by rw [hlooks.seen]; exact Bool.false_ne_true)
      rw [slash hc hout]
      omega
    · have hle := hlooks.awake
      simp only at hlt
      omega
  | braces hlooks hc hs =>
    apply Walk.counts_of_eq_zero
    · exact fun _ => behind fun heq => absurd heq hc
    · intro _
      apply backslashesBefore_eq_zero
      intro hword
      have hclose : t.WordAt (_ - 1) ['\x7d'] := (enclosedBy_of_braces? hr hs).closes
      exact absurd (hword.char_eq hclose) (by decide)
  | other hlooks hc hs =>
    have hle := hlooks.awake
    apply Walk.counts_of_eq_zero
    · exact fun _ => behind fun heq => absurd heq hc
    · intro hlt
      omega

end

theorem IsBraces.exists_cons {w : List Letter} (h : IsBraces w) :
    ∃ cs, chars w = '\x7b' :: cs := by
  obtain ⟨-, content, -, rfl⟩ := h
  exact ⟨_, rfl⟩

theorem exists_isBraces_of_braces? {t rest : Text} {offset : Nat} {s : Span}
    (hr : t.RestAt offset rest) (h : braces? offset rest = some s) :
    ∃ w, IsBraces w ∧ chars w = s.text t := by
  obtain ⟨w, behind, hw, rfl, rfl⟩ := braces?_eq_some_iff.1 h
  refine ⟨w, hw, ?_⟩
  symm
  apply Span.text_eq_of_text?
  obtain ⟨a, rfl, rfl⟩ := hr
  exact Text.slice?_eq_some_iff.2 ⟨a, behind, rfl, rfl, rfl⟩

section

variable {t : Text} {shields : List Span}
  (hsorted : shields.Pairwise fun r r' => r.start ≤ r'.start)
include hsorted

theorem of_mem_scan {rest : Text} {offset : Nat} {w : Walk} (hr : t.RestAt offset rest)
    (hw : w.Counts t shields offset) {s : Span}
    (hs : s ∈ scan shields w.reached w.hidden offset rest) :
    backslashesBefore t shields s.start % 2 = 0 ∧
      ∃ word, IsBraces word ∧ chars word = s.text t := by
  induction rest generalizing offset w with
  | nil => cases hs
  | cons c rest ih =>
    obtain ⟨found, w', hstep, hscan⟩ := exists_step hsorted w offset c rest
    rw [hscan] at hs
    rcases List.mem_append.1 hs with hfound | hlater
    · obtain rfl : found = some s := Option.mem_toList.1 hfound
      cases hstep with
      | braces hlooks _ hbraces =>
        refine ⟨?_, exists_isBraces_of_braces? hr hbraces⟩
        have heven := not_congr (hw.awake hlooks.awake)
        have hnot := heven.1 (by rw [hlooks.seen]; exact Bool.false_ne_true)
        rw [start_of_braces? hbraces]
        omega
    · exact ih hr.tail (hstep.counts hr hw) hlater

/-- A balanced word outside the shields behind an even number of backslashes starts in something
that a walk finds, unless the walk has come farther. -/
theorem exists_mem_scan {rest : Text} {offset : Nat} {w : Walk} (hr : t.RestAt offset rest)
    (hw : w.Counts t shields offset) {n : Nat} {word : List Letter} (hn : offset ≤ n)
    (hat : t.WordAt n (chars word)) (hword : IsBraces word) (hout : ¬ inSome shields n)
    (heven : backslashesBefore t shields n % 2 = 0) :
    n < w.reached ∨ ∃ s ∈ scan shields w.reached w.hidden offset rest, s.holds n := by
  obtain ⟨cs, hcs⟩ := hword.exists_cons
  induction rest generalizing offset w with
  | nil =>
    obtain ⟨a, rfl, rfl⟩ := hr
    obtain ⟨a', b, ht, rfl⟩ := hat
    have hsize := congrArg Text.size ht
    rw [hcs, List.append_nil, Text.size_append, Text.size_append, Text.size_cons] at hsize
    have hpos := ('\x7b').utf8Size_pos
    omega
  | cons c rest ih =>
    obtain ⟨found, w', hstep, hscan⟩ := exists_step hsorted w offset c rest
    rw [hscan]
    rcases Nat.eq_or_lt_of_le hn with rfl | hlt
    · obtain ⟨behind, hbehind⟩ := hr.exists_append hat
      have hfind : braces? offset (c :: rest) = some ⟨offset, offset + (chars word).size⟩ :=
        braces?_eq_some_iff.2 ⟨word, behind, hword, hbehind, rfl⟩
      cases hstep with
      | asleep hasleep => exact .inl hasleep
      | hidden hawake hh =>
        have hodd := (hw.awake hawake).1 hh
        omega
      | shield _ hr hold => exact absurd (inSome_iff.2 ⟨_, hr, hold⟩) hout
      | backslash _ hc =>
        rw [hcs] at hbehind
        obtain ⟨rfl, -⟩ := List.cons.inj hbehind
        exact absurd hc (by decide)
      | braces _ _ hs =>
        obtain rfl := Option.some.inj (hs.symm.trans hfind)
        refine .inr ⟨_, List.mem_cons_self, Span.holds_iff.2 ⟨Nat.le_refl _, ?_⟩⟩
        exact Nat.lt_add_of_pos_right (Text.size_pos (by rw [hcs]; exact List.cons_ne_nil _ _))
      | other _ _ hs =>
        rw [hfind] at hs
        cases hs
    · rcases ih hr.tail (hstep.counts hr hw) (hr.le_of_wordAt hat hlt) with hsleep | ⟨s, hs, hold⟩
      · cases hstep with
        | shield _ hr hold =>
          have hstart := (Span.holds_iff.1 hold).1
          exact absurd (inSome_iff.2 ⟨_, hr, Span.holds_iff.2 ⟨by omega, hsleep⟩⟩) hout
        | braces _ _ hs =>
          have hstart := start_of_braces? hs
          exact .inr ⟨_, List.mem_cons_self, Span.holds_iff.2 ⟨by omega, hsleep⟩⟩
        | _ => exact .inl hsleep
      · exact .inr ⟨s, List.mem_append_right _ hs, hold⟩

end

section

variable {document : Text} {spans shields : List Span}

theorem slice?_of_mem_expressions (hf : ∀ s ∈ spans, s.FitsIn document) {n : Node}
    (hn : n ∈ expressions document (mask document spans) shields) :
    document.slice? (n.span.start + 1) (n.span.stop - 1) = some n.value := by
  obtain ⟨s, hs, rfl⟩ := List.mem_map.1 hn
  have h : s.EnclosedBy brace unbrace (mask document spans) :=
    enclosedBy_of_mem_scan (Text.restAt_zero _) hs
  have hinside := (enclosedBy_of_mask hf isVisible_braces h).1.fitsIn_inside
  exact hinside.text?_eq

/-- The interpolations of a masked document follow one another. They are balanced words that start
outside the shields behind an even number of backslashes, and hold the text of the document between
their braces. At every other such place outside them no balanced word starts. -/
theorem interpolations_exactly_balanced (hf : ∀ s ∈ spans, s.FitsIn document)
    (hsorted : shields.Pairwise fun r r' => r.start ≤ r'.start) :
    let masked := mask document spans
    let nodes := expressions document masked shields
    (nodes.Pairwise fun m n => m.span.stop ≤ n.span.start) ∧
      (∀ n ∈ nodes, n.kind = .expression ∧ n.span.FitsIn masked ∧
        IsBalanced (n.span.text masked) ∧ ¬ inSome shields n.span.start ∧
        backslashesBefore masked shields n.span.start % 2 = 0 ∧
        document.slice? (n.span.start + 1) (n.span.stop - 1) = some n.value) ∧
      ∀ offset, ¬ inSome shields offset → (∀ n ∈ nodes, ¬ n.span.holds offset) →
        backslashesBefore masked shields offset % 2 = 0 →
        ∀ word, masked.WordAt offset word → ¬ IsBalanced word := by
  intro masked nodes
  have hrest := Text.restAt_zero masked
  have hcounts : Walk.Counts masked shields 0 ⟨0, false⟩ := Walk.counts_start
  refine ⟨?apart, ?balanced, ?complete⟩
  case apart =>
    apply List.pairwise_map.2
    apply (consecutive_scan shields 0 false 0 masked).pairwise_stop_le
    intro s hs
    exact (enclosedBy_of_mem_scan hrest hs).fitsIn.start_le
  case balanced =>
    intro n hn
    have hvalue := slice?_of_mem_expressions hf hn
    obtain ⟨s, hs, rfl⟩ := List.mem_map.1 hn
    have hfits := (enclosedBy_of_mem_scan hrest hs).fitsIn
    have hout := (not_holds_of_mem_scan hsorted hs).2
    obtain ⟨heven, hbalanced⟩ := of_mem_scan hsorted hrest hcounts hs
    refine ⟨rfl, hfits, hbalanced, ?_, heven, hvalue⟩
    intro hin
    obtain ⟨r, hr, hold⟩ := inSome_iff.1 hin
    exact hout r hr hold
  case complete =>
    rintro offset hout hfree heven word hat ⟨w, hw, rfl⟩
    rcases exists_mem_scan hsorted hrest hcounts (Nat.zero_le _) hat hw hout heven with
      hlt | ⟨s, hs, hold⟩
    · exact absurd hlt (Nat.not_lt_zero _)
    · exact hfree _ (List.mem_map_of_mem hs) hold

/-- The word ends at the last of the braces, neither at the one in a string nor at the one that is
hidden; no word goes on behind a blank line. -/
theorem interpolations_exactly_balanced_nested :
    let document :=
      "\\\x7ba\x7d $\x7bb\x7d$ \x7b\"\x7d\"\x7b<T>\x7d</T>\x7d\x7d \x7bf\n\n\x7d".toList
    let masked := mask document [⟨16, 24⟩]
    let node : Node := ⟨.expression, ⟨11, 26⟩, "\"\x7d\"\x7b<T>\x7d</T>\x7d".toList⟩
    (∀ s ∈ [(⟨16, 24⟩ : Span)], s.FitsIn document) ∧
      ([⟨5, 10⟩] : List Span).Pairwise (fun r r' => r.start ≤ r'.start) ∧
      expressions document masked [⟨5, 10⟩] = [node] ∧
      IsBalanced "\x7b\"\x7d\"\x7bxxxxxxxx\x7d\x7d".toList ∧
      Text.slice? document 12 25 = some node.value ∧ ¬ IsBalanced "\x7bf\n\n\x7d".toList := by
  intro document masked node
  have hf : ∀ s ∈ [(⟨16, 24⟩ : Span)], s.FitsIn document := by decide +kernel
  have hsorted : ([⟨5, 10⟩] : List Span).Pairwise (fun r r' => r.start ≤ r'.start) := by decide
  have hnodes : expressions document masked [⟨5, 10⟩] = [node] := by decide +kernel
  have htext : node.span.text masked = "\x7b\"\x7d\"\x7bxxxxxxxx\x7d\x7d".toList := by decide +kernel
  have hat : masked.WordAt 27 "\x7bf\n\n\x7d".toList := ⟨masked.take 27, [], by decide +kernel⟩
  obtain ⟨-, hall, hfree⟩ := interpolations_exactly_balanced hf hsorted
  have hnode := hall node (by rw [hnodes]; exact List.mem_singleton_self node)
  rw [htext] at hnode
  refine ⟨hf, hsorted, hnodes, hnode.2.2.1, hnode.2.2.2.2.2, ?_⟩
  apply hfree 27 _ _ _ _ hat
  · decide +kernel
  · rw [hnodes]
    decide +kernel
  · decide +kernel

end

/-- Two line feeds with white space between them stand in a text. -/
def HoldsBlankLine (t : Text) : Prop :=
  ∃ before behind, t = before ++ '\n' :: behind ∧ StartsBlankLine behind

/-- Every letter of a word that is skipped directly follows a backslash that is not. -/
def SkipsFollowBackslash (w : List Letter) : Prop :=
  ∀ a c b, w = a ++ ⟨c, true⟩ :: b → ∃ a', a = a' ++ [⟨'\\', false⟩]

section

variable {q : Char} {v w : List Letter}

theorem skipsFollowBackslash_nil : SkipsFollowBackslash [] := by
  intro a c b h
  exact absurd h.symm (List.append_ne_nil_of_right_ne_nil a (List.cons_ne_nil _ _))

theorem SkipsFollowBackslash.cons (h : SkipsFollowBackslash w) (c : Char) :
    SkipsFollowBackslash (⟨c, false⟩ :: w) := by
  intro a d b hw
  cases a with
  | nil => cases hw
  | cons l a =>
    obtain ⟨rfl, htail⟩ := List.cons.inj hw
    obtain ⟨a', rfl⟩ := h a d b htail
    exact ⟨⟨c, false⟩ :: a', rfl⟩

theorem SkipsFollowBackslash.backslash (h : SkipsFollowBackslash w) (c : Char) :
    SkipsFollowBackslash (⟨'\\', false⟩ :: ⟨c, true⟩ :: w) := by
  intro a d b hw
  rcases a with _ | ⟨l, _ | ⟨l', a⟩⟩
  · cases hw
  · exact ⟨[], congrArg ([·]) (List.cons.inj hw).1.symm⟩
  · obtain ⟨rfl, htail⟩ := List.cons.inj hw
    obtain ⟨rfl, hrest⟩ := List.cons.inj htail
    obtain ⟨a', rfl⟩ := h a d b hrest
    exact ⟨_ :: _ :: a', rfl⟩

theorem SkipsFollowBackslash.append (hv : SkipsFollowBackslash v) (hw : SkipsFollowBackslash w) :
    SkipsFollowBackslash (v ++ w) := by
  intro a c b h
  rcases List.append_eq_append_iff.1 h with ⟨m, rfl, hm⟩ | ⟨m, rfl, hm⟩
  · obtain ⟨a', rfl⟩ := hw m c b hm
    exact ⟨v ++ a', (List.append_assoc _ _ _).symm⟩
  · cases m with
    | nil =>
      obtain ⟨a', ha⟩ := hw [] c b hm.symm
      exact absurd ha (List.append_ne_nil_of_right_ne_nil a' (List.cons_ne_nil _ _)).symm
    | cons l m =>
      obtain ⟨rfl, rfl⟩ := List.cons.inj hm
      exact hv a c m rfl

theorem IsString.skipsFollowBackslash {hidden : Bool} (h : IsString q hidden w) :
    SkipsFollowBackslash ((if hidden then [⟨'\\', false⟩] else []) ++ w) := by
  induction h with
  | close => exact skipsFollowBackslash_nil.cons q
  | backslash h ih => exact ih
  | skipped c h ih => exact ih.backslash c
  | other hq hc h ih => exact ih.cons _

theorem IsContent.skipsFollowBackslash (h : IsContent w) : SkipsFollowBackslash w := by
  induction h with
  | nil => exact skipsFollowBackslash_nil
  | other hq hopen hclose h ih => exact ih.cons _
  | string hq hs h ih => exact (hs.skipsFollowBackslash.append ih).cons _
  | braces hv h ihv ih => exact (ihv.append (ih.cons _)).cons _

/-- A blank line of a balanced word starts behind a line feed that a backslash skips. -/
theorem IsBraces.exists_skipped (h : IsBraces w) (hblank : HoldsBlankLine (chars w)) :
    ∃ a b, w = a ++ ⟨'\\', false⟩ :: ⟨'\n', true⟩ :: b ∧ StartsBlankLine (chars b) := by
  obtain ⟨hn, content, hcontent, rfl⟩ := h
  have hskips : SkipsFollowBackslash (⟨'\x7b', false⟩ :: (content ++ [⟨'\x7d', false⟩])) := by
    have hclose : SkipsFollowBackslash [⟨'\x7d', false⟩] := skipsFollowBackslash_nil.cons _
    exact (hcontent.skipsFollowBackslash.append hclose).cons _
  obtain ⟨before, behind, ht, hstarts⟩ := hblank
  obtain ⟨a, m, hw, rfl, hm⟩ := List.map_eq_append_iff.1 ht
  obtain ⟨⟨d, skipped⟩, b, rfl, rfl, rfl⟩ := List.map_eq_cons_iff.1 hm
  cases skipped with
  | false =>
    have hnot := hn a b hw
    rw [List.append_nil] at hnot
    exact absurd hstarts hnot
  | true =>
    obtain ⟨a', rfl⟩ := hskips a _ b hw
    exact ⟨a', b, by rw [hw, List.append_assoc]; rfl, hstarts⟩

end

end Expression

section

open Expression

variable {events : Text → List MarkdownEvent} {document : Text} {opaqueSpans : List Span}
  {tags : List Text} {nodes : List Node}

/-- A blank line stands in an interpolation of a document exactly where a backslash in a string of
it skips the first of the two line feeds. -/
theorem blankLine_behind_backslash_only
    (hok : parseWith events document opaqueSpans tags = .ok nodes) {n : Node} (hn : n ∈ nodes)
    (hkind : n.kind = .expression) :
    let masked := (hideOpaque document opaqueSpans).text
    n.span.FitsIn masked ∧ ∃ w, IsBraces w ∧ chars w = n.span.text masked ∧
      (HoldsBlankLine (n.span.text masked) ↔
        ∃ a b, w = a ++ ⟨'\\', false⟩ :: ⟨'\n', true⟩ :: b ∧ StartsBlankLine (chars b)) := by
  intro masked
  have hexpr : n ∈ expressionNodes events document opaqueSpans :=
    (mem_parseWith hok hn).resolve_left fun hs => kind_ne_of_mem_structureNodes hs hkind
  obtain ⟨s, hs, rfl⟩ := List.mem_map.1 hexpr
  have hrest := Text.restAt_zero masked
  have hfits := (enclosedBy_of_mem_scan hrest hs).fitsIn
  have hsorted := pairwise_sortNodes
    (structureNodes document (hideOpaque document opaqueSpans) events)
  obtain ⟨-, w, hw, htext⟩ := of_mem_scan (List.pairwise_map.2 hsorted) hrest Walk.counts_start hs
  refine ⟨hfits, w, hw, htext, ?_⟩
  change HoldsBlankLine (s.text masked) ↔ _
  rw [← htext]
  constructor
  · exact hw.exists_skipped
  · rintro ⟨a, b, rfl, hstarts⟩
    refine ⟨chars a ++ ['\\'], chars b, ?_, hstarts⟩
    rw [chars_append, List.append_assoc]
    rfl

/-- The backslash in the string skips the line feed that a blank line follows. -/
theorem blankLine_behind_backslash_only_quoted :
    let document := "\x7b\"\\\n\n\"\x7d".toList
    let node : Node := ⟨.expression, ⟨0, 7⟩, "\"\\\n\n\"".toList⟩
    parse document [] [] = .ok [node] ∧
      HoldsBlankLine (node.span.text (hideOpaque document []).text) ∧
      ∃ w, IsBraces w ∧ chars w = document ∧
        ∃ a b, w = a ++ ⟨'\\', false⟩ :: ⟨'\n', true⟩ :: b ∧ StartsBlankLine (chars b) := by
  intro document node
  have hok : parse document [] [] = .ok [node] := parseWith_of_toOption (by decide +kernel)
  have htext : node.span.text (hideOpaque document []).text = document := by decide +kernel
  have hblank : HoldsBlankLine (node.span.text (hideOpaque document []).text) := by
    rw [htext]
    exact ⟨"\x7b\"\\".toList, "\n\"\x7d".toList, rfl, [], _, rfl, List.forall_mem_nil _⟩
  obtain ⟨-, w, hw, hchars, hiff⟩ :=
    blankLine_behind_backslash_only hok (List.mem_singleton_self node) rfl
  exact ⟨hok, hblank, w, hw, hchars.trans htext, hiff.1 hblank⟩

end

end Cloak
