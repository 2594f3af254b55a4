import Cloak.Pad.Block
import Cloak.Proofs.Hiding
import Cloak.Proofs.Lines
import Cloak.Proofs.Matcher

namespace Cloak

/-- A block quote, a bullet or a numbered item starts here. -/
inductive StartsItem : Text → Prop
  | quote (rest : Text) : StartsItem ('>' :: rest)
  | bullet (rest : Text) : StartsItem ('-' :: ' ' :: rest)
  | number {digits : Text} {c : Char} (hne : digits ≠ []) (hdigits : ∀ d ∈ digits, isDigitChar d)
      (hc : isBlank c) (rest : Text) : StartsItem (digits ++ '.' :: c :: rest)

/-- Behind its indentation a line starts a block quote or an item of a list. -/
def OpensContainer (line : Text) : Prop :=
  ∃ indent rest, (∀ c ∈ indent, isBlank c) ∧ line = indent ++ rest ∧ StartsItem rest

theorem not_isBlank_of_isDigitChar {d : Char} (h : isDigitChar d) : isBlank d = false := by
  rw [Bool.eq_false_iff]
  intro hblank
  have hall : ∀ n ∈ Element.blankCodes, isDigitChar (Char.ofNat n) = false := by decide +kernel
  have hd := hall _ (Element.toNat_mem_blankCodes hblank)
  rw [Char.ofNat_toNat, h] at hd
  cases hd

theorem StartsItem.stopsBy_isBlank {rest : Text} (h : StartsItem rest) :
    Text.StopsBy isBlank rest := by
  cases h with
  | quote => exact Text.stopsBy_cons_iff.2 (by decide)
  | bullet => exact Text.stopsBy_cons_iff.2 (by decide)
  | @number digits c hne hdigits =>
    cases digits with
    | nil => exact absurd rfl hne
    | cons d ds =>
      exact Text.stopsBy_cons_iff.2 (not_isBlank_of_isDigitChar (hdigits d List.mem_cons_self))

theorem opensContainer_iff {line : Text} : opensContainer line ↔ OpensContainer line := by
  constructor
  · intro h
    refine ⟨line.takeWhile isBlank, line.dropWhile isBlank, fun c => Text.of_mem_takeWhile,
      List.takeWhile_append_dropWhile.symm, ?_⟩
    rw [opensContainer] at h
    split at h
    · rename_i rest hrest
      rw [hrest]
      exact .quote rest
    · rename_i rest hrest
      rw [hrest]
      exact .bullet rest
    · split at h
      · rename_i d ds c rest hdigits hrest
        rw [← List.takeWhile_append_dropWhile (p := isDigitChar) (l := line.dropWhile isBlank),
          hrest]
        refine .number ?_ (fun _ => Text.of_mem_takeWhile) h rest
        rw [hdigits]
        exact List.cons_ne_nil d ds
      · cases h
  · rintro ⟨indent, rest, hindent, rfl, hitem⟩
    rw [opensContainer, Text.dropWhile_append_stop hindent hitem.stopsBy_isBlank]
    cases hitem with
    | quote rest => rfl
    | bullet rest => rfl
    | @number digits c hne hdigits hc rest =>
      have hstop : Text.StopsBy isDigitChar ('.' :: c :: rest) :=
        Text.stopsBy_cons_iff.2 (by decide)
      have htake := Text.takeWhile_append_stop hdigits hstop
      have hdrop := Text.dropWhile_append_stop hdigits hstop
      cases digits with
      | nil => exact absurd rfl hne
      | cons d ds =>
        have hd := hdigits d List.mem_cons_self
        split
        · rfl
        · rfl
        · rw [htake, hdrop]
          exact hc

def Span.filled (s : Span) (document t : Text) : Text :=
  fillFrom document (fun s : Span => s) (fun _ => t) 0 [s]

theorem Span.filled_append {s : Span} {a b c d : Text} (hstart : s.start = a.size)
    (hstop : s.stop = c.size) (heq : a ++ b = c ++ d) (t : Text) :
    s.filled (a ++ b) t = a ++ (t ++ d) := by
  have hslice : Text.slice (a ++ b) 0 s.start = a := by
    have hslice := Text.slice?_append [] a b
    rw [Text.size_nil, Nat.zero_add, List.nil_append] at hslice
    rw [Text.slice, hstart, hslice, Option.getD_some]
  have hrest : Text.from? (a ++ b) s.stop = some d := by
    rw [heq, hstop, Text.from?_append]
  rw [Span.filled, fillFrom, hslice, fillFrom, hrest, Option.getD_some]

/-- A word stands on a line with nothing but white space beside it. The line above is blank, and so
is the line below unless it opens a container; either may be missing. -/
structure StandsAlone (t : Text) (n : Nat) (word : Text) : Prop where
  line : ∃ u v, t.rawLines[(t.position n).line]? = some (u ++ (word ++ v)) ∧
    (t.position n).column = u.size ∧ u.allBlank ∧ v.allBlank
  above : (t.position n).line = 0 ∨ t.isBlankLine ((t.position n).line - 1)
  below : ∀ l, t.line? ((t.position n).line + 1) = some l → l.allBlank ∨ OpensContainer l

theorem isolates_iff {line : Text} : isolates line ↔ line.allBlank ∨ OpensContainer line := by
  rw [isolates, Bool.or_eq_true, opensContainer_iff, or_comm]

namespace Text

variable {t u v word : Text} {n : Nat} {above below : List Text}

def blankAbove (above : List Text) : Bool :=
  above.getLast?.all allBlank

def isolatedBelow (below : List Text) : Bool :=
  below.head?.all fun l => isolates (dropReturn l)

theorem Divides.standsAlone (h : Divides t n above u (word ++ v) below) (hu : u.allBlank)
    (hv : v.allBlank) (habove : blankAbove above) (hbelow : isolatedBelow below) :
    StandsAlone t n word := by
  have hposition := h.position_eq
  constructor
  · rw [hposition]
    exact ⟨u, v, h.getElem?_rawLines, rfl, hu, hv⟩
  · rw [hposition, ← decide_eq_true_iff (p := above.length = 0), ← Bool.or_eq_true, h.blank_above]
    exact habove
  · rw [hposition, h.line?_below]
    intro l hl
    obtain ⟨k, hk, rfl⟩ := Option.map_eq_some_iff.1 hl
    rw [← isolates_iff]
    rw [isolatedBelow, hk] at hbelow
    exact hbelow

theorem Divides.blockPadBefore_eq (h : Divides t n above u v below) :
    blockPadBefore t n =
      if opensContainer (dropReturn (u ++ v)) then .newlines 0
      else if u.allBlank then if blankAbove above then .text u else .text ('\n' :: u)
      else .newlines 2 := by
  simp only [blockPadBefore, h.position_eq, h.line?_eq, h.lineBefore_eq, h.blank_above, isEmpty_trim,
    Option.getD_some]
  rfl

theorem Divides.blockPadAfter_eq (h : Divides t n above u v below) :
    blockPadAfter t n =
      if v.allBlank then .newlines (if isolatedBelow below then 0 else 1) else .newlines 2 := by
  simp only [blockPadAfter, h.position_eq, h.line?_below, h.allBlank_lineAfter, isEmpty_trim]
  cases below <;> rfl

/-- The pad before a block leads to a blank beginning of a line, and above that is a blank line or
none. -/
theorem Divides.exists_padBefore (h : Divides t n above u v below)
    (hline : opensContainer (dropReturn (u ++ v)) = false) :
    ∃ above' u', ended above ++ u ++ (blockPadBefore t n).render = ended above' ++ u' ∧
      (∀ l ∈ u' :: above', '\n' ∉ l) ∧ u'.allBlank ∧ blankAbove above' := by
  obtain ⟨habove, hrest⟩ := List.forall_mem_append.1 h.no_feed
  have hu : '\n' ∉ u := fun hm => hrest _ List.mem_cons_self (List.mem_append_left v hm)
  have hended (l : Text) : ended (above ++ [l]) = ended above ++ (l ++ ['\n']) := by
    rw [ended_append, ended_cons]
    rfl
  rw [h.blockPadBefore_eq, hline, if_neg Bool.false_ne_true]
  split
  · rename_i hblank
    split
    · rename_i hlast
      refine ⟨above, u ++ u, List.append_assoc _ _ _, List.forall_mem_cons.2 ⟨?_, habove⟩, ?_, hlast⟩
      · exact mt List.mem_append.1 (not_or.2 ⟨hu, hu⟩)
      · rw [allBlank, List.all_append, ← allBlank, hblank]
        rfl
    · refine ⟨above ++ [u], u, ?_, ?_, hblank, ?_⟩
      · rw [hended, Pad.render, List.append_assoc, List.append_assoc, List.append_assoc]
        rfl
      · exact List.forall_mem_cons.2 ⟨hu, List.forall_mem_append.2
          ⟨habove, List.forall_mem_singleton.2 hu⟩⟩
      · rw [blankAbove, List.getLast?_concat]
        exact hblank
  · refine ⟨above ++ [u] ++ [[]], [], ?_, ?_, rfl, ?_⟩
    · rw [ended_append, hended]
      simp only [List.append_assoc]
      rfl
    · refine List.forall_mem_cons.2 ⟨List.not_mem_nil, List.forall_mem_append.2 ⟨?_, ?_⟩⟩
      · exact List.forall_mem_append.2 ⟨habove, List.forall_mem_singleton.2 hu⟩
      · exact List.forall_mem_singleton.2 List.not_mem_nil
    · rw [blankAbove, List.getLast?_concat]
      rfl

theorem Divides.exists_padAfter (h : Divides t n above u v below) :
    ∃ v' below', (blockPadAfter t n).render ++ (v ++ begun below) = v' ++ begun below' ∧
      (∀ l ∈ v' :: below', '\n' ∉ l) ∧ v'.allBlank ∧ isolatedBelow below' := by
  obtain ⟨-, hrest⟩ := List.forall_mem_append.1 h.no_feed
  obtain ⟨hline, hbelow⟩ := List.forall_mem_cons.1 hrest
  have hv : '\n' ∉ v := fun hm => hline (List.mem_append_right u hm)
  have hlines : ∀ l ∈ v :: below, '\n' ∉ l := List.forall_mem_cons.2 ⟨hv, hbelow⟩
  have hempty : ∀ ls : List Text, (∀ l ∈ ls, '\n' ∉ l) → ∀ l ∈ ([] : Text) :: ls, '\n' ∉ l :=
    fun ls hls => List.forall_mem_cons.2 ⟨List.not_mem_nil, hls⟩
  rw [h.blockPadAfter_eq]
  split
  · rename_i hblank
    split
    · rename_i hfirst
      exact ⟨v, below, rfl, hlines, hblank, hfirst⟩
    · refine ⟨[], v :: below, rfl, hempty _ hlines, rfl, ?_⟩
      exact isolates_iff.2 (.inl ((allBlank_dropReturn v).trans hblank))
  · exact ⟨[], [] :: v :: below, rfl, hempty _ (hempty _ hlines), rfl, rfl⟩

theorem lineBefore_ended {above : List Text} {u : Text} (h : ∀ l ∈ u :: above, '\n' ∉ l)
    (rest : Text) : (ended above ++ u ++ rest).lineBefore (size (ended above ++ u)) = u := by
  obtain ⟨v, below, rfl, hv⟩ := exists_begun rest
  obtain ⟨hu, habove⟩ := List.forall_mem_cons.1 h
  obtain ⟨hv, hbelow⟩ := List.forall_mem_cons.1 hv
  have hdivides : Divides (ended above ++ u ++ (v ++ begun below)) (size (ended above ++ u)) above u v
      below := by
    refine ⟨rfl, rfl, List.forall_mem_append.2 ⟨habove, List.forall_mem_cons.2 ⟨?_, hbelow⟩⟩⟩
    exact mt List.mem_append.1 (not_or.2 ⟨hu, hv⟩)
  exact hdivides.lineBefore_eq

end Text

section

open Text (ended begun)

variable {document word : Text} {s : Span}

/-- The document with a word between the pads of a block in the place of the block. -/
def Span.padded (s : Span) (document word : Text) : Text :=
  s.filled document (padText word (some (blockPadding document s)))

/-- Where the word between the pads of a block starts. -/
def Span.behindPad (s : Span) (document : Text) : Nat :=
  s.start + (blockPadBefore document s.start).render.size

theorem Span.padded_eq {above above' below below' : List Text} {u u' v v' : Text}
    (hstart : document.Divides s.start above u v below)
    (hstop : document.Divides s.stop above' u' v' below') (word : Text) :
    s.padded document word = ended above ++ u ++ (blockPadBefore document s.start).render ++
        (word ++ ((blockPadAfter document s.stop).render ++ (v' ++ begun below'))) ∧
      s.behindPad document =
        Text.size (ended above ++ u ++ (blockPadBefore document s.start).render) := by
  have heq := hstart.text_eq.symm.trans hstop.text_eq
  have hfilled := Span.filled_append hstart.offset_eq hstop.offset_eq heq
    (padText word (some (blockPadding document s)))
  rw [← hstart.text_eq] at hfilled
  constructor
  · rw [Span.padded, hfilled]
    simp only [padText, Option.getD_some, blockPadding, Padding.left, Padding.right,
      List.append_assoc]
  · rw [Span.behindPad, hstart.offset_eq, ← Text.size_append]

/-- What stands for a block between its pads stands alone, unless a container opens on the line of
the block. -/
theorem standsAlone_padded (hs : s.FitsIn document) (hword : '\n' ∉ word)
    (hline : ∀ l, document.line? (document.position s.start).line = some l → ¬ OpensContainer l) :
    StandsAlone (s.padded document word) (s.behindPad document) word := by
  obtain ⟨above, u, v, below, hstart⟩ := Text.exists_divides hs.isBoundary_start
  obtain ⟨above₂, u₂, v₂, below₂, hstop⟩ := Text.exists_divides hs.isBoundary_stop
  obtain ⟨hpadded, hbehind⟩ := Span.padded_eq hstart hstop word
  rw [hstart.position_eq] at hline
  have hopens := hline _ hstart.line?_eq
  rw [← opensContainer_iff, Bool.not_eq_true] at hopens
  obtain ⟨above', u', hbefore, hlines, hu, habove⟩ := hstart.exists_padBefore hopens
  obtain ⟨v', below', hafter, hlines', hv, hbelow⟩ := hstop.exists_padAfter
  rw [hbefore] at hpadded hbehind
  rw [hafter] at hpadded
  have hdivides : Text.Divides (s.padded document word) (s.behindPad document) above' u'
      (word ++ v') below' := by
    obtain ⟨hu', habove'⟩ := List.forall_mem_cons.1 hlines
    obtain ⟨hv', hbelow'⟩ := List.forall_mem_cons.1 hlines'
    refine ⟨by rw [hpadded, List.append_assoc word], hbehind, ?_⟩
    refine List.forall_mem_append.2 ⟨habove', List.forall_mem_cons.2 ⟨?_, hbelow'⟩⟩
    simp only [List.mem_append, not_or]
    exact ⟨hu', hword, hv'⟩
  exact hdivides.standsAlone hu hv habove hbelow

/-- Below a line of text, on a line that ends in two characters and above a quotation. -/
theorem standsAlone_padded_fence :
    let document : Text := "text\r\n  ~~~\n  ~~~\r\n> q".toList
    let s : Span := ⟨8, 17⟩
    let word := "0f".toList
    s.FitsIn document ∧ s.padded document word = "text\r\n  \n  0f\r\n> q".toList ∧
      s.behindPad document = 11 ∧ '\n' ∉ word ∧
      StandsAlone (s.padded document word) (s.behindPad document) word := by
  intro document s word
  have hs : s.FitsIn document := by decide +kernel
  have hline : ∀ l, document.line? (document.position s.start).line = some l → ¬ OpensContainer l := by
    intro l hl
    have hread : document.line? (document.position s.start).line = some "  ~~~".toList := by
      decide +kernel
    rw [Option.some.inj (hl.symm.trans hread), ← opensContainer_iff]
    decide
  exact ⟨hs, by decide +kernel, by decide +kernel, by decide,
    standsAlone_padded hs (by decide) hline⟩

/-- A container opens on the line of a block, or there is text on the line above. -/
def KeepsIndent (document : Text) (line : Nat) : Prop :=
  (∃ l, document.line? line = some l ∧ OpensContainer l) ∨
    0 < line ∧ ¬ document.isBlankLine (line - 1)

theorem Text.Divides.keepsIndent_iff {t u v : Text} {n : Nat} {above below : List Text}
    (h : t.Divides n above u v below) :
    KeepsIndent t above.length ↔
      opensContainer (Text.dropReturn (u ++ v)) ∨ Text.blankAbove above = false := by
  rw [KeepsIndent, h.line?_eq, Text.blankAbove, ← h.blank_above, Bool.or_eq_false_iff,
    decide_eq_false_iff_not, Nat.pos_iff_ne_zero, Bool.not_eq_true, opensContainer_iff]
  simp only [Option.some.injEq, exists_eq_left']

theorem lineBefore_padded {above above' below below' : List Text} {u u' v v' : Text}
    (hstart : document.Divides s.start above u v below)
    (hstop : document.Divides s.stop above' u' v' below') (hu : u.allBlank) (word : Text) :
    (s.padded document word).lineBefore (s.behindPad document) =
      if opensContainer (Text.dropReturn (u ++ v)) = true ∨ Text.blankAbove above = false then u
      else u ++ u := by
  obtain ⟨hpadded, hbehind⟩ := Span.padded_eq hstart hstop word
  obtain ⟨habove, hline⟩ := List.forall_mem_append.1 hstart.no_feed
  have hfeed : '\n' ∉ u := fun hm => hline _ List.mem_cons_self (List.mem_append_left v hm)
  rw [hpadded, hbehind, hstart.blockPadBefore_eq, hu, if_pos rfl]
  by_cases hopens : opensContainer (Text.dropReturn (u ++ v))
  · rw [if_pos hopens, if_pos (.inl hopens), Pad.render, Text.repeated, List.replicate_zero,
      List.append_nil]
    exact Text.lineBefore_ended (List.forall_mem_cons.2 ⟨hfeed, habove⟩) _
  · rw [if_neg hopens]
    cases hlast : Text.blankAbove above with
    | true =>
      rw [if_pos rfl, if_neg (by simp [hopens]), Pad.render, List.append_assoc (ended above)]
      refine Text.lineBefore_ended (List.forall_mem_cons.2 ⟨?_, habove⟩) _
      exact mt List.mem_append.1 (not_or.2 ⟨hfeed, hfeed⟩)
    | false =>
      have hended : ended above ++ u ++ '\n' :: u = ended (above ++ [u]) ++ u := by
        rw [Text.ended_append, Text.ended_cons]
        simp only [List.append_assoc]
        rfl
      rw [if_neg Bool.false_ne_true, if_pos (.inr rfl), Pad.render, hended]
      refine Text.lineBefore_ended (List.forall_mem_cons.2 ⟨hfeed, ?_⟩) _
      exact List.forall_mem_append.2 ⟨habove, List.forall_mem_singleton.2 hfeed⟩

/-- The pad before a block repeats its indentation, on a line of its own below a line of text, but on
the line of the block itself elsewhere. So what stands for the block is indented as the block was
exactly below a line of text and in a container that opens there, or if the block is not indented. -/
theorem indentation_doubled_unless_kept (hs : s.FitsIn document)
    (hblank : (document.lineBefore s.start).allBlank) (word : Text) :
    let indent := document.lineBefore s.start
    let kept := KeepsIndent document (document.position s.start).line
    let indent' := (s.padded document word).lineBefore (s.behindPad document)
    (kept → indent' = indent) ∧ (¬ kept → indent' = indent ++ indent) ∧
      (indent' = indent ↔ indent = [] ∨ kept) := by
  intro indent kept indent'
  obtain ⟨above, u, v, below, hstart⟩ := Text.exists_divides hs.isBoundary_start
  obtain ⟨above₂, u₂, v₂, below₂, hstop⟩ := Text.exists_divides hs.isBoundary_stop
  have hindent : indent = u := hstart.lineBefore_eq
  have hkept : kept ↔ opensContainer (Text.dropReturn (u ++ v)) ∨ Text.blankAbove above = false := by
    rw [← hstart.keepsIndent_iff]
    change KeepsIndent document (document.position s.start).line ↔ _
    rw [hstart.position_eq]
  rw [hstart.lineBefore_eq] at hblank
  have hindent' := lineBefore_padded hstart hstop hblank word
  by_cases hk : kept
  · rw [if_pos (hkept.1 hk), ← hindent] at hindent'
    exact ⟨fun _ => hindent', fun hnot => absurd hk hnot, iff_of_true hindent' (.inr hk)⟩
  · rw [if_neg (mt hkept.2 hk), ← hindent] at hindent'
    refine ⟨fun h => absurd h hk, fun _ => hindent', ?_⟩
    rw [or_iff_left hk]
    change (s.padded document word).lineBefore (s.behindPad document) = _ at hindent'
    change (s.padded document word).lineBefore (s.behindPad document) = _ ↔ _
    rw [hindent', List.append_right_eq_self]

/-- At the start of a document two columns become four. -/
theorem indentation_doubled_unless_kept_fence :
    let document : Text := "  ~~~\n  ~~~".toList
    let s : Span := ⟨2, 11⟩
    let word := "0f".toList
    s.FitsIn document ∧ (document.lineBefore s.start).allBlank ∧
      document.lineBefore s.start = "  ".toList ∧ s.padded document word = "    0f".toList ∧
      ¬ KeepsIndent document (document.position s.start).line ∧
      (s.padded document word).lineBefore (s.behindPad document) = "    ".toList := by
  intro document s word
  have hs : s.FitsIn document := by decide +kernel
  have hindent : document.lineBefore s.start = "  ".toList := by decide +kernel
  have hblank : (document.lineBefore s.start).allBlank := by decide +kernel
  obtain ⟨-, hdoubled, -⟩ := indentation_doubled_unless_kept hs hblank word
  have hnot : ¬ KeepsIndent document (document.position s.start).line := by
    rintro (⟨l, hl, hopens⟩ | ⟨hpos, -⟩)
    · have hread : document.line? (document.position s.start).line = some "  ~~~".toList := by
        decide +kernel
      rw [Option.some.inj (hl.symm.trans hread), ← opensContainer_iff] at hopens
      revert hopens
      decide
    · revert hpos
      decide +kernel
  rw [hindent] at hdoubled
  exact ⟨hs, hblank, hindent, by decide +kernel, hnot, hdoubled hnot⟩

end

end Cloak
