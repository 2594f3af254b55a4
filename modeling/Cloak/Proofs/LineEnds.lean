import Cloak.Proofs.Enclosure
import Cloak.Proofs.Masking

namespace Cloak

open Unclosed (inSome)

/-- A line feed or a carriage return stands at a byte offset. -/
def Text.LineEndAt (t : Text) (n : Nat) : Prop :=
  t.bytes[n]? = some 10 ∨ t.bytes[n]? = some 13

instance (t : Text) (n : Nat) : Decidable (t.LineEndAt n) :=
  inferInstanceAs (Decidable (_ ∨ _))

theorem Text.lineEndAt_iff {t : Text} {n : Nat} :
    t.LineEndAt n ↔ ∃ b, t.bytes[n]? = some b ∧ (b = 10 ∨ b = 13) := by
  constructor
  · rintro (h | h)
    · exact ⟨10, h, .inl rfl⟩
    · exact ⟨13, h, .inr rfl⟩
  · rintro ⟨b, h, rfl | rfl⟩
    · exact .inl h
    · exact .inr h

def isLineEnd (c : Char) : Bool :=
  c == '\n' || c == '\r'

theorem isLineEnd_of_mem_utf8EncodeChar {c : Char} {b : UInt8} (h : b ∈ String.utf8EncodeChar c) :
    isLineEnd c ↔ b = 10 ∨ b = 13 := by
  constructor
  · intro hc
    rw [isLineEnd, Bool.or_eq_true, beq_iff_eq, beq_iff_eq] at hc
    rcases hc with rfl | rfl
    · exact .inl (List.mem_singleton.1 h)
    · exact .inr (List.mem_singleton.1 h)
  · rintro (rfl | rfl)
    · rw [(Text.utf8EncodeChar_of_mem h (by decide)).2]
      rfl
    · rw [(Text.utf8EncodeChar_of_mem h (by decide)).2]
      rfl

/-- The end of a range is moved to an offset behind which, and not before which, only line endings
stand in the range. -/
structure TrimmedTo (document : Text) (s : Span) (n : Nat) : Prop where
  start_le : s.start ≤ n
  le_stop : n ≤ s.stop
  lineEndAt : ∀ i, n ≤ i → i < s.stop → document.LineEndAt i
  not_lineEndAt : s.start < n → ¬ document.LineEndAt (n - 1)

theorem TrimmedTo.eq {d d' : Text} {s : Span} {n n' : Nat} (h : TrimmedTo d s n)
    (h' : TrimmedTo d' s n') (hends : ∀ i, d.LineEndAt i ↔ d'.LineEndAt i) : n = n' := by
  rcases Nat.lt_trichotomy n n' with hlt | heq | hlt
  · have hstart := h.start_le
    have hstop := h'.le_stop
    have hend := h.lineEndAt (n' - 1) (by omega) (by omega)
    exact absurd ((hends _).1 hend) (h'.not_lineEndAt (by omega))
  · exact heq
  · have hstart := h'.start_le
    have hstop := h.le_stop
    have hend := h'.lineEndAt (n - 1) (by omega) (by omega)
    exact absurd ((hends _).2 hend) (h.not_lineEndAt (by omega))

theorem exists_withoutLineEnds {document : Text} {s : Span} (h : s.FitsIn document) :
    ∃ n, withoutLineEnds document s = ⟨s.start, n⟩ ∧ document.isBoundary n ∧
      TrimmedTo document s n := by
  have hword := h.wordAt
  have hsize := h.size_text
  have horder := h.start_le
  have htrim : withoutLineEnds document s =
      ⟨s.start, s.start + Text.size (Text.trimEndBy isLineEnd (s.text document))⟩ := rfl
  have hlast (c : Char) (hc : c ∈ (Text.trimEndBy isLineEnd (s.text document)).getLast?) :
      isLineEnd c = false := Text.eq_false_of_mem_getLast?_trimEndBy hc
  obtain ⟨ending, hsplit, hending⟩ := Text.exists_trimEndBy_append isLineEnd (s.text document)
  generalize Text.trimEndBy isLineEnd (s.text document) = kept at hsplit htrim hlast
  rw [hsplit] at hword hsize
  obtain ⟨hat, hbehind⟩ := hword.of_append
  rw [Text.size_append] at hsize
  refine ⟨s.start + kept.size, htrim, hat.isBoundary_add, Nat.le_add_right _ _, by omega, ?_, ?_⟩
  · intro i hi hlt
    have hbyte := hbehind.getElem?_bytes hi (by omega)
    obtain ⟨b, hb⟩ : ∃ b, (Text.bytes ending)[i - (s.start + kept.size)]? = some b := by
      rw [← Option.isSome_iff_exists, isSome_getElem?, Text.length_bytes]
      omega
    obtain ⟨c, hc, hmem⟩ := List.mem_flatMap.1 (List.mem_of_getElem? hb)
    exact Text.lineEndAt_iff.2
      ⟨b, hbyte.symm.trans hb, (isLineEnd_of_mem_utf8EncodeChar hmem).1 (hending c hc)⟩
  · intro hlt hend
    rcases List.eq_nil_or_concat kept with rfl | ⟨l, c, rfl⟩
    · rw [Text.size_nil] at hlt
      omega
    · rw [List.concat_eq_append] at hlt hend hat hlast
      have hc := c.utf8Size_pos
      rw [Text.size_append_singleton] at hlt hend
      obtain ⟨b, hb, hends⟩ := Text.lineEndAt_iff.1 hend
      have hbyte := hat.of_append.2.getElem?_bytes (i := s.start + (Text.size l + c.utf8Size) - 1)
        (by omega) (by rw [Text.size_cons, Text.size_nil]; omega)
      rw [hb, Text.bytes_cons, Text.bytes_nil, List.append_nil] at hbyte
      have hend := (isLineEnd_of_mem_utf8EncodeChar (List.mem_of_getElem? hbyte)).2 hends
      rw [hlast c (by rw [List.getLast?_concat]; rfl)] at hend
      cases hend

def lineHead (document : Text) (offset : Nat) : Text :=
  (((document.before? offset).getD []).reverse.takeWhile (· != '\n')).reverse

def lineStart (document : Text) (offset : Nat) : Nat :=
  offset - Text.size (lineHead document offset)

/-- A line starts at an offset and goes on up to another one. -/
structure StartsLine (document : Text) (offset n : Nat) : Prop where
  le : n ≤ offset
  no_feed : ∀ i, n ≤ i → i < offset → document.bytes[i]? ≠ some 10
  feed : 0 < n → document.bytes[n - 1]? = some 10

theorem StartsLine.eq {d d' : Text} {offset n n' : Nat} (h : StartsLine d offset n)
    (h' : StartsLine d' offset n')
    (hfeed : ∀ i : Nat, d.bytes[i]? = some 10 ↔ d'.bytes[i]? = some 10) : n = n' := by
  rcases Nat.lt_trichotomy n n' with hlt | heq | hlt
  · have hle := h'.le
    exact absurd ((hfeed _).2 (h'.feed (by omega))) (h.no_feed (n' - 1) (by omega) (by omega))
  · exact heq
  · have hle := h.le
    exact absurd ((hfeed _).1 (h.feed (by omega))) (h'.no_feed (n - 1) (by omega) (by omega))

theorem not_mem_bytes_of_ne {t : Text} (h : ∀ c ∈ t, c ≠ '\n') : 10 ∉ Text.bytes t := by
  intro hmem
  obtain ⟨c, hc, hb⟩ := List.mem_flatMap.1 hmem
  exact h c hc (Text.utf8EncodeChar_of_mem hb (by decide)).2

theorem exists_lineHead {document : Text} {offset : Nat} (hb : document.isBoundary offset) :
    ∃ a b, document = a ++ (lineHead document offset ++ b) ∧
      offset = a.size + (lineHead document offset).size ∧
      (∀ c ∈ lineHead document offset, c ≠ '\n') ∧ ∀ c ∈ a.getLast?, c = '\n' := by
  obtain ⟨l, b, rfl, rfl⟩ := Text.isBoundary_iff.1 hb
  have hhead : lineHead (l ++ b) l.size = (l.reverse.takeWhile (· != '\n')).reverse := by
    rw [lineHead, Text.before?_append, Option.getD_some]
  have hsplit : l = (l.reverse.dropWhile (· != '\n')).reverse ++ lineHead (l ++ b) l.size := by
    rw [hhead, ← List.reverse_append, List.takeWhile_append_dropWhile, List.reverse_reverse]
  refine ⟨(l.reverse.dropWhile (· != '\n')).reverse, b, ?_, ?_, ?_, ?_⟩
  · rw [← List.append_assoc, ← hsplit]
  · rw [← Text.size_append, ← hsplit]
  · rw [hhead]
    intro c hc
    exact bne_iff_ne.1 (Text.of_mem_takeWhile (p := (· != '\n')) (List.mem_reverse.1 hc))
  · rw [List.getLast?_reverse]
    intro c hc
    have hstop := Text.stopsBy_dropWhile (· != '\n') l.reverse c hc
    rw [bne_eq_false_iff_eq] at hstop
    exact hstop

theorem lineStart_spec {document : Text} {offset : Nat} (hb : document.isBoundary offset) :
    document.isBoundary (lineStart document offset) ∧
      (⟨lineStart document offset, offset⟩ : Span).text document = lineHead document offset ∧
      StartsLine document offset (lineStart document offset) := by
  obtain ⟨a, b, hd, hsize, hhead, ha⟩ := exists_lineHead hb
  have hstart : lineStart document offset = a.size := by
    rw [lineStart]
    omega
  rw [hstart]
  generalize lineHead document offset = head at hd hsize hhead
  subst hd hsize
  have hword : (a ++ (head ++ b)).WordAt a.size head := ⟨a, b, rfl, rfl⟩
  refine ⟨hword.isBoundary, ?_, Nat.le_add_right _ _, ?_, ?_⟩
  · rw [Span.text, Text.slice, Text.slice?_append, Option.getD_some]
  · intro i hi hlt hbyte
    rw [← hword.getElem?_bytes hi hlt] at hbyte
    exact not_mem_bytes_of_ne hhead (List.mem_of_getElem? hbyte)
  · intro hpos
    rcases List.eq_nil_or_concat a with rfl | ⟨l, c, rfl⟩
    · exact absurd hpos (Nat.lt_irrefl 0)
    · rw [List.concat_eq_append, List.getLast?_concat] at ha
      obtain rfl := ha c rfl
      rw [List.concat_eq_append, Text.size_append_singleton, List.append_assoc]
      exact (Text.getElem?_bytes_eq_some_iff (b := 10) (by decide)).2 ⟨l, head ++ b, rfl, rfl⟩

theorem indentedStart_eq (document : Text) (start : Nat) :
    indentedStart document start =
      if Text.allBlank (lineHead document start) then lineStart document start else start :=
  rfl

end Cloak
