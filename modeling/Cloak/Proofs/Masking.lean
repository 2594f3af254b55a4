import Cloak.Node.Parse
import Cloak.Proofs.Bytes
import Cloak.Proofs.Outermost

namespace Cloak

open Unclosed (inSome)

def blotByte (b : UInt8) : UInt8 :=
  if b = 10 then 10 else 120

theorem bytes_replicate_x (n : Nat) : Text.bytes (Text.repeated n 'x') = List.replicate n 120 := by
  induction n with
  | zero => rfl
  | succ n ih =>
    rw [Text.repeated] at ih ⊢
    rw [List.replicate_succ, Text.bytes_cons, ih]
    rfl

theorem bytes_blot (t : Text) : Text.bytes (blot t) = t.bytes.map blotByte := by
  induction t with
  | nil => rfl
  | cons c t ih =>
    rw [blot, Text.bytes_append, ih, Text.bytes_cons, List.map_append]
    congr 1
    split
    · rename_i hc
      rw [hc]
      rfl
    · rename_i hc
      have hx : ∀ b ∈ String.utf8EncodeChar c, blotByte b = 120 := by
        intro b hb
        refine if_neg ?_
        rintro rfl
        exact hc (Text.utf8EncodeChar_of_mem hb (by decide)).2
      rw [bytes_replicate_x, ← String.length_utf8EncodeChar, ← List.map_const']
      exact (List.map_congr_left hx).symm

def maskByte (spans : List Span) (i : Nat) (b : UInt8) : UInt8 :=
  if inSome spans i then blotByte b else b

theorem Span.holds_iff {s : Span} {i : Nat} : s.holds i ↔ s.start ≤ i ∧ i < s.stop := by
  simp only [holds, Bool.and_eq_true, decide_eq_true_eq]

theorem inSome_iff {spans : List Span} {i : Nat} : inSome spans i ↔ ∃ s ∈ spans, s.holds i :=
  List.any_eq_true

theorem not_inSome_of_lt {kept : List Span} {reached i : Nat} (hc : Consecutive id reached kept)
    (hle : ∀ s ∈ kept, s.start ≤ s.stop) (hi : i < reached) : ¬ inSome kept i := by
  rintro h
  obtain ⟨s, hs, hold⟩ := inSome_iff.1 h
  have hr : reached ≤ s.start := hc.start_le hle s hs
  have hstart := (Span.holds_iff.1 hold).1
  omega

theorem maskByte_of_not_inSome {spans : List Span} {i : Nat} (h : ¬ inSome spans i) :
    maskByte spans i = id :=
  funext fun _ => if_neg h

theorem maskByte_of_holds {s : Span} {spans : List Span} {i : Nat} (hs : s ∈ spans)
    (h : s.holds i) : maskByte spans i = blotByte :=
  funext fun _ => if_pos (inSome_iff.2 ⟨s, hs, h⟩)

theorem maskByte_cons {s : Span} {spans : List Span} {i : Nat} (h : ¬ s.holds i) :
    maskByte (s :: spans) i = maskByte spans i := by
  have hin : inSome (s :: spans) i = inSome spans i := by
    rw [inSome, List.any_cons, Bool.eq_false_iff.2 h, Bool.false_or]
    rfl
  funext b
  rw [maskByte, maskByte, hin]

theorem getElem?_bytes_maskFrom {document : Text} {reached i : Nat} {kept : List Span}
    (hr : document.isBoundary reached) (hc : Consecutive id reached kept)
    (hf : ∀ s ∈ kept, s.FitsIn document) (hi : reached ≤ i) :
    (Text.bytes (maskFrom document reached kept))[i - reached]? =
      document.bytes[i]?.map (maskByte kept i) := by
  induction kept generalizing reached with
  | nil =>
    obtain ⟨a, c, rfl, rfl⟩ := Text.isBoundary_iff.1 hr
    have hid : maskByte [] i = id := rfl
    rw [maskFrom, Text.from?_append, Option.getD_some, Text.bytes_append, hid, Option.map_id,
      List.getElem?_append_right, Text.length_bytes, id]
    rw [Text.length_bytes]
    exact hi
  | cons s kept ih =>
    obtain ⟨hle, hc⟩ := hc
    change reached ≤ s.start at hle
    have hs := hf s List.mem_cons_self
    have horder := hs.start_le
    have hf' : ∀ s ∈ kept, s.FitsIn document := fun s' hs' => hf s' (List.mem_cons_of_mem s hs')
    have hgap : (⟨reached, s.start⟩ : Span).FitsIn document :=
      Span.fitsIn_of_isBoundary hle hr hs.isBoundary_start
    have hgapLength : (Text.bytes (document.slice reached s.start)).length = s.start - reached := by
      rw [Text.length_bytes]
      exact hgap.size_text
    have hlength : (Text.bytes (blot (s.text document))).length = s.stop - s.start := by
      rw [bytes_blot, List.length_map, Text.length_bytes, hs.size_text]
    rw [maskFrom, Text.bytes_append, Text.bytes_append, List.append_assoc]
    by_cases hbefore : i < s.start
    · have hnot : ¬ inSome (s :: kept) i :=
        not_inSome_of_lt ⟨Nat.le_refl s.start, hc⟩ (fun k hk => (hf k hk).start_le)
          hbefore
      rw [maskByte_of_not_inSome hnot, Option.map_id, List.getElem?_append_left (by omega)]
      exact hgap.getElem?_bytes_text hi hbefore
    · have hstart : s.start ≤ i := Nat.le_of_not_lt hbefore
      have hshift : i - reached - (s.start - reached) = i - s.start := by omega
      rw [List.getElem?_append_right (by omega), hgapLength, hshift]
      by_cases hin : i < s.stop
      · rw [maskByte_of_holds List.mem_cons_self (Span.holds_iff.2 ⟨hstart, hin⟩),
          List.getElem?_append_left (by omega), bytes_blot, List.getElem?_map,
          hs.getElem?_bytes_text hstart hin]
      · have hnot : ¬ s.holds i := fun h => hin (Span.holds_iff.1 h).2
        have hshift' : i - s.start - (s.stop - s.start) = i - s.stop := by omega
        rw [maskByte_cons hnot, List.getElem?_append_right (by omega), hlength, hshift']
        exact ih hs.isBoundary_stop hc hf' (Nat.le_of_not_lt hin)

theorem fitsIn_of_mem_outermost {document : Text} {spans : List Span}
    (hf : ∀ s ∈ spans, s.FitsIn document) : ∀ s ∈ outermost id spans, s.FitsIn document :=
  fun s hs => hf s (mem_of_mem_outermost hs)

theorem getElem?_bytes_mask {document : Text} {spans : List Span}
    (hf : ∀ s ∈ spans, s.FitsIn document) (i : Nat) :
    (Text.bytes (mask document spans))[i]? =
      document.bytes[i]?.map (maskByte (outermost id spans) i) :=
  getElem?_bytes_maskFrom document.isBoundary_zero (outermost_consecutive id spans)
    (fitsIn_of_mem_outermost hf) (Nat.zero_le i)

/-- A character that masking neither keeps nor puts in the place of what is hidden. -/
def IsVisible (c : Char) : Prop :=
  c.toNat < 128 ∧ c ≠ '\n' ∧ c ≠ 'x'

instance (c : Char) : Decidable (IsVisible c) :=
  inferInstanceAs (Decidable (_ ∧ _))

section

variable {document : Text} {spans : List Span} {n : Nat}

theorem charAt_of_mask (hf : ∀ s ∈ spans, s.FitsIn document) {c : Char} (hc : IsVisible c)
    (h : Text.WordAt (mask document spans) n [c]) :
    document.WordAt n [c] ∧ ¬ inSome (outermost id spans) n := by
  obtain ⟨hlt, hne, hx⟩ := hc
  obtain ⟨b, hb, rfl⟩ : ∃ b : UInt8, b < 128 ∧ c = Char.ofNat b.toNat := by
    have hto : (UInt8.ofNat c.toNat).toNat = c.toNat := by
      rw [UInt8.toNat_ofNat', Nat.mod_eq_of_lt (Nat.lt_trans hlt (by decide))]
    refine ⟨UInt8.ofNat c.toNat, ?_, ?_⟩
    · rw [UInt8.lt_iff_toNat_lt, hto]
      exact hlt
    · rw [hto, Char.ofNat_toNat]
  have hm := (Text.getElem?_bytes_eq_some_iff hb).2 h
  rw [getElem?_bytes_mask hf] at hm
  obtain ⟨b', hb', hmask⟩ := Option.map_eq_some_iff.1 hm
  have hnot : ¬ inSome (outermost id spans) n := by
    intro hin
    rw [maskByte, if_pos hin, blotByte] at hmask
    split at hmask
    · rw [← hmask] at hne
      exact hne rfl
    · rw [← hmask] at hx
      exact hx rfl
  rw [maskByte_of_not_inSome hnot, id] at hmask
  subst hmask
  exact ⟨(Text.getElem?_bytes_eq_some_iff hb).1 hb', hnot⟩

theorem utf8Size_of_isVisible {c : Char} (hc : IsVisible c) : c.utf8Size = 1 := by
  have hlt : c.val.toNat ≤ 127 := Nat.le_of_lt_succ hc.1
  exact Char.utf8Size_eq_one_iff.2 (UInt32.le_iff_toNat_le.2 hlt)

theorem wordAt_of_mask (hf : ∀ s ∈ spans, s.FitsIn document) {word : Text}
    (hv : ∀ c ∈ word, IsVisible c) (hne : word ≠ [])
    (h : Text.WordAt (mask document spans) n word) :
    document.WordAt n word ∧
      ∀ i, n ≤ i → i < n + word.size → ¬ inSome (outermost id spans) i := by
  induction word generalizing n with
  | nil => exact absurd rfl hne
  | cons c word ih =>
    obtain ⟨hc, hv⟩ := List.forall_mem_cons.1 hv
    obtain ⟨hhead, htail⟩ := Text.wordAt_cons.1 h
    obtain ⟨hat, hnot⟩ := charAt_of_mask hf hc hhead
    have hone := utf8Size_of_isVisible hc
    by_cases hnil : word = []
    · subst hnil
      refine ⟨hat, ?_⟩
      intro i hle hlt
      rw [Text.size_cons, Text.size_nil] at hlt
      have hi : i = n := by omega
      rw [hi]
      exact hnot
    · obtain ⟨hword, hrest⟩ := ih hv hnil htail
      refine ⟨Text.wordAt_cons.2 ⟨hat, hword⟩, ?_⟩
      intro i hle hlt
      rw [Text.size_cons] at hlt
      by_cases hi : i = n
      · rw [hi]
        exact hnot
      · exact hrest i (by omega) (by omega)

end

end Cloak
