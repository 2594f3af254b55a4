import Cloak.Proofs.Slice

namespace Cloak

namespace Text

/-- The UTF-8 form of a text. -/
def bytes (t : Text) : List UInt8 :=
  t.flatMap String.utf8EncodeChar

@[simp] theorem bytes_nil : bytes [] = [] := rfl

@[simp] theorem bytes_cons (c : Char) (t : Text) :
    bytes (c :: t) = String.utf8EncodeChar c ++ bytes t :=
  List.flatMap_cons

@[simp] theorem bytes_append (a b : Text) : bytes (a ++ b) = bytes a ++ bytes b :=
  List.flatMap_append

@[simp] theorem length_bytes (t : Text) : (bytes t).length = t.size := by
  induction t with
  | nil => rfl
  | cons c t ih => rw [bytes_cons, List.length_append, ih, String.length_utf8EncodeChar, size_cons]

theorem bytes_inj {a b : Text} (h : bytes a = bytes b) : a = b := by
  have he : List.utf8Encode a = List.utf8Encode b := by
    rw [List.utf8Encode, List.utf8Encode]
    exact congrArg List.toByteArray h
  have hd := List.utf8Decode?_utf8Encode (l := a)
  rw [he, List.utf8Decode?_utf8Encode] at hd
  exact (congrArg Array.toList (Option.some.inj hd)).symm

theorem utf8EncodeChar_of_mem {c : Char} {b : UInt8} (h : b ∈ String.utf8EncodeChar c)
    (hb : b < 128) : String.utf8EncodeChar c = [b] ∧ c = Char.ofNat b.toNat := by
  have hlt : b.toNat < 128 := UInt8.lt_iff_toNat_lt.1 hb
  -- the bytes of a longer form are 128 or more
  have high {n : Nat} (hn : 128 ≤ n) (hn' : n < 256) : b ≠ UInt8.ofNat n := by
    rintro rfl
    rw [UInt8.toNat_ofNat_of_lt' hn'] at hlt
    omega
  unfold String.utf8EncodeChar at h ⊢
  by_cases hv : c.val.toNat ≤ 127
  · simp only [hv, if_true, List.mem_singleton] at h ⊢
    subst h
    refine ⟨rfl, ?_⟩
    rw [UInt8.toNat_ofNat', Nat.mod_eq_of_lt (Nat.lt_of_le_of_lt hv (by decide))]
    exact (Char.ofNat_toNat c).symm
  · exfalso
    simp only [hv, if_false] at h
    split at h
    · simp only [List.mem_cons, List.not_mem_nil, or_false] at h
      rcases h with h | h <;> exact high (by omega) (by omega) h
    · split at h
      · simp only [List.mem_cons, List.not_mem_nil, or_false] at h
        rcases h with h | h | h <;> exact high (by omega) (by omega) h
      · simp only [List.mem_cons, List.not_mem_nil, or_false] at h
        rcases h with h | h | h | h <;> exact high (by omega) (by omega) h

theorem utf8EncodeChar_ofNat {b : UInt8} (hb : b < 128) :
    String.utf8EncodeChar (Char.ofNat b.toNat) = [b] := by
  have hlt : b.toNat < 128 := UInt8.lt_iff_toNat_lt.1 hb
  have hval : (Char.ofNat b.toNat).val.toNat = b.toNat := by
    have hvalid : b.toNat.isValidChar := .inl (by omega)
    rw [Char.ofNat, dif_pos hvalid]
    rfl
  unfold String.utf8EncodeChar
  simp only [hval, Nat.le_of_lt_succ hlt, if_true, UInt8.ofNat_toNat]

/-- A byte below 128 stands in a text where its character stands. -/
theorem getElem?_bytes_eq_some_iff {t : Text} {n : Nat} {b : UInt8} (hb : b < 128) :
    (bytes t)[n]? = some b ↔ WordAt t n [Char.ofNat b.toNat] := by
  constructor
  · intro h
    induction t generalizing n with
    | nil => cases h
    | cons d t ih =>
      rw [bytes_cons] at h
      by_cases hn : n < (String.utf8EncodeChar d).length
      · rw [List.getElem?_append_left hn] at h
        obtain ⟨hd, rfl⟩ := utf8EncodeChar_of_mem (List.mem_of_getElem? h) hb
        rw [hd, List.length_singleton] at hn
        obtain rfl : n = 0 := by omega
        exact ⟨[], t, rfl, rfl⟩
      · rw [List.getElem?_append_right (Nat.le_of_not_lt hn)] at h
        obtain ⟨a, c, rfl, hsize⟩ := ih h
        rw [String.length_utf8EncodeChar] at hn hsize
        refine ⟨d :: a, c, rfl, ?_⟩
        rw [size_cons]
        omega
  · rintro ⟨a, c, rfl, rfl⟩
    rw [bytes_append, List.getElem?_append_right (Nat.le_of_eq (length_bytes a)), length_bytes,
      Nat.sub_self, bytes_append, bytes_cons, utf8EncodeChar_ofNat hb]
    rfl

theorem WordAt.getElem?_bytes {t word : Text} {n i : Nat} (h : t.WordAt n word) (hi : n ≤ i)
    (hlt : i < n + word.size) : (bytes word)[i - n]? = (bytes t)[i]? := by
  obtain ⟨a, b, rfl, rfl⟩ := h
  rw [bytes_append, bytes_append, List.getElem?_append_right, List.getElem?_append_left,
    length_bytes]
  · rw [length_bytes, length_bytes]
    omega
  · rw [length_bytes]
    exact hi

end Text

namespace Span

theorem FitsIn.size_text {s : Span} {document : Text} (h : s.FitsIn document) :
    Text.size (s.text document) = s.stop - s.start := by
  obtain ⟨a, c, -, hstart, hstop⟩ := h.exists_append
  omega

theorem FitsIn.wordAt {s : Span} {document : Text} (h : s.FitsIn document) :
    document.WordAt s.start (s.text document) := by
  obtain ⟨a, c, hd, hstart, -⟩ := h.exists_append
  exact ⟨a, c, hd, hstart⟩

theorem FitsIn.getElem?_bytes_text {s : Span} {document : Text} {i : Nat} (h : s.FitsIn document)
    (hstart : s.start ≤ i) (hstop : i < s.stop) :
    (Text.bytes (s.text document))[i - s.start]? = document.bytes[i]? := by
  refine h.wordAt.getElem?_bytes hstart ?_
  rw [h.size_text]
  omega

theorem text_eq_of_bytes {s : Span} {d d' : Text} (h : s.FitsIn d) (h' : s.FitsIn d')
    (hb : ∀ i, s.start ≤ i → i < s.stop → d.bytes[i]? = d'.bytes[i]?) : s.text d = s.text d' := by
  apply Text.bytes_inj
  apply List.ext_getElem?
  intro i
  by_cases hi : s.start + i < s.stop
  · have hd := h.getElem?_bytes_text (Nat.le_add_right _ _) hi
    have hd' := h'.getElem?_bytes_text (Nat.le_add_right _ _) hi
    rw [Nat.add_sub_cancel_left] at hd hd'
    rw [hd, hd']
    exact hb _ (Nat.le_add_right _ _) hi
  · rw [List.getElem?_eq_none, List.getElem?_eq_none]
    · rw [Text.length_bytes, h'.size_text]
      omega
    · rw [Text.length_bytes, h.size_text]
      omega

end Span

end Cloak
