namespace Cloak

/-- A text is the list of its characters. -/
abbrev Text := List Char

namespace Text

/-- The number of bytes of a text in UTF-8. -/
def size : Text → Nat
  | [] => 0
  | c :: cs => c.utf8Size + size cs

@[simp] theorem size_nil : size [] = 0 := rfl

@[simp] theorem size_cons (c : Char) (t : Text) : size (c :: t) = c.utf8Size + size t := rfl

@[simp] theorem size_append (a b : Text) : size (a ++ b) = size a + size b := by
  induction a with
  | nil => simp
  | cons c a ih => simp only [List.cons_append, size_cons, ih, Nat.add_assoc]

theorem size_eq_zero_iff {t : Text} : size t = 0 ↔ t = [] := by
  cases t with
  | nil => simp
  | cons c t =>
    have hc := c.utf8Size_pos
    simp only [size_cons, reduceCtorEq, iff_false]
    omega

/-- The parts of a text before and from a byte offset, if the offset is a character boundary. -/
def splitAt? : Text → Nat → Option (Text × Text)
  | t, 0 => some ([], t)
  | [], _ + 1 => none
  | c :: cs, n + 1 =>
    if c.utf8Size ≤ n + 1 then
      (splitAt? cs (n + 1 - c.utf8Size)).map fun parts => (c :: parts.1, parts.2)
    else none

@[simp] theorem splitAt?_zero (t : Text) : splitAt? t 0 = some ([], t) := by
  cases t <;> rfl

theorem splitAt?_cons_add (c : Char) (t : Text) (n : Nat) :
    splitAt? (c :: t) (c.utf8Size + n) =
      (splitAt? t n).map fun parts => (c :: parts.1, parts.2) := by
  obtain ⟨m, hm⟩ : ∃ m, c.utf8Size + n = m + 1 :=
    ⟨c.utf8Size + n - 1, by have hc := c.utf8Size_pos; omega⟩
  have hn : m + 1 - c.utf8Size = n := by omega
  rw [hm, splitAt?, if_pos (by omega), hn]

theorem splitAt?_append (a b : Text) : splitAt? (a ++ b) (size a) = some (a, b) := by
  induction a with
  | nil => exact splitAt?_zero b
  | cons c a ih => rw [List.cons_append, size_cons, splitAt?_cons_add, ih, Option.map_some]

theorem eq_append_of_splitAt? {t a b : Text} {n : Nat} (h : splitAt? t n = some (a, b)) :
    t = a ++ b ∧ n = size a := by
  induction t generalizing n a with
  | nil =>
    cases n with
    | zero => simp_all
    | succ n => cases h
  | cons c t ih =>
    cases n with
    | zero =>
      obtain ⟨rfl, rfl⟩ : [] = a ∧ c :: t = b := by simpa using h
      exact ⟨rfl, rfl⟩
    | succ n =>
      rw [splitAt?] at h
      split at h
      · rename_i hc
        obtain ⟨⟨a', b'⟩, hs, he⟩ := Option.map_eq_some_iff.1 h
        obtain ⟨rfl, rfl⟩ := Prod.mk.inj he
        obtain ⟨rfl, hn⟩ := ih hs
        exact ⟨rfl, by simp only [size_cons]; omega⟩
      · cases h

theorem splitAt?_eq_some_iff {t a b : Text} {n : Nat} :
    splitAt? t n = some (a, b) ↔ t = a ++ b ∧ n = size a := by
  constructor
  · exact eq_append_of_splitAt?
  · rintro ⟨rfl, rfl⟩
    exact splitAt?_append a b

/-- An offset is a boundary when no character straddles it and the text reaches it. -/
def isBoundary (t : Text) (offset : Nat) : Bool :=
  (splitAt? t offset).isSome

/-- The part of a text before a byte offset, if the offset is a character boundary. -/
def before? (t : Text) (offset : Nat) : Option Text :=
  (splitAt? t offset).map Prod.fst

/-- The part of a text from a byte offset on, if the offset is a character boundary. -/
def from? (t : Text) (offset : Nat) : Option Text :=
  (splitAt? t offset).map Prod.snd

/-- The part of a text between two byte offsets, if both are character boundaries in order. -/
def slice? (t : Text) (start stop : Nat) : Option Text :=
  if start ≤ stop then (from? t start).bind fun tail => before? tail (stop - start) else none

/-- The part of a text between two byte offsets, empty if there is none. -/
def slice (t : Text) (start stop : Nat) : Text :=
  (slice? t start stop).getD []

theorem before?_append (a b : Text) : before? (a ++ b) (size a) = some a := by
  rw [before?, splitAt?_append, Option.map_some]

theorem from?_append (a b : Text) : from? (a ++ b) (size a) = some b := by
  rw [from?, splitAt?_append, Option.map_some]

theorem slice?_append (a b c : Text) :
    slice? (a ++ (b ++ c)) (size a) (size a + size b) = some b := by
  rw [slice?, if_pos (Nat.le_add_right _ _), from?_append, Nat.add_sub_cancel_left]
  exact before?_append b c

theorem slice?_eq_some_iff {t b : Text} {start stop : Nat} :
    slice? t start stop = some b ↔
      ∃ a c, t = a ++ (b ++ c) ∧ start = size a ∧ stop = size a + size b := by
  constructor
  · intro h
    rw [slice?] at h
    split at h
    · rename_i hle
      obtain ⟨tail, hf, hb⟩ := Option.bind_eq_some_iff.1 h
      obtain ⟨⟨a, tail'⟩, hs, rfl⟩ := Option.map_eq_some_iff.1 hf
      obtain ⟨⟨b', c⟩, hs', rfl⟩ := Option.map_eq_some_iff.1 hb
      obtain ⟨rfl, rfl⟩ := eq_append_of_splitAt? hs
      obtain ⟨he, hn⟩ := eq_append_of_splitAt? hs'
      exact ⟨a, c, congrArg (a ++ ·) he, rfl, by simp only at hn ⊢; omega⟩
    · cases h
  · rintro ⟨a, c, rfl, rfl, rfl⟩
    exact slice?_append a b c

def repeated (n : Nat) (c : Char) : Text :=
  List.replicate n c

end Text

end Cloak
