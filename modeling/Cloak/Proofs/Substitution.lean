import Cloak.Proofs.Search
import Cloak.Restore

namespace Cloak

open Text (StopsBy)

namespace Restore

theorem toNat_of_isHexDigit {c : Char} (h : isHexDigit c) :
    (48 ≤ c.toNat ∧ c.toNat ≤ 57) ∨ (97 ≤ c.toNat ∧ c.toNat ≤ 102) := by
  simp only [isHexDigit, Bool.or_eq_true, Bool.and_eq_true, decide_eq_true_eq, Char.le_def,
    UInt32.le_iff_toNat_le] at h
  exact h

theorem isBlank_of_isHexDigit {c : Char} (h : isHexDigit c) : isBlank c = false := by
  have hc := toNat_of_isHexDigit h
  simp only [isBlank, Bool.or_eq_false_iff, Bool.and_eq_false_iff, decide_eq_false_iff_not,
    beq_eq_false_iff_ne]
  omega

theorem stopsBy_isBlank_of_isHexDigit {t : Text} (h : ∀ c ∈ t, isHexDigit c) (ht : t ≠ [])
    (rest : Text) : StopsBy isBlank (t ++ rest) := by
  cases t with
  | nil => exact absurd rfl ht
  | cons c t =>
    exact Text.stopsBy_cons_iff.2 (isBlank_of_isHexDigit (h c List.mem_cons_self))

theorem stopsBy_close (p : Char → Bool) (hp : p '<' = false) (rest : Text) :
    StopsBy p ("</p>".toList ++ rest) :=
  Text.stopsBy_cons_iff.2 hp

end Restore

namespace Substitution

/-- What a snippet may be called: 32 lower-case hexadecimal digits. -/
def IsName (id : Text) : Prop :=
  id.length = 32 ∧ ∀ c ∈ id, Restore.isHexDigit c

instance : DecidablePred IsName := fun id =>
  decidable_of_iff (id.length = 32 ∧ id.all Restore.isHexDigit)
    (and_congr_right fun _ => List.all_eq_true)

/-- What a list of entries says of a name: the last entry for it counts. -/
def latest? : Processed.Names → Text → Option Processed
  | [], _ => none
  | (key, p) :: entries, id => (latest? entries id).or (if key = id then some p else none)

def name? (known : Text → Option Processed) (t : Text) : Option (Processed × Text) :=
  if 32 ≤ t.length then (known (t.take 32)).map fun p => (p, t.drop 32) else none

/-- Reads a paragraph around exactly one name that gives up its paragraph. -/
def paragraph? (known : Text → Option Processed) (t : Text) : Option (Processed × Text) := do
  let inside ← Text.literal? "<p>".toList t
  let (p, after) ← name? known (inside.dropWhile isBlank)
  let rest ← Text.literal? "</p>".toList (after.dropWhile isBlank)
  if p.dropParagraph then some (p, rest) else none

/-- What gives way at the head of a text. -/
def unit? (known : Text → Option Processed) (t : Text) : Option (Processed × Text) :=
  (paragraph? known t).or (name? known t)

theorem name?_eq_some_iff {known : Text → Option Processed} {t rest : Text} {p : Processed} :
    name? known t = some (p, rest) ↔
      ∃ id, t = id ++ rest ∧ id.length = 32 ∧ known id = some p := by
  constructor
  · intro h
    rw [name?] at h
    split at h
    · rename_i hlen
      obtain ⟨q, hq, he⟩ := Option.map_eq_some_iff.1 h
      cases he
      exact ⟨t.take 32, (List.take_append_drop 32 t).symm, List.length_take_of_le hlen, hq⟩
    · cases h
  · rintro ⟨id, rfl, hlen, hk⟩
    rw [name?, if_pos (by rw [List.length_append]; omega), ← hlen, List.take_left, List.drop_left,
      hk, Option.map_some]

theorem length_of_paragraph? {known : Text → Option Processed} {t rest : Text} {p : Processed}
    (h : paragraph? known t = some (p, rest)) : rest.length < t.length := by
  obtain ⟨inside, hi, hinside⟩ := Option.bind_eq_some_iff.1 h
  obtain ⟨⟨q, after⟩, hn, hafter⟩ := Option.bind_eq_some_iff.1 hinside
  obtain ⟨rest', hr, hrest⟩ := Option.bind_eq_some_iff.1 hafter
  obtain ⟨id, hid, hlen, -⟩ := name?_eq_some_iff.1 hn
  split at hrest
  · cases hrest
    have h₁ := (List.dropWhile_sublist isBlank (l := inside)).length_le
    have h₂ := (List.dropWhile_sublist isBlank (l := after)).length_le
    rw [hid, List.length_append] at h₁
    rw [Text.literal?_eq_some_iff.1 hr, List.length_append] at h₂
    rw [Text.literal?_eq_some_iff.1 hi, List.length_append]
    omega
  · cases hrest

theorem length_of_unit? {known : Text → Option Processed} {t rest : Text} {p : Processed}
    (h : unit? known t = some (p, rest)) : rest.length < t.length := by
  rcases Option.or_eq_some_iff.1 h with h | ⟨-, h⟩
  · exact length_of_paragraph? h
  · obtain ⟨id, rfl, hlen, -⟩ := name?_eq_some_iff.1 h
    rw [List.length_append]
    omega

/-- The text with what is known put in the place of names, from left to right. -/
def substitute (known : Text → Option Processed) : Text → Text
  | [] => []
  | c :: cs =>
    match _h : unit? known (c :: cs) with
    | some (p, rest) => p.text ++ substitute known rest
    | none => c :: substitute known cs
termination_by t => t.length
decreasing_by
  · exact length_of_unit? ‹_›
  · exact Nat.lt_succ_self _

@[simp] theorem substitute_nil (known : Text → Option Processed) : substitute known [] = [] := by
  rw [substitute]

theorem substitute_of_none {known : Text → Option Processed} {c : Char} {t : Text}
    (h : unit? known (c :: t) = none) : substitute known (c :: t) = c :: substitute known t := by
  rw [substitute]
  split
  · rename_i h'
    rw [h] at h'
    cases h'
  · rfl

theorem substitute_of_some {known : Text → Option Processed} {t rest : Text} {p : Processed}
    (h : unit? known t = some (p, rest)) :
    substitute known t = p.text ++ substitute known rest := by
  cases t with
  | nil => exact absurd (length_of_unit? h) (Nat.not_lt_zero _)
  | cons c t =>
    rw [substitute]
    split
    · rename_i h'
      rw [h] at h'
      cases h'
      rfl
    · rename_i h'
      rw [h] at h'
      cases h'

variable {known : Text → Option Processed}

/-- Only names are known. -/
def KnowsNames (known : Text → Option Processed) : Prop :=
  ∀ id p, known id = some p → IsName id

theorem IsName.ne_nil {id : Text} (h : IsName id) : id ≠ [] := by
  rintro rfl
  exact absurd h.1 (by decide)

theorem name?_none_of_stopsBy {t : Text} (hk : KnowsNames known)
    (ht : StopsBy Restore.isHexDigit t) : name? known t = none := by
  cases h : name? known t with
  | none => rfl
  | some r =>
    obtain ⟨id, rfl, hlen, hid⟩ := name?_eq_some_iff.1 h
    have hname := hk id _ hid
    cases id with
    | nil => exact absurd rfl hname.ne_nil
    | cons c id =>
      have hc := Text.stopsBy_cons_iff.1 ht
      rw [hname.2 c List.mem_cons_self] at hc
      cases hc

theorem name?_append_stop {w b : Text} (hk : KnowsNames known)
    (hb : StopsBy Restore.isHexDigit b) :
    name? known (w ++ b) = (name? known w).map fun r => (r.1, r.2 ++ b) := by
  rw [name?, name?]
  by_cases hlen : 32 ≤ w.length
  · rw [if_pos (by rw [List.length_append]; omega), if_pos hlen, List.take_append_of_le_length hlen,
      List.drop_append_of_le_length hlen, Option.map_map]
    rfl
  · rw [if_neg hlen, Option.map_none]
    split
    · rename_i hlen'
      -- such a name would hold the first character of `b`
      cases hid : known ((w ++ b).take 32) with
      | none => rfl
      | some p =>
        exfalso
        cases b with
        | nil => exact hlen (by rwa [List.append_nil] at hlen')
        | cons c b =>
          have hc : c ∈ (w ++ c :: b).take 32 := by
            rw [List.take_append]
            apply List.mem_append_right
            obtain ⟨n, hn⟩ : ∃ n, 32 - w.length = n + 1 := ⟨32 - w.length - 1, by omega⟩
            rw [hn, List.take_succ_cons]
            exact List.mem_cons_self
          have hd := (hk _ _ hid).2 c hc
          rw [Text.stopsBy_cons_iff.1 hb] at hd
          cases hd
    · rfl

theorem paragraph?_eq_some_iff (hk : KnowsNames known) {t rest : Text} {p : Processed} :
    paragraph? known t = some (p, rest) ↔
      ∃ u id v, (∀ c ∈ u, isBlank c) ∧ (∀ c ∈ v, isBlank c) ∧ known id = some p ∧
        p.dropParagraph ∧ t = "<p>".toList ++ (u ++ (id ++ (v ++ ("</p>".toList ++ rest)))) := by
  constructor
  · intro h
    obtain ⟨inside, hi, hinside⟩ := Option.bind_eq_some_iff.1 h
    obtain ⟨⟨q, after⟩, hn, hafter⟩ := Option.bind_eq_some_iff.1 hinside
    obtain ⟨rest', hr, hrest⟩ := Option.bind_eq_some_iff.1 hafter
    obtain ⟨id, hid, -, hq⟩ := name?_eq_some_iff.1 hn
    split at hrest
    · rename_i hdrop
      cases hrest
      refine ⟨inside.takeWhile isBlank, id, after.takeWhile isBlank,
        fun c => Text.of_mem_takeWhile, fun c => Text.of_mem_takeWhile, hq, hdrop, ?_⟩
      rw [← Text.literal?_eq_some_iff.1 hr, List.takeWhile_append_dropWhile, ← hid,
        List.takeWhile_append_dropWhile, ← Text.literal?_eq_some_iff.1 hi]
    · cases hrest
  · rintro ⟨u, id, v, hu, hv, hid, hdrop, rfl⟩
    have hname := hk id p hid
    have hstart := Text.dropWhile_append_stop hu (Restore.stopsBy_isBlank_of_isHexDigit hname.2
      hname.ne_nil (v ++ ("</p>".toList ++ rest)))
    have hend := Text.dropWhile_append_stop hv (Restore.stopsBy_close isBlank (by decide) rest)
    have hn := name?_eq_some_iff.2
      ⟨id, (rfl : id ++ (v ++ ("</p>".toList ++ rest)) = _), hname.1, hid⟩
    simp only [paragraph?, Text.literal?_append, Option.bind_eq_bind, Option.bind_some, hstart, hn,
      hend, hdrop, if_true]

theorem paragraph?_cons_of_ne {c : Char} (hc : c ≠ '<') (t : Text) :
    paragraph? known (c :: t) = none := by
  have hl : Text.literal? "<p>".toList (c :: t) = none :=
    Text.literal?_cons_of_ne (Ne.symm hc) _ _
  rw [paragraph?, hl]
  rfl

/-- Whether a character can start neither a name nor a paragraph. -/
def isInert (c : Char) : Bool :=
  !Restore.isHexDigit c && c != '<'

theorem isInert_iff {c : Char} : isInert c ↔ Restore.isHexDigit c = false ∧ c ≠ '<' := by
  simp only [isInert, Bool.and_eq_true, Bool.not_eq_true', bne_iff_ne]

theorem substitute_append_of_inert {a b : Text} (hk : KnowsNames known)
    (ha : ∀ c ∈ a, isInert c) : substitute known (a ++ b) = a ++ substitute known b := by
  induction a with
  | nil => rfl
  | cons c a ih =>
    obtain ⟨hd, hc⟩ := isInert_iff.1 (ha c List.mem_cons_self)
    have hunit : unit? known (c :: (a ++ b)) = none := by
      rw [unit?, paragraph?_cons_of_ne hc, Option.none_or]
      exact name?_none_of_stopsBy hk (Text.stopsBy_cons_iff.2 hd)
    rw [List.cons_append, substitute_of_none hunit, List.cons_append]
    congr 1
    exact ih fun d hd => ha d (List.mem_cons_of_mem c hd)

theorem substitute_angle {t : Text} (hk : KnowsNames known)
    (h : paragraph? known ('<' :: t) = none) :
    substitute known ('<' :: t) = '<' :: substitute known t := by
  apply substitute_of_none
  rw [unit?, h, Option.none_or]
  exact name?_none_of_stopsBy hk (Text.stopsBy_cons_iff.2 (by decide))

theorem isInert_of_isBlank {c : Char} (h : isBlank c) : isInert c := by
  apply isInert_iff.2
  constructor
  · apply Bool.eq_false_iff.2
    intro hc
    rw [Restore.isBlank_of_isHexDigit hc] at h
    cases h
  · rintro rfl
    exact absurd h (by decide)

theorem substitute_of_knows_nothing (t : Text) : substitute (fun _ => none) t = t := by
  induction t with
  | nil => exact substitute_nil _
  | cons c t ih =>
    have hk : KnowsNames fun _ => none := by
      intro id p h
      cases h
    have hunit : unit? (fun _ => none) (c :: t) = none := by
      cases h : unit? (fun _ => none) (c :: t) with
      | none => rfl
      | some r =>
        obtain ⟨p, rest⟩ := r
        rcases Option.or_eq_some_iff.1 h with h | ⟨-, h⟩
        · obtain ⟨_, _, _, _, _, hid, _⟩ := (paragraph?_eq_some_iff hk).1 h
          cases hid
        · obtain ⟨_, _, _, hid⟩ := name?_eq_some_iff.1 h
          cases hid
    rw [substitute_of_none hunit, ih]

theorem mem_of_latest? {names : Processed.Names} {id : Text} {p : Processed}
    (h : latest? names id = some p) : (id, p) ∈ names := by
  induction names with
  | nil => cases h
  | cons e names ih =>
    obtain ⟨key, q⟩ := e
    rw [latest?] at h
    rcases Option.or_eq_some_iff.1 h with h | ⟨-, h⟩
    · exact List.mem_cons_of_mem _ (ih h)
    · split at h
      · rename_i hk
        cases h
        rw [hk]
        exact List.mem_cons_self
      · cases h

theorem latest?_eq_none {names : Processed.Names} {id : Text} (h : id ∉ names.map Prod.fst) :
    latest? names id = none := by
  cases he : latest? names id with
  | none => rfl
  | some p => exact absurd (List.mem_map_of_mem (f := Prod.fst) (mem_of_latest? he)) h

theorem latest?_of_mem {names : Processed.Names} (hnd : (names.map Prod.fst).Nodup) {id : Text}
    {p : Processed} (h : (id, p) ∈ names) : latest? names id = some p := by
  induction names with
  | nil => cases h
  | cons e names ih =>
    obtain ⟨key, q⟩ := e
    rw [List.map_cons, List.nodup_cons] at hnd
    obtain ⟨hkey, hnd⟩ := hnd
    rw [latest?]
    rcases List.mem_cons.1 h with h | h
    · cases h
      rw [latest?_eq_none hkey, Option.none_or, if_pos rfl]
    · rw [ih hnd h, Option.some_or]

theorem latest?_perm {names names' : Processed.Names} (hp : names'.Perm names)
    (hnd : (names.map Prod.fst).Nodup) : latest? names' = latest? names := by
  have hnd' := ((hp.map Prod.fst).nodup_iff).2 hnd
  funext id
  cases h : latest? names id with
  | some p => exact latest?_of_mem hnd' (hp.mem_iff.2 (mem_of_latest? h))
  | none =>
    cases h' : latest? names' id with
    | none => rfl
    | some p =>
      have he := latest?_of_mem hnd (hp.mem_iff.1 (mem_of_latest? h'))
      rw [h] at he
      cases he

theorem knowsNames_latest? {names : Processed.Names} (h : ∀ e ∈ names, IsName e.1) :
    KnowsNames (latest? names) :=
  fun _ _ hid => h _ (mem_of_latest? hid)

end Substitution

end Cloak
