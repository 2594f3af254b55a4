import Cloak.Proofs.Agreement
import Cloak.Proofs.Dict

namespace Cloak

/-- A text without white space and without some other characters. -/
def Text.Avoids (marks t : Text) : Prop :=
  ∀ c ∈ t, isBlank c = false ∧ c ∉ marks

instance : Decidable (Text.Avoids marks t) :=
  List.decidableBAll _ t

def nameMarks : Text :=
  "=/>\"'\x7b\x7d".toList

def bareMarks : Text :=
  "\"'\x7b\x7d=<>`".toList

/-- How the value of an attribute is written: not at all, in quotes, in braces or bare. -/
inductive WrittenValue where
  | flag
  | string (q : Char) (v : Text)
  | braces (v : Text)
  | bare (v : Text)

namespace WrittenValue

def print : WrittenValue → Text
  | flag => []
  | string q v => '=' :: q :: (v ++ [q])
  | braces v => '=' :: '\x7b' :: (v ++ ['\x7d'])
  | bare v => '=' :: v

def text? : WrittenValue → Option Text
  | flag => none
  | string _ v => some v
  | braces v => some v
  | bare v => some v

def value (w : WrittenValue) : AttributeValue :=
  (w.text?.map AttributeValue.ofText).getD (.flag true)

/-- Nothing in the value ends it too early. -/
def WellFormed : WrittenValue → Prop
  | flag => True
  | string q v => (q = '"' ∨ q = '\'') ∧ q ∉ v
  | braces v => ∀ c ∈ v, c ∉ "\"'\x7b\x7d".toList
  | bare v => v ≠ [] ∧ Text.Avoids bareMarks v ∧ v.getLast? ≠ some '/'

instance : DecidablePred WellFormed
  | flag => inferInstanceAs (Decidable True)
  | string q v => inferInstanceAs (Decidable ((q = '"' ∨ q = '\'') ∧ q ∉ v))
  | braces v => List.decidableBAll _ v
  | bare v => inferInstanceAs (Decidable (v ≠ [] ∧ _ ∧ v.getLast? ≠ some '/'))

end WrittenValue

/-- An attribute as it is written behind a gap. -/
structure WrittenAttribute where
  gap : Text
  name : Text
  value : WrittenValue

namespace WrittenAttribute

def print (a : WrittenAttribute) : Text :=
  a.gap ++ (a.name ++ a.value.print)

def printAll (attributes : List WrittenAttribute) : Text :=
  attributes.flatMap print

theorem printAll_cons (a : WrittenAttribute) (attributes : List WrittenAttribute) :
    printAll (a :: attributes) = a.print ++ printAll attributes :=
  List.flatMap_cons

/-- The gap is white space, and the name is not empty, holds nothing that ends it and does not look
like a spread. -/
structure WellFormed (a : WrittenAttribute) : Prop where
  gap_ne : a.gap ≠ []
  blank : ∀ c ∈ a.gap, isBlank c
  name_ne : a.name ≠ []
  name : Text.Avoids nameMarks a.name
  not_spread : ¬ "...".toList <+: a.name
  value : a.value.WellFormed

instance : DecidablePred WellFormed := fun a =>
  haveI : Decidable (∀ c ∈ a.gap, isBlank c) := List.decidableBAll _ a.gap
  decidable_of_iff
    (a.gap ≠ [] ∧ (∀ c ∈ a.gap, isBlank c) ∧ a.name ≠ [] ∧
      Text.Avoids nameMarks a.name ∧ ¬ "...".toList <+: a.name ∧ a.value.WellFormed)
    ⟨fun ⟨h₁, h₂, h₃, h₄, h₅, h₆⟩ => ⟨h₁, h₂, h₃, h₄, h₅, h₆⟩,
      fun ⟨h₁, h₂, h₃, h₄, h₅, h₆⟩ => ⟨h₁, h₂, h₃, h₄, h₅, h₆⟩⟩

end WrittenAttribute

namespace Element

def print (tag : Text) (attributes : List WrittenAttribute) (body? : Option Text) : Text :=
  '<' :: (tag ++ (WrittenAttribute.printAll attributes ++
    match body? with
    | some body => '>' :: (body ++ ('<' :: '/' :: tag ++ ['>']))
    | none => " />".toList))

end Element

namespace Attributes

theorem upTo?_append {q : Char} {v : Text} (hv : q ∉ v) (rest : Text) :
    upTo? q (v ++ q :: rest) = some (v, rest) := by
  induction v with
  | nil => exact if_pos rfl
  | cons c v ih =>
    obtain ⟨hc, hv⟩ := not_or.1 (mt List.mem_cons.2 hv)
    rw [List.cons_append, upTo?, if_neg (Ne.symm hc), ih hv]
    rfl

theorem isNameChar_of_avoids {c : Char} (hb : isBlank c = false)
    (hc : c ∉ nameMarks) : isNameChar c := by
  have hc' : c ∉ ['=', '/', '>', '"', '\'', '\x7b', '\x7d'] := hc
  simp only [List.mem_cons, List.not_mem_nil, or_false, not_or] at hc'
  simp only [isNameChar, Bool.not_eq_true', Bool.or_eq_false_iff, beq_eq_false_iff_ne, ne_eq, hb,
    hc', not_false_eq_true, and_self]

theorem isBareChar_of_avoids {c : Char} (hb : isBlank c = false)
    (hc : c ∉ bareMarks) : isBareChar c := by
  have hc' : c ∉ ['"', '\'', '\x7b', '\x7d', '=', '<', '>', '`'] := hc
  simp only [List.mem_cons, List.not_mem_nil, or_false, not_or] at hc'
  simp only [isBareChar, Bool.not_eq_true', Bool.or_eq_false_iff, beq_eq_false_iff_ne, ne_eq, hb,
    hc', not_false_eq_true, and_self]

/-- What may stand behind an attribute: nothing, or white space that no equals sign follows. -/
def Follows (rest : Text) : Prop :=
  (∀ c ∈ rest.head?, isBlank c) ∧ ∀ c ∈ (rest.dropWhile isBlank).head?, c ≠ '='

theorem assigned?_of_follows {rest : Text} (h : Follows rest) : assigned? rest = none := by
  rw [assigned?]
  split
  · rename_i cs hd
    have hne := h.2
    rw [hd] at hne
    exact absurd rfl (hne '=' rfl)
  · rfl

theorem assigned?_equals {c : Char} (hc : isBlank c = false) (t : Text) :
    assigned? ('=' :: c :: t) = value? (c :: t) := by
  have heq : ('=' :: c :: t).dropWhile isBlank = '=' :: c :: t := rfl
  rw [assigned?, heq]
  simp only [List.dropWhile_cons, hc, Bool.false_eq_true, if_false]

theorem Follows.stopsBy {p : Char → Bool} {rest : Text} (h : Follows rest)
    (hp : ∀ c, isBlank c → p c = false) : Text.StopsBy p rest :=
  fun c hc => hp c (h.1 c hc)

theorem isNameChar_of_isBlank {c : Char} (h : isBlank c) : isNameChar c = false := by
  simp only [isNameChar, h, Bool.true_or, Bool.not_true]

theorem isBareChar_of_isBlank {c : Char} (h : isBlank c) : isBareChar c = false := by
  simp only [isBareChar, h, Bool.true_or, Bool.not_true]

theorem value?_of_avoids {c : Char} (hc : c ∉ bareMarks) (t : Text) :
    value? (c :: t) = bare? (c :: t) := by
  rw [value?]
  · rintro cs he
    cases he
    exact hc (by decide)
  · rintro cs he
    cases he
    exact hc (by decide)
  · rintro cs he
    cases he
    exact hc (by decide)

theorem bare?_append {v rest : Text} (hne : v ≠ [])
    (hv : Text.Avoids bareMarks v) (h : Follows rest) :
    bare? (v ++ rest) = some (v, rest) := by
  have hchars : ∀ c ∈ v, isBareChar c := fun c hc => isBareChar_of_avoids (hv c hc).1 (hv c hc).2
  have hstop : Text.StopsBy isBareChar rest := h.stopsBy fun c => isBareChar_of_isBlank
  rw [bare?, Text.takeWhile_append_stop hchars hstop, Text.dropWhile_append_stop hchars hstop]
  exact if_neg (by rwa [List.isEmpty_iff])

theorem assigned?_print {w : WrittenValue} (hw : w.WellFormed) {rest : Text} (h : Follows rest) :
    assigned? (w.print ++ rest) = w.text?.map fun v => (v, rest) := by
  cases w with
  | flag => exact assigned?_of_follows h
  | string q v =>
    obtain ⟨hq, hv⟩ := hw
    have hread := upTo?_append hv rest
    have hprint : (WrittenValue.string q v).print ++ rest = '=' :: q :: (v ++ q :: rest) := by
      simp only [WrittenValue.print, List.cons_append, List.append_assoc, List.nil_append]
    rw [hprint]
    rcases hq with rfl | rfl
    · rw [assigned?_equals (by decide), value?, hread]
      rfl
    · rw [assigned?_equals (by decide), value?, hread]
      rfl
  | braces v =>
    have hv : '\x7d' ∉ v := fun hmem => hw _ hmem (by decide)
    have hread := upTo?_append hv rest
    have hprint : (WrittenValue.braces v).print ++ rest =
        '=' :: '\x7b' :: (v ++ '\x7d' :: rest) := by
      simp only [WrittenValue.print, List.cons_append, List.append_assoc, List.nil_append]
    rw [hprint, assigned?_equals (by decide), value?, hread]
    rfl
  | bare v =>
    obtain ⟨hne, hv, -⟩ := hw
    obtain ⟨c, v, rfl⟩ := List.exists_cons_of_ne_nil hne
    obtain ⟨hb, hc⟩ := hv c List.mem_cons_self
    have hread := bare?_append hne hv h
    rw [WrittenValue.print, List.cons_append, List.cons_append, assigned?_equals hb,
      value?_of_avoids hc, ← List.cons_append, hread]
    rfl

theorem entry?_print {a : WrittenAttribute} (ha : a.WellFormed) {rest : Text} (h : Follows rest) :
    entry? (a.name ++ a.value.print ++ rest) =
      some ((a.name ++ a.value.print).length, (a.name, a.value.value)) := by
  have hchars : ∀ c ∈ a.name, isNameChar c :=
    fun c hc => isNameChar_of_avoids (ha.name c hc).1 (ha.name c hc).2
  have hstop : Text.StopsBy isNameChar (a.value.print ++ rest) := by
    cases a.value with
    | flag => exact h.stopsBy fun c => isNameChar_of_isBlank
    | string | braces | bare => exact Text.stopsBy_cons_iff.2 rfl
  rw [ entry?, List.append_assoc, Text.takeWhile_append_stop hchars hstop,
    Text.dropWhile_append_stop hchars hstop, assigned?_print ha.value h,
    if_neg (mt List.isEmpty_iff.1 ha.name_ne)]
  have hlength : (a.name ++ (a.value.print ++ rest)).length - rest.length =
      (a.name ++ a.value.print).length := by
    rw [← List.append_assoc, List.length_append, Nat.add_sub_cancel]
  cases hv : a.value with
  | flag =>
    rw [WrittenValue.print, List.append_nil]
    rfl
  | string | braces | bare =>
    rw [hv] at hlength
    rw [← hlength]
    rfl

theorem entry?_of_isBlank {c : Char} (h : isBlank c) (t : Text) : entry? (c :: t) = none := by
  rw [ entry?, List.takeWhile_cons_of_neg]
  · rfl
  · rw [isNameChar_of_isBlank h]
    exact Bool.false_ne_true

theorem follows_print {attributes : List WrittenAttribute}
    (h : ∀ a ∈ attributes, a.WellFormed) : Follows (WrittenAttribute.printAll attributes) := by
  cases attributes with
  | nil => exact ⟨(fun c hc => nomatch hc), (fun c hc => nomatch hc)⟩
  | cons a attributes =>
    have ha := h a List.mem_cons_self
    obtain ⟨d, gap, hgap⟩ := List.exists_cons_of_ne_nil ha.gap_ne
    obtain ⟨c, name, hname⟩ := List.exists_cons_of_ne_nil ha.name_ne
    have hc := ha.name c (by rw [hname]; exact List.mem_cons_self)
    have hprint : WrittenAttribute.printAll (a :: attributes) = a.gap ++
        c :: (name ++ (a.value.print ++ WrittenAttribute.printAll attributes)) := by
      simp only [WrittenAttribute.printAll_cons, WrittenAttribute.print, hname, List.append_assoc,
        List.cons_append]
    rw [hprint]
    refine ⟨?_, ?_⟩
    · rw [hgap]
      intro b hb
      cases hb
      exact ha.blank d (by rw [hgap]; exact List.mem_cons_self)
    · rw [Text.dropWhile_append_stop ha.blank (Text.stopsBy_cons_iff.2 hc.1)]
      intro b hb
      cases hb
      rintro rfl
      exact hc.2 (by decide)

theorem map_matchesFrom_print {attributes : List WrittenAttribute}
    (h : ∀ a ∈ attributes, a.WellFormed) (offset : Nat) :
    (Text.matchesFrom entry? 0 offset (WrittenAttribute.printAll attributes)).map Found.value =
      attributes.map fun a => (a.name, a.value.value) := by
  induction attributes generalizing offset with
  | nil => rfl
  | cons a attributes ih =>
    obtain ⟨ha, h⟩ := List.forall_mem_cons.1 h
    have hgap : ∀ c s, c :: s <:+ a.gap → entry? (c :: (s ++ (a.name ++ a.value.print ++
        WrittenAttribute.printAll attributes))) = none :=
      fun c s hs => entry?_of_isBlank (ha.blank c (hs.mem List.mem_cons_self)) _
    have hne : a.name ++ a.value.print ≠ [] :=
      fun he => ha.name_ne (List.append_eq_nil_iff.1 he).1
    rw [WrittenAttribute.printAll_cons, WrittenAttribute.print, List.append_assoc,
      Text.matchesFrom_append_of_none hgap,
      Text.matchesFrom_of_some hne (entry?_print ha (follows_print h)), List.map_cons, ih h,
      List.map_cons]

theorem ofText_print {attributes : List WrittenAttribute} (h : ∀ a ∈ attributes, a.WellFormed) :
    ofText (WrittenAttribute.printAll attributes) =
      Dict.ofList (attributes.map fun a => (a.name, a.value.value)) := by
  have hspread : ∀ entry ∈ attributes.map fun a => (a.name, a.value.value),
      (!isSpread entry.1) = true := by
    intro entry hentry
    obtain ⟨a, ha, rfl⟩ := List.mem_map.1 hentry
    rw [Bool.not_eq_true', isSpread, ← Bool.not_eq_true, List.isPrefixOf_iff_prefix]
    exact (h a ha).not_spread
  rw [ofText, Text.allMatches, map_matchesFrom_print h, List.filter_eq_self.2 hspread]

end Attributes

namespace WrittenAttribute

open Element (isAttributesEnd)

theorem isAttributesEnd_eq_false {c : Char} (hb : isBlank c = false) (hc : c ≠ '/') :
    isAttributesEnd c = false := by
  rw [Bool.eq_false_iff]
  intro h
  simp only [isAttributesEnd, Bool.or_eq_true, beq_iff_eq] at h
  rcases h with ((rfl | rfl) | rfl) | rfl
  · revert hb
    decide
  · exact hc rfl
  · revert hb
    decide
  · revert hb
    decide

theorem WellFormed.exists_append {a : WrittenAttribute} (h : a.WellFormed) :
    ∃ t c, a.print = t ++ [c] ∧ isAttributesEnd c = false := by
  have hvalue := h.value
  rw [print]
  cases hv : a.value with
  | flag =>
    obtain ⟨name, c, hname⟩ := List.eq_nil_or_concat a.name |>.resolve_left h.name_ne
    rw [List.concat_eq_append] at hname
    obtain ⟨hb, hc⟩ := h.name c (by rw [hname]; exact List.mem_append_right name List.mem_cons_self)
    refine ⟨a.gap ++ name, c, ?_, isAttributesEnd_eq_false hb fun he => hc (by rw [he]; decide)⟩
    rw [hname, WrittenValue.print, List.append_nil, List.append_assoc]
  | string q v =>
    rw [hv] at hvalue
    refine ⟨a.gap ++ (a.name ++ '=' :: q :: v), q, ?_, ?_⟩
    · simp only [WrittenValue.print, List.append_assoc, List.cons_append]
    · rcases hvalue.1 with rfl | rfl <;> rfl
  | braces v =>
    refine ⟨a.gap ++ (a.name ++ '=' :: '\x7b' :: v), '\x7d', ?_, rfl⟩
    simp only [WrittenValue.print, List.append_assoc, List.cons_append]
  | bare v =>
    rw [hv] at hvalue
    obtain ⟨hne, havoid, hlast⟩ := hvalue
    obtain ⟨v, c, rfl⟩ := List.eq_nil_or_concat v |>.resolve_left hne
    rw [List.concat_eq_append] at havoid hlast ⊢
    obtain ⟨hb, -⟩ := havoid c (List.mem_append_right v List.mem_cons_self)
    refine ⟨a.gap ++ (a.name ++ '=' :: v), c, ?_, isAttributesEnd_eq_false hb ?_⟩
    · simp only [WrittenValue.print, List.append_assoc, List.cons_append]
    · rintro rfl
      exact hlast List.getLast?_concat

theorem trimEndBy_print {attributes : List WrittenAttribute} (h : ∀ a ∈ attributes, a.WellFormed) :
    Text.trimEndBy isAttributesEnd (printAll attributes) = printAll attributes := by
  rcases List.eq_nil_or_concat attributes with rfl | ⟨as, a, rfl⟩
  · rfl
  · rw [List.concat_eq_append] at h ⊢
    obtain ⟨t, c, ht, hc⟩ := (h a (List.mem_append_right as List.mem_cons_self)).exists_append
    rw [printAll, List.flatMap_append, List.flatMap_singleton, ht, ← List.append_assoc,
      Text.trimEndBy_append_singleton hc]

end WrittenAttribute

namespace Element

theorem isOrdinary_of_not_mem {c : Char} {marks : Text} (hc : c ∉ marks)
    (hmarks : ">\"'\x7b\x7d".toList ⊆ marks) : IsOrdinary c := by
  refine ⟨?_, ?_, ?_, ?_, ?_⟩ <;> rintro rfl <;> exact hc (hmarks (by decide))

theorem isAttributes_of_ordinary {u : Text} (h : ∀ c ∈ u, IsOrdinary c) : IsAttributes u := by
  induction u with
  | nil => exact .nil
  | cons c u ih =>
    obtain ⟨hc, hu⟩ := List.forall_mem_cons.1 h
    exact .char hc (ih hu)

theorem isExpression_of_inert {u : Text} (h : ∀ c ∈ u, IsInert c) : IsExpression u := by
  induction u with
  | nil => exact .nil
  | cons c u ih =>
    obtain ⟨hc, hu⟩ := List.forall_mem_cons.1 h
    exact .char hc (ih hu)

theorem isAttributes_value {w : WrittenValue} (h : w.WellFormed) : IsAttributes w.print := by
  have hequals : IsOrdinary '=' :=
    isOrdinary_of_not_mem (by decide : '=' ∉ ">\"'\x7b\x7d".toList) (List.Subset.refl _)
  cases w with
  | flag => exact .nil
  | string q v => exact .char hequals (.string h.1 h.2 .nil)
  | braces v =>
    have hv : ∀ c ∈ v, IsInert c := by
      intro c hc
      have hc' : c ∉ ['"', '\'', '\x7b', '\x7d'] := h c hc
      simp only [List.mem_cons, List.not_mem_nil, or_false, not_or] at hc'
      exact hc'
    exact .char hequals (.braces (isExpression_of_inert hv) .nil)
  | bare v =>
    refine .char hequals (isAttributes_of_ordinary ?_)
    intro c hc
    exact isOrdinary_of_not_mem (h.2.1 c hc).2 (by decide)

theorem IsAttributes.append {t u : Text} (ht : IsAttributes t) (hu : IsAttributes u) :
    IsAttributes (t ++ u) := by
  induction ht with
  | nil => exact hu
  | char hc _ ih => exact .char hc ih
  | string hq hv _ ih =>
    rw [List.cons_append, List.append_assoc, List.cons_append]
    exact .string hq hv ih
  | braces he _ ih =>
    rw [List.cons_append, List.append_assoc, List.cons_append]
    exact .braces he ih

theorem isAttributes_print {attributes : List WrittenAttribute}
    (h : ∀ a ∈ attributes, a.WellFormed) :
    IsAttributes (WrittenAttribute.printAll attributes) := by
  induction attributes with
  | nil => exact .nil
  | cons a attributes ih =>
    obtain ⟨ha, h⟩ := List.forall_mem_cons.1 h
    have hgap : ∀ c ∈ a.gap, IsOrdinary c := fun c hc => isOrdinary_of_isBlank (ha.blank c hc)
    have hname : ∀ c ∈ a.name, IsOrdinary c :=
      fun c hc => isOrdinary_of_not_mem (ha.name c hc).2 (by decide)
    have hnamed := (isAttributes_of_ordinary hname).append (isAttributes_value ha.value)
    rw [WrittenAttribute.printAll_cons]
    exact ((isAttributes_of_ordinary hgap).append hnamed).append (ih h)

theorem parse?_of_isAttributes {tag u : Text} (htag : IsPlainName tag) (hu : IsAttributes u)
    (hhead : ∀ c ∈ u.head?, ElementForm.EndsName c) (rest : Text) :
    parse? ('<' :: (tag ++ (u ++ '>' :: rest))) =
      some (ofParts tag ('<' :: (tag ++ (u ++ ['>']))) rest) := by
  have hname : name? ('<' :: (tag ++ (u ++ '>' :: rest))) = some tag := by
    cases u with
    | nil => exact name?_of_plain htag (.inr (.inl rfl)) rest
    | cons c u => exact name?_of_plain htag (hhead c rfl) _
  have hsplit : '<' :: (tag ++ (u ++ '>' :: rest)) = '<' :: (tag ++ (u ++ ['>'])) ++ rest := by
    simp only [List.cons_append, List.append_assoc, List.nil_append]
  rw [parse?_eq hname, hsplit, splitOpening?_of_isAttributes htag hu, Option.map_some]

theorem attributes_ofParts (tag u rest : Text) :
    (ofParts tag ('<' :: (tag ++ (u ++ ['>']))) rest).attributes =
      Attributes.ofText (Text.trimEndBy isAttributesEnd u) := by
  have hlast : ('<' :: (tag ++ (u ++ ['>']))).dropLast = '<' :: (tag ++ u) := by
    rw [← List.append_assoc, ← List.cons_append, List.dropLast_concat]
  have hdrop : ('<' :: (tag ++ u)).drop (tag.length + 1) = u := by
    rw [List.drop_succ_cons, List.drop_left]
  simp only [ofParts, hlast, hdrop]

theorem inner_ofParts {name opening rest : Text} (h : (ofParts name opening rest).selfClosing) :
    (ofParts name opening rest).inner = [] :=
  if_pos h

/-- An opening tag with attributes and an ending is read with these attributes, of one name the
last, and no others. -/
theorem parse?_printAll {tag : Text} (htag : IsPlainName tag) {attributes : List WrittenAttribute}
    (h : ∀ a ∈ attributes, a.WellFormed) {ending : Text}
    (hending : ∀ c ∈ ending, IsOrdinary c ∧ isAttributesEnd c)
    (hhead : ∀ c ∈ ending.head?, ElementForm.EndsName c) (rest : Text) :
    ∃ e, parse? ('<' :: (tag ++ (WrittenAttribute.printAll attributes ++ ending ++ '>' :: rest))) =
        some e ∧
      e = ofParts tag ('<' :: (tag ++ (WrittenAttribute.printAll attributes ++ ending ++ ['>'])))
        rest ∧
      (∀ name, e.attributes.find? name =
        (attributes.reverse.find? fun a => a.name == name).map fun a => a.value.value) ∧
      e.attributes.Ascending := by
  have hattributes : IsAttributes (WrittenAttribute.printAll attributes ++ ending) :=
    (isAttributes_print h).append (isAttributes_of_ordinary fun c hc => (hending c hc).1)
  have hends : ∀ c ∈ (WrittenAttribute.printAll attributes ++ ending).head?,
      ElementForm.EndsName c := by
    intro c hc
    rw [List.head?_append] at hc
    rcases Option.or_eq_some_iff.1 hc with hc | ⟨-, hc⟩
    · exact .inl ((Attributes.follows_print h).1 c hc)
    · exact hhead c hc
  have htrim : Text.trimEndBy isAttributesEnd (WrittenAttribute.printAll attributes ++ ending) =
      WrittenAttribute.printAll attributes := by
    rw [Text.trimEndBy_append_of_pos fun c hc => (hending c hc).2,
      WrittenAttribute.trimEndBy_print h]
  refine ⟨_, parse?_of_isAttributes htag hattributes hends rest, rfl, ?_, ?_⟩
  · intro name
    rw [attributes_ofParts, htrim, Attributes.ofText_print h, Dict.find?_ofList,
      ← List.map_reverse, List.find?_map, Option.map_map]
    rfl
  · rw [attributes_ofParts, htrim, Attributes.ofText_print h]
    exact Dict.ascending_ofList _

/-- Parsing a printed element gives back its tag, its attributes and its body: of the attributes of
one name the last, no others, and nothing for the body of an element that closes itself. -/
theorem parse?_print {tag : Text} (htag : IsPlainName tag) {attributes : List WrittenAttribute}
    (h : ∀ a ∈ attributes, a.WellFormed) (body? : Option Text) :
    ∃ e, parse? (print tag attributes body?) = some e ∧ e.tag = tag ∧
      (∀ name, e.attributes.find? name =
        (attributes.reverse.find? fun a => a.name == name).map fun a => a.value.value) ∧
      e.attributes.Ascending ∧ e.selfClosing = body?.isNone ∧ e.inner = body?.getD [] := by
  cases body? with
  | some body =>
    have hclose : ElementForm.IsCloseTag tag ('<' :: '/' :: tag ++ ['>']) :=
      ⟨[], List.forall_mem_nil _, rfl⟩
    obtain ⟨e, hread, he, hfind, hascending⟩ := parse?_printAll htag h (List.forall_mem_nil _)
      (fun c hc => nomatch hc) (body ++ ('<' :: '/' :: tag ++ ['>']))
    obtain ⟨hself, hinner⟩ := ofParts_closeTag htag hclose _ body
    rw [← he] at hself hinner
    rw [List.append_nil] at hread
    exact ⟨e, hread, by rw [he]; rfl, hfind, hascending, hself, hinner⟩
  | none =>
    have hslash : ∀ c ∈ [' ', '/'], IsOrdinary c ∧ isAttributesEnd c := by
      intro c hc
      simp only [List.mem_cons, List.not_mem_nil, or_false] at hc
      rcases hc with rfl | rfl
      · exact ⟨isOrdinary_of_isBlank rfl, rfl⟩
      · exact ⟨isOrdinary_of_not_mem (by decide : '/' ∉ ">\"'\x7b\x7d".toList) (List.Subset.refl _), rfl⟩
    obtain ⟨e, hread, he, hfind, hascending⟩ := parse?_printAll htag h hslash
      (fun c hc => by cases hc; exact .inl rfl) []
    have hself : e.selfClosing := by
      have hend : '<' :: (tag ++ (WrittenAttribute.printAll attributes ++ [' ', '/'] ++ ['>'])) =
          '<' :: (tag ++ (WrittenAttribute.printAll attributes ++ [' '])) ++ "/>".toList := by
        simp only [List.cons_append, List.append_assoc]
        rfl
      rw [he, hend]
      exact selfClosing_ofParts tag _
    have hinner : e.inner = [] := by
      rw [he] at hself ⊢
      exact inner_ofParts hself
    rw [List.append_assoc] at hread
    exact ⟨e, hread, by rw [he]; rfl, hfind, hascending, hself, hinner⟩

/-- Values that hold each other's delimiters, a name twice, and a body that looks like the end. -/
theorem parse?_print_nested_delimiters :
    let tag : Text := "Tex".toList
    let attributes : List WrittenAttribute :=
      [⟨"\n ".toList, "a".toList, .string '"' "\x7d'/>".toList⟩, ⟨"\t".toList, "b".toList, .flag⟩,
        ⟨" ".toList, "a".toList, .string '\'' "\"\x7b".toList⟩,
        ⟨" ".toList, "c".toList, .braces "> =/".toList⟩,
        ⟨" ".toList, "d".toList, .bare "/x".toList⟩]
    let body : Text := "</Tex>y</".toList
    IsPlainName tag ∧ (∀ a ∈ attributes, a.WellFormed) ∧
      print tag attributes (some body) =
        "<Tex\n a=\"\x7d'/>\"\tb a='\"\x7b' c=\x7b> =/\x7d d=/x></Tex>y</</Tex>".toList ∧
      ∃ e, parse? (print tag attributes (some body)) = some e ∧ e.tag = tag ∧
        e.attributes.find? "a".toList = some (.ofText "\"\x7b".toList) ∧
        e.attributes.find? "b".toList = some (.flag true) ∧
        e.attributes.find? "c".toList = some (.ofText "> =/".toList) ∧
        e.attributes.find? "d".toList = some (.ofText "/x".toList) ∧
        e.selfClosing = false ∧ e.inner = body := by
  intro tag attributes body
  have htag : IsPlainName tag := by decide
  have hwell : ∀ a ∈ attributes, a.WellFormed := by decide
  obtain ⟨e, hread, hname, hfind, -, hself, hinner⟩ := parse?_print htag hwell (some body)
  exact ⟨htag, hwell, rfl, e, hread, hname, hfind _, hfind _, hfind _, hfind _, hself, hinner⟩

end Element

end Cloak
