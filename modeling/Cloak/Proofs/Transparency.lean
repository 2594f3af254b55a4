import Cloak.Proofs.Independence
import Cloak.Proofs.Marks
import Cloak.Proofs.Matcher

namespace Cloak

open Colon (Mark Proper Complete placeholder plain expand unmarked marks moved)

/-- What is relied on of the marks of the end of a document. -/
structure Faithful (m : List Mark) : Prop where
  proper : Proper m
  complete : Complete m
  free : ¬ placeholder <:+: plain m

theorem Faithful.right {a b : List Mark} (h : Faithful (a ++ b)) : Faithful b := by
  obtain ⟨hproper, hcomplete, hfree⟩ := h
  refine ⟨hproper.right, hcomplete.right, fun hin => hfree ?_⟩
  rw [Colon.plain_append]
  exact hin.trans (List.suffix_append _ _).isInfix

theorem Faithful.suffix {m m' : List Mark} (h : Faithful m) (hs : m' <:+ m) : Faithful m' := by
  obtain ⟨a, rfl⟩ := hs
  exact h.right

theorem faithful_marks {d : Text} (h : ¬ placeholder <:+: d) : Faithful (marks d) := by
  refine ⟨Colon.proper_marks d, Colon.complete_marks d, ?_⟩
  rw [marks, Colon.plain_marksFrom]
  exact h

/-- Two readers leave the same part of a marked text, or none. -/
def LeaveAlike (m : List Mark) (x y : Option Text) : Prop :=
  ∃ r : Option (List Mark), (∀ m' ∈ r, m' <:+ m) ∧ x = r.map plain ∧ y = r.map expand

namespace LeaveAlike

variable {m m' : List Mark} {x y : Option Text}

theorem none (m : List Mark) : LeaveAlike m none none :=
  ⟨Option.none, fun _ h => (Option.not_mem_none _ h).elim, rfl, rfl⟩

theorem some (h : m' <:+ m) : LeaveAlike m (some (plain m')) (some (expand m')) := by
  refine ⟨Option.some m', ?_, rfl, rfl⟩
  intro m'' hm
  cases hm
  exact h

theorem mono (h : LeaveAlike m' x y) (hs : m' <:+ m) : LeaveAlike m x y := by
  obtain ⟨r, hr, hx, hy⟩ := h
  exact ⟨r, fun m'' hm => (hr m'' hm).trans hs, hx, hy⟩

theorem bind {f g : Text → Option Text} (h : LeaveAlike m x y)
    (hf : ∀ m', m' <:+ m → LeaveAlike m' (f (plain m')) (g (expand m'))) :
    LeaveAlike m (x.bind f) (y.bind g) := by
  obtain ⟨r, hr, rfl, rfl⟩ := h
  cases r with
  | none => exact none m
  | some m' => exact (hf m' (hr m' rfl)).mono (hr m' rfl)

theorem of_iff (hx : ∀ r, x = Option.some r →
      ∃ m', m' <:+ m ∧ r = plain m' ∧ y = Option.some (expand m'))
    (hy : ∀ r, y = Option.some r →
      ∃ m', m' <:+ m ∧ r = expand m' ∧ x = Option.some (plain m')) : LeaveAlike m x y := by
  cases x with
  | some r =>
    obtain ⟨m', hs, rfl, rfl⟩ := hx r rfl
    exact some hs
  | none =>
    cases y with
    | none => exact none m
    | some r =>
      obtain ⟨m', -, -, h⟩ := hy r rfl
      cases h

end LeaveAlike

namespace ElementForm

/-- What may stand behind a tag name is at the head of a text. -/
def endsHere (t : Text) : Bool :=
  t.head?.any fun c => isBlank c || c == '>' || c == '/'

def word? (word t : Text) : Option Text :=
  (Text.literal? word t).filter endsHere

theorem word?_eq_some_iff {word t rest : Text} :
    word? word t = some rest ↔ t = word ++ rest ∧ endsHere rest := by
  rw [word?, Option.filter_eq_some_iff, Text.literal?_eq_some_iff]

theorem endsHere_cons {c : Char} {t : Text} :
    endsHere (c :: t) ↔ EndsName c := by
  simp only [endsHere, EndsName, List.head?_cons, Option.any_some, Bool.or_eq_true, beq_iff_eq,
    or_assoc]

theorem endsHere_append {t : Text} (h : endsHere t) (rest : Text) : endsHere (t ++ rest) := by
  cases t with
  | nil => cases h
  | cons c t => exact h

theorem endsHere_expand {m : List Mark} (h : Proper m) : endsHere (expand m) = endsHere (plain m) := by
  cases m with
  | nil => rfl
  | cons x m =>
    obtain ⟨c, replaced⟩ := x
    cases replaced with
    | false => rfl
    | true =>
      obtain rfl := h.char_eq rfl
      rfl

/-- A word stands in a text where another one stands in the text with placeholders. -/
def SameWord (w w' : Text) : Prop :=
  ∀ m, Faithful m → LeaveAlike m (word? w (plain m)) (word? w' (expand m))

theorem leaveAlike_literal? {w : Text} (hdash : '-' ∉ w) (hcolon : ':' ∉ w) {m : List Mark}
    (hm : Proper m) : LeaveAlike m (Text.literal? w (plain m)) (Text.literal? w (expand m)) := by
  refine .of_iff ?_ ?_
  · intro r hr
    obtain ⟨m', rfl, rfl⟩ :=
      Colon.exists_append_of_plain hm hcolon (Text.literal?_eq_some_iff.1 hr)
    refine ⟨m', List.suffix_append _ _, rfl, ?_⟩
    rw [Colon.expand_append, Colon.expand_unmarked, Text.literal?_append]
  · intro r hr
    obtain ⟨m', rfl, rfl⟩ :=
      Colon.exists_append_of_expand_of_not_mem hm hdash (Text.literal?_eq_some_iff.1 hr)
    refine ⟨m', List.suffix_append _ _, rfl, ?_⟩
    rw [Colon.plain_append, Colon.plain_unmarked, Text.literal?_append]

theorem sameWord_of_plain {w : Text} (hdash : '-' ∉ w) (hcolon : ':' ∉ w) : SameWord w w := by
  intro m hm
  obtain ⟨r, hr, hx, hy⟩ := leaveAlike_literal? hdash hcolon hm.proper
  rw [word?, word?, hx, hy]
  cases r with
  | none => exact .none m
  | some m' =>
    have hs := hr m' rfl
    rw [Option.map_some, Option.map_some, Option.filter_some, Option.filter_some,
      endsHere_expand (hm.suffix hs).proper]
    split
    · exact .some hs
    · exact .none m

theorem isSome_name?_append {name rest : Text} (hname : name ∈ Colon.names)
    (hends : endsHere rest) : (Colon.name? (name ++ rest)).isSome := by
  refine Colon.isSome_name?_iff.2 ⟨name, hname, rest, rfl, ?_⟩
  cases rest with
  | nil => exact Text.stopsBy_nil isWordChar
  | cons c rest =>
    have hc := Element.not_isNameChar_of_endsName (endsHere_cons.1 hends)
    simp only [Element.isNameChar, Bool.or_eq_false_iff] at hc
    exact Text.stopsBy_cons_iff.2 hc.1.1.1

/-- The marks of a tag of a special element up to the end of its name: the colon is replaced. -/
def specialMarks (head name : Text) : List Mark :=
  unmarked head ++ ⟨':', true⟩ :: unmarked name

@[simp] theorem plain_specialMarks (head name : Text) :
    plain (specialMarks head name) = head ++ ':' :: name := by
  rw [specialMarks, Colon.plain_append, Colon.plain_cons, Colon.plain_unmarked, Colon.plain_unmarked]

@[simp] theorem expand_specialMarks (head name : Text) :
    expand (specialMarks head name) = head ++ (placeholder ++ name) := by
  rw [specialMarks, Colon.expand_append, Colon.expand_cons_replaced, Colon.expand_unmarked,
    Colon.expand_unmarked]

section

variable {head name rest : Text} {m : List Mark}

theorem exists_append_of_plain_special (hhead : head ∈ Colon.heads) (hname : name ∈ Colon.names)
    (hm : Faithful m) (ht : plain m = (head ++ ':' :: name) ++ rest) (hends : endsHere rest) :
    ∃ m', m = specialMarks head name ++ m' ∧ plain m' = rest := by
  rw [List.append_assoc] at ht
  obtain ⟨m₁, rfl, hcolon₁⟩ :=
    Colon.exists_append_of_plain hm.proper (Colon.not_colon_mem_heads head hhead) ht
  cases m₁ with
  | nil => cases hcolon₁
  | cons x m₁ =>
    rw [Colon.plain_cons, List.cons_append] at hcolon₁
    obtain ⟨hx, hname₁⟩ := List.cons.inj hcolon₁
    -- a tag name may end behind the special name, so no word character follows it
    have hreplaced : x.replaced := by
      refine hm.complete (unmarked head) x m₁ rfl (Colon.isReplaced_iff.2 ⟨hx, ?_, ?_⟩)
      · rw [Colon.plain_unmarked]
        exact ⟨head, hhead, List.suffix_rfl⟩
      · rw [hname₁]
        exact isSome_name?_append hname hends
    obtain ⟨m', rfl, hrest⟩ := Colon.exists_append_of_plain hm.proper.right.tail
      (Colon.not_colon_mem_names name hname) hname₁
    obtain ⟨c, replaced⟩ := x
    obtain rfl : c = ':' := hx
    cases hreplaced
    refine ⟨m', ?_, hrest⟩
    rw [specialMarks, List.append_assoc, List.cons_append]

theorem exists_append_of_expand_special (hhead : head ∈ Colon.heads) (hname : name ∈ Colon.names)
    (hm : Faithful m) (ht : expand m = (head ++ (placeholder ++ name)) ++ rest) :
    ∃ m', m = specialMarks head name ++ m' ∧ expand m' = rest := by
  rw [List.append_assoc, List.append_assoc] at ht
  obtain ⟨m₁, rfl, hcolon₁⟩ := Colon.exists_append_of_expand_of_not_mem hm.proper
    (Colon.not_dash_mem_heads head hhead) ht
  cases m₁ with
  | nil => cases hcolon₁
  | cons x m₁ =>
    obtain ⟨c, replaced⟩ := x
    cases replaced with
    | false =>
      -- the placeholder would stand in the text itself
      exact absurd ⟨_, hcolon₁.symm⟩ (Colon.not_prefix_expand hm.proper.right hm.right.free)
    | true =>
      obtain rfl := hm.proper.right.char_eq rfl
      have hname₁ := List.append_cancel_left hcolon₁
      obtain ⟨m', rfl, hrest⟩ := Colon.exists_append_of_expand_of_not_mem hm.proper.right.tail
        (Colon.not_dash_mem_name name hname) hname₁
      refine ⟨m', ?_, hrest⟩
      rw [specialMarks, List.append_assoc, List.cons_append]

end

theorem sameWord_special {head name : Text} (hhead : head ∈ Colon.heads)
    (hname : name ∈ Colon.names) :
    SameWord (head ++ ':' :: name) (head ++ (placeholder ++ name)) := by
  intro m hm
  refine .of_iff ?_ ?_
  · intro r hr
    obtain ⟨ht, hends⟩ := word?_eq_some_iff.1 hr
    obtain ⟨m', rfl, rfl⟩ := exists_append_of_plain_special hhead hname hm ht hends
    refine ⟨m', List.suffix_append _ _, rfl, word?_eq_some_iff.2 ⟨?_, ?_⟩⟩
    · rw [Colon.expand_append, expand_specialMarks]
    · rw [endsHere_expand hm.right.proper]
      exact hends
  · intro r hr
    obtain ⟨ht, hends⟩ := word?_eq_some_iff.1 hr
    obtain ⟨m', rfl, rfl⟩ := exists_append_of_expand_special hhead hname hm ht
    refine ⟨m', List.suffix_append _ _, rfl, word?_eq_some_iff.2 ⟨?_, ?_⟩⟩
    · rw [Colon.plain_append, plain_specialMarks]
    · rw [← endsHere_expand hm.right.proper]
      exact hends

/-- The name of a tag in a text, and in the text with placeholders. -/
structure SameTags (name name' : Text) : Prop where
  opening : SameWord ('<' :: name) ('<' :: name')
  closing : SameWord ('<' :: '/' :: name) ('<' :: '/' :: name')

theorem sameTags_of_plain {name : Text} (hdash : '-' ∉ name) (hcolon : ':' ∉ name) :
    SameTags name name := by
  constructor
  · exact sameWord_of_plain (by simp [hdash]) (by simp [hcolon])
  · exact sameWord_of_plain (by simp [hdash]) (by simp [hcolon])

theorem sameTags_special {name : Text} (hname : name ∈ Colon.names) :
    SameTags (Colon.scope ++ ':' :: name) (Colon.escapedName name) := by
  rw [Colon.escapedName, List.append_assoc]
  constructor
  · exact sameWord_special List.mem_cons_self hname
  · exact sameWord_special (List.mem_cons_of_mem _ List.mem_cons_self) hname

/-- What follows white space and a `>`. -/
def tagEnd? (t : Text) : Option Text :=
  match t.dropWhile isBlank with
  | '>' :: cs => some cs
  | _ => none

theorem tagEnd?_cons (c : Char) (t : Text) :
    tagEnd? (c :: t) = if isBlank c then tagEnd? t else if c = '>' then some t else none := by
  by_cases hb : isBlank c
  · rw [tagEnd?, List.dropWhile_cons_of_pos hb, if_pos hb, tagEnd?]
  · rw [tagEnd?, List.dropWhile_cons_of_neg hb, if_neg hb]
    by_cases hc : c = '>'
    · subst hc
      rfl
    · rw [if_neg hc]
      split
      · rename_i h
        exact absurd (List.cons.inj h).1 hc
      · rfl

theorem leaveAlike_tagEnd? {m : List Mark} (hm : Proper m) :
    LeaveAlike m (tagEnd? (plain m)) (tagEnd? (expand m)) := by
  induction m with
  | nil => exact .none []
  | cons x m ih =>
    obtain ⟨c, replaced⟩ := x
    cases replaced with
    | true =>
      obtain rfl := hm.char_eq rfl
      exact .none _
    | false =>
      rw [Colon.plain_cons, Colon.expand_cons_kept, tagEnd?_cons, tagEnd?_cons]
      split
      · exact (ih hm.tail).mono (List.suffix_cons _ m)
      · split
        · exact .some (List.suffix_cons _ m)
        · exact .none _

theorem bind_literal?_eq {word t : Text} {f : Text → Option Text}
    (hf : ∀ rest, endsHere rest = false → f rest = none) :
    (Text.literal? word t).bind f = (word? word t).bind f := by
  rw [word?]
  cases Text.literal? word t with
  | none => rfl
  | some rest =>
    cases hends : endsHere rest with
    | true => rw [Option.filter_some, hends]; rfl
    | false => rw [Option.filter_some, hends, Option.bind_some, hf rest hends]; rfl

theorem closeTag?_eq (name t : Text) :
    closeTag? name t = (word? ('<' :: '/' :: name) t).bind tagEnd? := by
  refine bind_literal?_eq ?_
  intro rest hends
  change tagEnd? rest = none
  cases rest with
  | nil => rfl
  | cons c rest =>
    rw [← Bool.not_eq_true, endsHere_cons] at hends
    rw [tagEnd?_cons, if_neg fun h => hends (.inl h), if_neg fun h => hends (.inr (.inl h))]

theorem afterClose?_append {name u : Text} (hu : '<' ∉ u) (t : Text) :
    afterClose? name (u ++ t) = afterClose? name t := by
  induction u with
  | nil => rfl
  | cons c u ih =>
    obtain ⟨hc, hu⟩ := not_or.1 (mt List.mem_cons.2 hu)
    have hclose : closeTag? name (c :: (u ++ t)) = none := by
      rw [closeTag?, Text.literal?_cons_of_ne hc]
      rfl
    rw [List.cons_append, afterClose?, hclose, ih hu]

theorem leaveAlike_afterClose? {name name' : Text} (hname : SameTags name name') {m : List Mark}
    (hm : Faithful m) : LeaveAlike m (afterClose? name (plain m)) (afterClose? name' (expand m)) := by
  induction m with
  | nil => exact .none []
  | cons x m ih =>
    have hlater := (ih (hm.suffix (List.suffix_cons x m))).mono (List.suffix_cons x m)
    obtain ⟨c, replaced⟩ := x
    cases replaced with
    | true =>
      obtain rfl := hm.proper.char_eq rfl
      have hcolon : afterClose? name (':' :: plain m) = afterClose? name (plain m) :=
        afterClose?_append (u := [':']) (by decide) (plain m)
      rw [Colon.plain_cons, hcolon, Colon.expand_cons_replaced, afterClose?_append (by decide)]
      exact hlater
    | false =>
      have hclose : LeaveAlike (⟨c, false⟩ :: m) (closeTag? name (c :: plain m))
          (closeTag? name' (c :: expand m)) := by
        rw [closeTag?_eq, closeTag?_eq]
        exact (hname.closing _ hm).bind fun m' hs => leaveAlike_tagEnd? (hm.suffix hs).proper
      rw [Colon.plain_cons, Colon.expand_cons_kept, afterClose?, afterClose?]
      obtain ⟨r, hr, hx, hy⟩ := hclose
      rw [hx, hy]
      cases r with
      | none => exact hlater
      | some m' => exact .some (hr m' rfl)

/-- What closes a part of attributes in which a `>` is passed over, if such a part is open. -/
def closers : List (Option Char) :=
  [none, some '"', some '\'', some '\x7d']

theorem attributesFrom?_pass {closer : Option Char} (hcloser : closer ∈ closers) {c : Char}
    (hc : c ∈ ':' :: placeholder) (slash : Bool) (t : Text) :
    attributesFrom? closer slash (c :: t) = attributesFrom? closer false t := by
  have hall : (':' :: placeholder).all
      (fun c => !(['>', '\x7d', '"', '\'', '\x7b', '/'].contains c)) = true := by decide +kernel
  have hplain := List.all_eq_true.1 hall c hc
  simp only [List.contains_cons, List.contains_nil, Bool.or_false, Bool.not_or, Bool.and_eq_true,
    Bool.not_eq_true', beq_eq_false_iff_ne] at hplain
  obtain ⟨hgt, hclose, hdouble, hsingle, hopen, hslash⟩ := hplain
  simp only [closers, List.mem_cons, List.not_mem_nil, or_false] at hcloser
  rcases hcloser with rfl | rfl | rfl | rfl
  · have hquote : ¬ (c = '"' || c = '\'') = true := by
      simp only [hdouble, hsingle, decide_false, Bool.or_self, Bool.false_eq_true, not_false_eq_true]
    rw [attributesFrom?, if_neg hgt, if_neg hclose, if_neg hquote, if_neg hopen,
      beq_false_of_ne hslash]
  · rw [attributesFrom?, if_neg hdouble]
  · rw [attributesFrom?, if_neg hsingle]
  · rw [attributesFrom?, if_neg hclose]

theorem attributesFrom?_append {closer : Option Char} (hcloser : closer ∈ closers) {u : Text}
    (hne : u ≠ []) (hu : ∀ c ∈ u, c ∈ ':' :: placeholder) (slash : Bool) (t : Text) :
    attributesFrom? closer slash (u ++ t) = attributesFrom? closer false t := by
  induction u generalizing slash with
  | nil => exact absurd rfl hne
  | cons c u ih =>
    obtain ⟨hc, hu⟩ := List.forall_mem_cons.1 hu
    rw [List.cons_append, attributesFrom?_pass hcloser hc]
    cases u with
    | nil => rfl
    | cons d u => exact ih (List.cons_ne_nil d u) hu false

/-- Two readers of attributes say the same of the end of a tag, and leave the same part behind it. -/
def EndAlike (m : List Mark) (x y : Option (Bool × Text)) : Prop :=
  ∃ r : Option (Bool × List Mark), (∀ p ∈ r, p.2 <:+ m) ∧
    x = r.map (fun p => (p.1, plain p.2)) ∧ y = r.map fun p => (p.1, expand p.2)

namespace EndAlike

variable {m m' : List Mark} {x y : Option (Bool × Text)}

theorem none (m : List Mark) : EndAlike m none none :=
  ⟨Option.none, fun _ h => (Option.not_mem_none _ h).elim, rfl, rfl⟩

theorem some (slash : Bool) (h : m' <:+ m) :
    EndAlike m (some (slash, plain m')) (some (slash, expand m')) := by
  refine ⟨Option.some (slash, m'), ?_, rfl, rfl⟩
  intro p hp
  cases hp
  exact h

theorem mono (h : EndAlike m' x y) (hs : m' <:+ m) : EndAlike m x y := by
  obtain ⟨r, hr, hx, hy⟩ := h
  exact ⟨r, fun p hp => (hr p hp).trans hs, hx, hy⟩

end EndAlike

theorem endAlike_attributesFrom? {m : List Mark} (hm : Proper m) {closer : Option Char}
    (hcloser : closer ∈ closers) (slash : Bool) :
    EndAlike m (attributesFrom? closer slash (plain m)) (attributesFrom? closer slash (expand m)) := by
  induction m generalizing closer slash with
  | nil => exact .none []
  | cons x m ih =>
    have hs : m <:+ x :: m := List.suffix_cons x m
    obtain ⟨c, replaced⟩ := x
    cases replaced with
    | true =>
      obtain rfl := hm.char_eq rfl
      rw [Colon.plain_cons, Colon.expand_cons_replaced,
        attributesFrom?_pass hcloser List.mem_cons_self,
        attributesFrom?_append hcloser (by decide) fun c hc => List.mem_cons_of_mem _ hc]
      exact (ih hm.tail hcloser false).mono hs
    | false =>
      have later {closer' : Option Char} (hcloser' : closer' ∈ closers) (slash' : Bool) :=
        (ih hm.tail hcloser' slash').mono hs
      rw [Colon.plain_cons, Colon.expand_cons_kept]
      cases closer with
      | some q =>
        rw [attributesFrom?, attributesFrom?]
        split
        · exact later List.mem_cons_self false
        · exact later hcloser false
      | none =>
        rw [attributesFrom?, attributesFrom?]
        split
        · exact .some slash hs
        split
        · exact .none _
        split
        · rename_i hquote
          refine later ?_ false
          rw [Bool.or_eq_true, decide_eq_true_eq, decide_eq_true_eq] at hquote
          rcases hquote with rfl | rfl
          · decide
          · decide
        split
        · exact later (by decide) false
        · exact later hcloser (c == '/')

theorem endAlike_attributes? {m : List Mark} (hm : Proper m) :
    EndAlike m (attributes? (plain m)) (attributes? (expand m)) := by
  cases m with
  | nil => exact .none []
  | cons x m =>
    have hs : m <:+ x :: m := List.suffix_cons x m
    obtain ⟨c, replaced⟩ := x
    cases replaced with
    | true =>
      obtain rfl := hm.char_eq rfl
      exact .none _
    | false =>
      rw [Colon.plain_cons, Colon.expand_cons_kept, attributes?, attributes?]
      split
      · exact .some false hs
      · split
        · exact (endAlike_attributesFrom? hm.tail List.mem_cons_self false).mono hs
        · exact .none _

/-- What follows an element whose start and name are read. -/
def behindName? (form : ElementForm) (name rest : Text) : Option Text :=
  if form = selfClosingOrPaired && "/>".toList.isPrefixOf rest then some (rest.drop 2)
  else
    (attributes? rest).bind fun p =>
      if form = selfClosingOrPaired && p.1 then some p.2 else afterClose? name p.2

theorem element?_eq (form : ElementForm) (name t : Text) :
    element? form name t = (word? ('<' :: name) t).bind (behindName? form name) := by
  refine bind_literal?_eq ?_
  intro rest hends
  change behindName? form name rest = none
  cases rest with
  | nil => simp [behindName?, attributes?]
  | cons c rest =>
    rw [← Bool.not_eq_true, endsHere_cons] at hends
    have hslash : '/' ≠ c := fun h => hends (.inr (.inr h.symm))
    have hattributes : attributes? (c :: rest) = none := by
      rw [attributes?, if_neg fun h => hends (.inr (.inl h)), if_neg fun h => hends (.inl h)]
    simp [behindName?, hattributes, List.isPrefixOf, hslash]

theorem leaveAlike_behindName? (form : ElementForm) {name name' : Text} (hname : SameTags name name')
    {m : List Mark} (hm : Faithful m) :
    LeaveAlike m (behindName? form name (plain m)) (behindName? form name' (expand m)) := by
  have hattributes : LeaveAlike m
      ((attributes? (plain m)).bind fun p =>
        if form = selfClosingOrPaired && p.1 then some p.2 else afterClose? name p.2)
      ((attributes? (expand m)).bind fun p =>
        if form = selfClosingOrPaired && p.1 then some p.2 else afterClose? name' p.2) := by
    obtain ⟨r, hr, hx, hy⟩ := endAlike_attributes? hm.proper
    rw [hx, hy]
    cases r with
    | none => exact .none m
    | some p =>
      have hs := hr p rfl
      simp only [Option.map_some, Option.bind_some]
      split
      · exact .some hs
      · exact (leaveAlike_afterClose? hname (hm.suffix hs)).mono hs
  obtain ⟨r, hr, hx, hy⟩ := leaveAlike_literal? (w := "/>".toList) (by decide) (by decide) hm.proper
  rw [behindName?, behindName?]
  cases r with
  | none =>
    have hx' := Text.literal?_eq_none_iff.1 hx
    have hy' := Text.literal?_eq_none_iff.1 hy
    rw [← List.isPrefixOf_iff_prefix, Bool.not_eq_true] at hx' hy'
    rw [hx', hy', Bool.and_false, if_neg Bool.false_ne_true, if_neg Bool.false_ne_true]
    exact hattributes
  | some m' =>
    have hx' := Text.literal?_eq_some_iff.1 hx
    have hy' := Text.literal?_eq_some_iff.1 hy
    have hprefix (t : Text) : "/>".toList.isPrefixOf ("/>".toList ++ t) = true :=
      List.isPrefixOf_iff_prefix.2 (List.prefix_append _ t)
    by_cases hform : form = selfClosingOrPaired
    · rw [hx', hy', hprefix, hprefix, if_pos (by simp [hform]), if_pos (by simp [hform])]
      exact .some (hr m' rfl)
    · rw [if_neg (by simp [hform]), if_neg (by simp [hform])]
      exact hattributes

theorem leaveAlike_element? (form : ElementForm) {name name' : Text} (hname : SameTags name name')
    {m : List Mark} (hm : Faithful m) :
    LeaveAlike m (element? form name (plain m)) (element? form name' (expand m)) := by
  rw [element?_eq, element?_eq]
  exact (hname.opening m hm).bind fun m' hs => leaveAlike_behindName? form hname (hm.suffix hs)

theorem anyElement?_of_ne (form : ElementForm) (names : List Text) {c : Char} (hc : c ≠ '<')
    (t : Text) : anyElement? form names (c :: t) = none := by
  refine List.findSome?_eq_none_iff.2 ?_
  intro name _
  rw [element?, Text.literal?_cons_of_ne (Ne.symm hc)]
  rfl

/-- The number of characters of the element at the head, in a text and in the text with
placeholders: both are of one part of the marked text, if there is an element. -/
theorem exists_anyElement? (form : ElementForm) {names names' : List Text}
    (hnames : List.Forall₂ SameTags names names') {m : List Mark} (hm : Faithful m) :
    (anyElement? form names (plain m) = none ∧ anyElement? form names' (expand m) = none) ∨
      ∃ p m' name name', m = p ++ m' ∧
        anyElement? form names (plain m) = some ((plain p).length, name) ∧
        anyElement? form names' (expand m) = some ((expand p).length, name') := by
  induction hnames with
  | nil => exact .inl ⟨rfl, rfl⟩
  | @cons name name' names names' hname _ ih =>
    obtain ⟨r, hr, hx, hy⟩ := leaveAlike_element? form hname hm
    rw [anyElement?, anyElement?, List.findSome?_cons, List.findSome?_cons, hx, hy]
    cases r with
    | none => exact ih
    | some m' =>
      right
      obtain ⟨p, rfl⟩ := hr m' rfl
      refine ⟨p, m', name, name', rfl, ?_, ?_⟩
      · simp only [Option.map_some, Colon.plain_append, List.length_append, Nat.add_sub_cancel]
      · simp only [Option.map_some, Colon.expand_append, List.length_append, Nat.add_sub_cancel]

/-- A range of a document and a range of the escaped document are of one part of the marked
document. -/
def OfOnePart (d : Text) (s s' : Span) : Prop :=
  ∃ a p r, marks d = a ++ (p ++ r) ∧
    s = ⟨Text.size (plain a), Text.size (plain a) + Text.size (plain p)⟩ ∧
    s' = ⟨Text.size (expand a), Text.size (expand a) + Text.size (expand p)⟩

theorem ofOnePart_matchesFrom (form : ElementForm) {names names' : List Text}
    (hnames : List.Forall₂ SameTags names names') {d : Text} {a m : List Mark}
    (hd : marks d = a ++ m) (hm : Faithful m) :
    List.Forall₂ (OfOnePart d)
      ((Text.matchesFrom (anyElement? form names) 0 (Text.size (plain a)) (plain m)).map Found.span)
      ((Text.matchesFrom (anyElement? form names') 0 (Text.size (expand a)) (expand m)).map
        Found.span) := by
  -- an element is passed over as a whole, so the induction is on the length
  induction hn : m.length using Nat.strongRecOn generalizing a m with
  | ind n ih =>
    cases m with
    | nil => exact .nil
    | cons x m =>
      have later {p m' : List Mark} (hp : p ≠ []) (hsplit : x :: m = p ++ m') :
          List.Forall₂ (OfOnePart d)
            ((Text.matchesFrom (anyElement? form names) 0
              (Text.size (plain a) + Text.size (plain p)) (plain m')).map Found.span)
            ((Text.matchesFrom (anyElement? form names') 0
              (Text.size (expand a) + Text.size (expand p)) (expand m')).map Found.span) := by
        rw [hsplit] at hd hm hn
        rw [← List.append_assoc] at hd
        rw [← Text.size_append, ← Text.size_append, ← Colon.plain_append, ← Colon.expand_append]
        refine ih m'.length ?_ hd hm.right rfl
        have hpos := List.length_pos_iff.2 hp
        rw [← hn, List.length_append]
        omega
      obtain ⟨c, replaced⟩ := x
      cases replaced with
      | true =>
        obtain rfl := hm.proper.char_eq rfl
        have hnone : ∀ c s, c :: s <:+ placeholder →
            anyElement? form names' (c :: (s ++ expand m)) = none := by
          intro c s hs
          refine anyElement?_of_ne form names' ?_ _
          rintro rfl
          exact absurd (hs.mem List.mem_cons_self) (by decide)
        rw [Colon.plain_cons, Text.matchesFrom_of_none (anyElement?_of_ne form names (by decide) _),
          Colon.expand_cons_replaced, Text.matchesFrom_append_of_none hnone]
        exact later (List.cons_ne_nil ⟨':', true⟩ []) rfl
      | false =>
        rcases exists_anyElement? form hnames hm with ⟨hx, hy⟩ | ⟨p, m', name, name', hsplit, hx, hy⟩
        · rw [Colon.plain_cons] at hx ⊢
          rw [Colon.expand_cons_kept] at hy ⊢
          rw [Text.matchesFrom_of_none hx, Text.matchesFrom_of_none hy]
          exact later (List.cons_ne_nil ⟨c, false⟩ []) rfl
        · have hp : plain p ≠ [] :=
            List.length_pos_iff.1 (anyElement?_pos form names _ _ name hx)
          have hp' : expand p ≠ [] :=
            List.length_pos_iff.1 (anyElement?_pos form names' _ _ name' hy)
          have hne : p ≠ [] := by
            rintro rfl
            exact hp rfl
          have hrest := later hne hsplit
          rw [hsplit] at hd hx hy ⊢
          rw [Colon.plain_append] at hx ⊢
          rw [Colon.expand_append] at hy ⊢
          rw [Text.matchesFrom_of_some hp hx, Text.matchesFrom_of_some hp' hy, List.map_cons,
            List.map_cons]
          exact .cons ⟨a, p, m', hd, rfl, rfl⟩ hrest

/-- Elements are found in the same parts of a document and of the escaped document. -/
theorem ofOnePart_find (form : ElementForm) {names names' : List Text}
    (hnames : List.Forall₂ SameTags names names') {d : Text} (h : ¬ placeholder <:+: d) :
    List.Forall₂ (OfOnePart d) (find form names d) (find form names' (Colon.escape d)) := by
  have hfind := ofOnePart_matchesFrom form hnames (List.nil_append (marks d)).symm
    (faithful_marks h)
  rw [marks, Colon.plain_marksFrom, ← marks, ← Colon.escape_eq_expand] at hfind
  exact hfind

end ElementForm

namespace Container

/-- The special elements among the containers, by their names in a document with its colons. -/
def rawNames : List Text :=
  (["window", "document", "body", "options"].map String.toList).map fun name =>
    Colon.scope ++ ':' :: name

def rawElements (document : Text) : List Span :=
  stableSort (fun a b => decide (a.start ≤ b.start))
    (ElementForm.paired.find pairedNames document ++
      ElementForm.selfClosingOrPaired.find rawNames document)

theorem sameTags_pairedNames : List.Forall₂ ElementForm.SameTags pairedNames pairedNames := by
  refine List.forall₂_same.2 ?_
  intro name hname
  have hplain : ∀ name ∈ pairedNames, '-' ∉ name ∧ ':' ∉ name := by decide
  exact ElementForm.sameTags_of_plain (hplain name hname).1 (hplain name hname).2

theorem sameTags_rawNames : List.Forall₂ ElementForm.SameTags rawNames specialNames := by
  refine List.forall₂_map_left_iff.2 (List.forall₂_map_right_iff.2 (List.forall₂_same.2 ?_))
  intro name hname
  have hnames : ∀ name ∈ ["window", "document", "body", "options"].map String.toList,
      name ∈ Colon.names := by decide
  exact ElementForm.sameTags_special (hnames name hname)

end Container

namespace Colon

def movedSpan (d : Text) (s : Span) : Span :=
  ⟨moved d s.start, moved d s.stop⟩

end Colon

open Colon (movedSpan)

namespace ElementForm

theorem OfOnePart.eq_movedSpan {d : Text} {s s' : Span} (h : OfOnePart d s s') :
    s' = movedSpan d s := by
  obtain ⟨a, p, r, hd, rfl, rfl⟩ := h
  have hd' : marks d = a ++ p ++ r := by rw [hd, List.append_assoc]
  rw [movedSpan, Colon.moved_size hd, ← Text.size_append, ← Text.size_append, ← Colon.plain_append,
    ← Colon.expand_append, Colon.moved_size hd']

theorem OfOnePart.exists_text? {d : Text} (hfree : ¬ placeholder <:+: d) {s s' : Span}
    (h : OfOnePart d s s') :
    ∃ t, s'.text? (Colon.escape d) = some t ∧ s.text? d = some (Colon.unescape t) := by
  obtain ⟨a, p, r, hd, rfl, rfl⟩ := h
  have hm := faithful_marks hfree
  rw [hd] at hm
  have hplain : d = plain a ++ (plain p ++ plain r) := by
    rw [← Colon.plain_append, ← Colon.plain_append, ← hd, marks, Colon.plain_marksFrom]
  have hexpand : Colon.escape d = expand a ++ (expand p ++ expand r) := by
    rw [← Colon.expand_append, ← Colon.expand_append, ← hd, Colon.escape_eq_expand]
  have hfree' : ¬ placeholder <:+: plain p := by
    intro hin
    rw [hplain] at hfree
    exact hfree (hin.trans (List.infix_append' (plain a) (plain p) (plain r)))
  refine ⟨expand p, ?_, ?_⟩
  · rw [hexpand]
    exact Text.slice?_append _ _ _
  · rw [Colon.unescape_expand hm.proper.right.left hfree']
    exact (congrArg (fun t => Text.slice? t _ _) hplain).trans (Text.slice?_append _ _ _)

end ElementForm

/-- Replacing colons is not seen by the element matchers: in a document without the placeholder they
find the containers by the escaped names exactly where they find them by the real ones, and the text
of each of them is the real one when its colons are put back. -/
theorem elements_escape {d : Text} (h : ¬ placeholder <:+: d) :
    Container.elements (Colon.escape d) = (Container.rawElements d).map (movedSpan d) ∧
      ∀ s ∈ Container.rawElements d, ∃ t, (movedSpan d s).text? (Colon.escape d) = some t ∧
        s.text? d = some (Colon.unescape t) := by
  have hfound := List.rel_append
    (ElementForm.ofOnePart_find .paired Container.sameTags_pairedNames h)
    (ElementForm.ofOnePart_find .selfClosingOrPaired Container.sameTags_rawNames h)
  have hsorted : List.Forall₂ (ElementForm.OfOnePart d) (Container.rawElements d)
      (Container.elements (Colon.escape d)) := by
    refine forall₂_stableSort ?_ hfound
    intro s s' u u' hs hu
    rw [hs.eq_movedSpan, hu.eq_movedSpan]
    exact decide_eq_decide.2 (Colon.strictMono_moved d).le_iff_le.symm
  have hmap : Container.elements (Colon.escape d) =
      (Container.rawElements d).map (movedSpan d) := by
    have heq := hsorted.imp fun s s' hs => hs.eq_movedSpan.symm
    rw [← List.forall₂_map_left_iff, List.forall₂_eq_eq_eq] at heq
    exact heq.symm
  refine ⟨hmap, ?_⟩
  rw [hmap, List.forall₂_map_right_iff, List.forall₂_same] at hsorted
  intro s hs
  exact (hsorted s hs).exists_text? h

/-- A special tag in a quoted value has its colon replaced too, and shifts what follows. -/
theorem elements_escape_shifted :
    let window := "<svelte:window on:x=\x7ba\x7d/>".toList
    let style := "<style a=\"<svelte:self>\">é</style>".toList
    let body := "<svelte:body>b</svelte:body >".toList
    let d := window ++ style ++ body
    ¬ placeholder <:+: d ∧ Container.rawElements d = [⟨0, 25⟩, ⟨25, 60⟩, ⟨60, 89⟩] ∧
      Container.elements (Colon.escape d) = [⟨0, 38⟩, ⟨38, 86⟩, ⟨86, 141⟩] ∧
      ∃ t, (⟨86, 141⟩ : Span).text? (Colon.escape d) = some t ∧ Colon.unescape t = body := by
  intro window style body d
  have h : ¬ placeholder <:+: d := by decide +kernel
  have hraw : Container.rawElements d = [⟨0, 25⟩, ⟨25, 60⟩, ⟨60, 89⟩] := by decide +kernel
  have hmoved : [⟨0, 25⟩, ⟨25, 60⟩, ⟨60, 89⟩].map (movedSpan d) =
      [⟨0, 38⟩, ⟨38, 86⟩, ⟨86, 141⟩] := by decide +kernel
  have hbody : (⟨60, 89⟩ : Span).text? d = some body := by decide +kernel
  obtain ⟨hmap, htexts⟩ := elements_escape h
  rw [hraw] at htexts
  rw [hraw, hmoved] at hmap
  obtain ⟨t, ht, hplain⟩ := htexts ⟨60, 89⟩ (by simp)
  have hspan : movedSpan d ⟨60, 89⟩ = ⟨86, 141⟩ := by
    simp only [List.map_cons, List.cons.injEq] at hmoved
    exact hmoved.2.2.1
  rw [hspan] at ht
  rw [hbody] at hplain
  exact ⟨h, hraw, hmap, t, ht, (Option.some.inj hplain).symm⟩

end Cloak
