import Mathlib.Order.Monotone.Basic
import Cloak.Proofs.Colon
import Cloak.Proofs.Slice

namespace Cloak.Colon

/-- What stands before the colon in an opening and in a closing tag of the namespace. -/
def heads : List Text :=
  ['<' :: scope, '<' :: '/' :: scope]

/-- Whether a character between two parts of a document is a colon that is replaced: one behind the
namespace in a tag and before a special name. -/
def isReplaced (before : Text) (c : Char) (after : Text) : Bool :=
  c == ':' && heads.any (fun head => head.isSuffixOf before) && (name? after).isSome

/-- A character of a document, and whether it is replaced. -/
structure Mark where
  char : Char
  replaced : Bool

def plain (m : List Mark) : Text :=
  m.map Mark.char

/-- The text with the placeholder for each character that is replaced. -/
def expand (m : List Mark) : Text :=
  m.flatMap fun x => if x.replaced then placeholder else [x.char]

def unmarked (t : Text) : List Mark :=
  t.map fun c => ⟨c, false⟩

def marksFrom (before : Text) : Text → List Mark
  | [] => []
  | c :: cs => ⟨c, isReplaced before c cs⟩ :: marksFrom (before ++ [c]) cs

def marks (d : Text) : List Mark :=
  marksFrom [] d

def offsetsFrom (before : Text) : Text → List Nat
  | [] => []
  | c :: cs =>
    (if isReplaced before c cs then [Text.size before] else []) ++ offsetsFrom (before ++ [c]) cs

def offsets (d : Text) : List Nat :=
  offsetsFrom [] d

/-- Where an offset of a document is in the escaped document: 13 bytes on for each colon that is
replaced before it. -/
def moved (d : Text) (n : Nat) : Nat :=
  n + 13 * (offsets d).countP fun k => decide (k < n)

theorem isReplaced_iff {before after : Text} {c : Char} :
    isReplaced before c after ↔
      c = ':' ∧ (∃ head ∈ heads, head <:+ before) ∧ (name? after).isSome := by
  simp only [isReplaced, Bool.and_eq_true, beq_iff_eq, List.any_eq_true, List.isSuffixOf_iff_suffix,
    and_assoc]

theorem plain_append (a b : List Mark) : plain (a ++ b) = plain a ++ plain b :=
  List.map_append

theorem expand_append (a b : List Mark) : expand (a ++ b) = expand a ++ expand b :=
  List.flatMap_append

@[simp] theorem plain_nil : plain [] = [] :=
  rfl

@[simp] theorem expand_nil : expand [] = [] :=
  rfl

@[simp] theorem plain_cons (x : Mark) (m : List Mark) : plain (x :: m) = x.char :: plain m :=
  rfl

theorem expand_cons_replaced (c : Char) (m : List Mark) :
    expand (⟨c, true⟩ :: m) = placeholder ++ expand m :=
  rfl

theorem expand_cons_kept (c : Char) (m : List Mark) : expand (⟨c, false⟩ :: m) = c :: expand m :=
  rfl

@[simp] theorem plain_unmarked (t : Text) : plain (unmarked t) = t := by
  rw [plain, unmarked, List.map_map]
  exact List.map_id t

@[simp] theorem expand_unmarked (t : Text) : expand (unmarked t) = t := by
  induction t with
  | nil => rfl
  | cons c t ih =>
    rw [unmarked] at ih ⊢
    rw [List.map_cons, expand_cons_kept, ih]

theorem plain_marksFrom (before t : Text) : plain (marksFrom before t) = t := by
  induction t generalizing before with
  | nil => rfl
  | cons c t ih => rw [marksFrom, plain_cons, ih]

theorem marksFrom_split {before t : Text} {a r : List Mark} {x : Mark}
    (h : marksFrom before t = a ++ x :: r) :
    x.replaced = isReplaced (before ++ plain a) x.char (plain r) := by
  induction a generalizing before t with
  | nil =>
    cases t with
    | nil => cases h
    | cons c t =>
      obtain ⟨rfl, rfl⟩ := List.cons.inj h
      rw [plain_nil, List.append_nil, plain_marksFrom]
  | cons y a ih =>
    cases t with
    | nil => cases h
    | cons c t =>
      obtain ⟨rfl, hm⟩ := List.cons.inj h
      rw [ih hm, plain_cons, List.append_assoc, List.singleton_append]

/-- In a part of a marked document what is replaced are colons behind an `e`. -/
def Proper (m : List Mark) : Prop :=
  ∀ a x r, m = a ++ x :: r → x.replaced → x.char = ':' ∧ ∀ y ∈ a.getLast?, y.char = 'e'

/-- In an end of a marked document all is replaced that should be. -/
def Complete (m : List Mark) : Prop :=
  ∀ a x r, m = a ++ x :: r → isReplaced (plain a) x.char (plain r) → x.replaced

theorem Proper.left {a b : List Mark} (h : Proper (a ++ b)) : Proper a := by
  rintro a' x r rfl hx
  exact h a' x (r ++ b) (by rw [List.append_assoc, List.cons_append]) hx

theorem Proper.right {a b : List Mark} (h : Proper (a ++ b)) : Proper b := by
  rintro a' x r rfl hx
  obtain ⟨hc, he⟩ := h (a ++ a') x r (List.append_assoc a a' _).symm hx
  refine ⟨hc, ?_⟩
  intro y hy
  refine he y ?_
  rw [List.getLast?_append, hy]
  rfl

theorem Complete.right {a b : List Mark} (h : Complete (a ++ b)) : Complete b := by
  rintro a' x r rfl hx
  refine h (a ++ a') x r (List.append_assoc a a' _).symm ?_
  obtain ⟨hc, ⟨head, hhead, hs⟩, hn⟩ := isReplaced_iff.1 hx
  refine isReplaced_iff.2 ⟨hc, ⟨head, hhead, ?_⟩, hn⟩
  rw [plain_append]
  exact hs.trans (List.suffix_append _ _)

theorem getLast?_heads : ∀ head ∈ heads, head.getLast? = some 'e' := by
  decide

theorem proper_marks (d : Text) : Proper (marks d) := by
  intro a x r hm hx
  rw [marksFrom_split hm, List.nil_append] at hx
  obtain ⟨hc, ⟨head, hhead, hs⟩, -⟩ := isReplaced_iff.1 hx
  refine ⟨hc, ?_⟩
  intro y hy
  obtain ⟨b, hb⟩ := hs
  have hlast := congrArg List.getLast? hb
  rw [List.getLast?_append, getLast?_heads head hhead, plain, List.getLast?_map, hy] at hlast
  exact (Option.some.inj hlast).symm

theorem complete_marks (d : Text) : Complete (marks d) := by
  intro a x r hm hx
  rw [marksFrom_split hm]
  exact hx

theorem Proper.char_eq {x : Mark} {m : List Mark} (h : Proper (x :: m)) (hx : x.replaced) :
    x.char = ':' :=
  (h [] x m rfl hx).1

theorem Proper.tail {x : Mark} {m : List Mark} (h : Proper (x :: m)) : Proper m := by
  have h' : Proper ([x] ++ m) := h
  exact h'.right

theorem marksFrom_append {w : Text} (hw : ':' ∉ w) (before t : Text) :
    marksFrom before (w ++ t) = unmarked w ++ marksFrom (before ++ w) t := by
  induction w generalizing before with
  | nil => rw [List.append_nil]; rfl
  | cons c w ih =>
    obtain ⟨hc, hw⟩ := not_or.1 (mt List.mem_cons.2 hw)
    have hkept : isReplaced before c (w ++ t) = false := by
      rw [isReplaced, beq_false_of_ne (Ne.symm hc), Bool.false_and, Bool.false_and]
    rw [List.cons_append, marksFrom, hkept, ih hw, List.append_assoc]
    rfl

/-- No tag that begins in the part before the rest goes on in the rest up to a special name. -/
def NoneBegun (before t : Text) : Prop :=
  ∀ u v rest, u ≠ [] → u <:+ before → u ++ v ∈ heads → t = v ++ ':' :: rest → name? rest = none

theorem scope?_append {head : Text} (h : head ∈ heads) (rest : Text) :
    scope? (head ++ ':' :: rest) = some (head, rest) := by
  rcases List.mem_cons.1 h with rfl | h
  · rfl
  · rw [List.mem_singleton.1 h]
    rfl

theorem tag?_append {head : Text} (h : head ∈ heads) (rest : Text) :
    tag? (head ++ ':' :: rest) =
      (name? rest).map fun name => (head.length + 1 + name.length, head ++ placeholder ++ name) := by
  rw [tag?, scope?_append h]
  change ((name? rest).bind fun name =>
    some (head.length + 1 + name.length, head ++ placeholder ++ name)) = _
  cases name? rest with
  | none => rfl
  | some name => rfl

theorem NoneBegun.not_isReplaced {before t : Text} {c : Char} (h : NoneBegun before (c :: t)) :
    isReplaced before c t = false := by
  rw [Bool.eq_false_iff]
  intro hr
  obtain ⟨rfl, ⟨head, hhead, hs⟩, hn⟩ := isReplaced_iff.1 hr
  have hne : head ≠ [] := by
    rintro rfl
    exact absurd hhead (by decide)
  have hnone := h head [] t hne hs (by rwa [List.append_nil]) rfl
  rw [hnone] at hn
  cases hn

theorem NoneBegun.step {before t : Text} {c : Char} (h : NoneBegun before (c :: t))
    (ht : tag? (c :: t) = none) : NoneBegun (before ++ [c]) t := by
  intro u v rest hu hs hhead hsplit
  rcases List.eq_nil_or_concat u with rfl | ⟨u', c', rfl⟩
  · exact absurd rfl hu
  · rw [List.concat_eq_append] at hs hhead
    obtain ⟨b, hb⟩ := hs
    rw [← List.append_assoc] at hb
    obtain ⟨rfl, hc⟩ := List.append_inj' hb rfl
    obtain rfl := List.singleton_inj.1 hc
    rw [List.append_assoc, List.singleton_append] at hhead
    by_cases hu' : u' = []
    · subst hu'
      have hhead' : c' :: v ∈ heads := hhead
      rw [hsplit, ← List.cons_append, tag?_append hhead'] at ht
      exact Option.map_eq_none_iff.1 ht
    · exact h u' (c' :: v) rest hu' (List.suffix_append b u') hhead (congrArg (c' :: ·) hsplit)

theorem not_dash_mem_heads : ∀ head ∈ heads, '-' ∉ head := by
  decide

theorem not_colon_mem_heads : ∀ head ∈ heads, ':' ∉ head := by
  decide

theorem not_colon_mem_names : ∀ name ∈ names, ':' ∉ name := by
  decide

theorem not_angle_mem_names : ∀ name ∈ names, '<' ∉ name := by
  decide

theorem head?_heads : ∀ head ∈ heads, head.head? = some '<' := by
  decide

theorem noneBegun_append {name : Text} (hname : name ∈ names) (before t : Text) :
    NoneBegun (before ++ ':' :: name) t := by
  rintro u v rest hu ⟨b, hb⟩ hhead
  exfalso
  have hcolon : ':' ∉ u := fun hm => not_colon_mem_heads _ hhead (List.mem_append_left v hm)
  rcases List.append_eq_append_iff.1 hb with ⟨m, -, rfl⟩ | ⟨m, -, hm⟩
  · exact hcolon (List.mem_append_right m List.mem_cons_self)
  · cases m with
    | nil =>
      rw [List.nil_append] at hm
      rw [← hm] at hcolon
      exact hcolon List.mem_cons_self
    | cons c m =>
      obtain ⟨-, hname'⟩ := List.cons.inj hm
      cases u with
      | nil => exact hu rfl
      | cons d u =>
        obtain rfl : d = '<' := Option.some.inj (head?_heads _ hhead)
        refine not_angle_mem_names name hname ?_
        rw [hname']
        exact List.mem_append_right m List.mem_cons_self

theorem exists_of_tag? {t r : Text} {n : Nat} (h : tag? t = some (n, r)) :
    ∃ head ∈ heads, ∃ name ∈ names, ∃ rest, t = head ++ ':' :: name ++ rest ∧
      n = (head ++ ':' :: name).length ∧ r = head ++ placeholder ++ name ∧
      (name? (name ++ rest)).isSome := by
  obtain ⟨head, name, rest, hcases, hname, hsplit, hlength, hr⟩ := tag?_eq_some h
  have hhead : head ∈ heads := by
    rcases hcases with rfl | rfl
    · exact List.mem_cons_of_mem _ List.mem_cons_self
    · exact List.mem_cons_self
  refine ⟨head, hhead, name, hname, rest, hsplit, hlength, hr, ?_⟩
  rw [hsplit, List.append_assoc, List.cons_append, tag?_append hhead] at h
  obtain ⟨name', hname', -⟩ := Option.map_eq_some_iff.1 h
  exact Option.isSome_iff_exists.2 ⟨name', hname'⟩

theorem escape_eq_expand_marksFrom {before t : Text} (h : NoneBegun before t) :
    escape t = expand (marksFrom before t) := by
  -- behind a tag the walk goes on with any rest, so the induction is on the length
  induction hn : t.length using Nat.strongRecOn generalizing before t with
  | ind n ih =>
    cases t with
    | nil => rfl
    | cons c t =>
      cases ht : tag? (c :: t) with
      | none =>
        have hesc : escape (c :: t) = c :: escape t := Text.replaceAll_of_none ht
        rw [hesc, marksFrom, h.not_isReplaced, expand_cons_kept]
        congr 1
        refine ih t.length ?_ (h.step ht) rfl
        rw [← hn]
        exact Nat.lt_succ_self _
      | some read =>
        obtain ⟨m, r⟩ := read
        obtain ⟨head, hhead, name, hname, rest, hsplit, rfl, rfl, hsome⟩ := exists_of_tag? ht
        rw [hsplit] at ht hn ⊢
        have hesc : escape (head ++ ':' :: name ++ rest) =
            head ++ (placeholder ++ (name ++ escape rest)) := by
          rw [escape, Text.replaceAll_of_some (by simp) ht, List.append_assoc, List.append_assoc]
          rfl
        have hassoc : head ++ ':' :: name ++ rest = head ++ ':' :: (name ++ rest) := by
          rw [List.append_assoc, List.cons_append]
        have hmark : isReplaced (before ++ head) ':' (name ++ rest) = true :=
          isReplaced_iff.2 ⟨rfl, ⟨head, hhead, List.suffix_append before head⟩, hsome⟩
        have hbegun : NoneBegun (before ++ head ++ [':'] ++ name) rest := by
          rw [List.append_assoc (before ++ head)]
          exact noneBegun_append hname (before ++ head) rest
        have hlength : rest.length < n := by
          rw [← hn]
          simp only [List.length_append, List.length_cons]
          omega
        rw [hesc, ih rest.length hlength hbegun rfl, hassoc,
          marksFrom_append (not_colon_mem_heads head hhead), marksFrom, hmark,
          marksFrom_append (not_colon_mem_names name hname), expand_append, expand_unmarked,
          expand_cons_replaced, expand_append, expand_unmarked]

theorem escape_eq_expand (d : Text) : escape d = expand (marks d) := by
  refine escape_eq_expand_marksFrom ?_
  intro u v rest hu hs
  exact absurd (List.suffix_nil.1 hs) hu

theorem size_le_of_mem_offsetsFrom {before t : Text} {n : Nat} (h : n ∈ offsetsFrom before t) :
    before.size ≤ n := by
  induction t generalizing before with
  | nil => cases h
  | cons c t ih =>
    rw [offsetsFrom] at h
    rcases List.mem_append.1 h with h | h
    · split at h
      · exact Nat.le_of_eq (List.mem_singleton.1 h).symm
      · cases h
    · have hle := ih h
      rw [Text.size_append_singleton] at hle
      omega

theorem countP_offsetsFrom {before t : Text} {a r : List Mark} (h : marksFrom before t = a ++ r) :
    (offsetsFrom before t).countP (fun k => decide (k < before.size + Text.size (plain a))) =
      a.countP Mark.replaced := by
  induction a generalizing before t with
  | nil =>
    refine List.countP_eq_zero.2 ?_
    intro n hn
    have hle := size_le_of_mem_offsetsFrom hn
    rw [decide_eq_true_eq, plain_nil, Text.size_nil]
    omega
  | cons x a ih =>
    cases t with
    | nil => cases h
    | cons c t =>
      obtain ⟨rfl, hm⟩ := List.cons.inj h
      have hlater := ih hm
      rw [Text.size_append_singleton, Nat.add_assoc] at hlater
      have hpos := c.utf8Size_pos
      rw [offsetsFrom, List.countP_append, plain_cons, Text.size_cons, hlater, List.countP_cons,
        Nat.add_comm]
      congr 1
      cases isReplaced before c t with
      | false => rfl
      | true =>
        simp only [if_true, List.countP_singleton, decide_eq_true_eq]
        rw [if_pos (by omega)]

theorem size_expand {m : List Mark} (h : Proper m) :
    Text.size (expand m) = Text.size (plain m) + 13 * m.countP Mark.replaced := by
  induction m with
  | nil => rfl
  | cons x m ih =>
    obtain ⟨c, replaced⟩ := x
    have hsize := ih h.tail
    cases replaced with
    | false =>
      rw [expand_cons_kept, Text.size_cons, hsize, plain_cons, Text.size_cons,
        List.countP_cons_of_neg Bool.false_ne_true, Nat.add_assoc]
    | true =>
      obtain rfl := h.char_eq rfl
      have hplaceholder : Text.size placeholder = Char.utf8Size ':' + 13 := by decide
      rw [expand_cons_replaced, Text.size_append, hsize, hplaceholder, plain_cons, Text.size_cons,
        List.countP_cons_of_pos rfl]
      simp only
      omega

theorem moved_size {d : Text} {a r : List Mark} (h : marks d = a ++ r) :
    moved d (Text.size (plain a)) = Text.size (expand a) := by
  have hcount := countP_offsetsFrom h
  have hproper : Proper (a ++ r) := h ▸ proper_marks d
  rw [Text.size_nil, Nat.zero_add] at hcount
  rw [moved, offsets, hcount, size_expand hproper.left]

theorem strictMono_moved (d : Text) : StrictMono (moved d) := by
  intro m n h
  have hcount : (offsets d).countP (fun k => decide (k < m)) ≤
      (offsets d).countP fun k => decide (k < n) := by
    refine List.countP_mono_left ?_
    intro k _ hk
    rw [decide_eq_true_eq] at hk ⊢
    omega
  rw [moved, moved]
  omega

theorem exists_append_of_plain {m : List Mark} (hm : Proper m) {w r : Text} (hw : ':' ∉ w)
    (h : plain m = w ++ r) : ∃ m', m = unmarked w ++ m' ∧ plain m' = r := by
  induction w generalizing m with
  | nil => exact ⟨m, rfl, h⟩
  | cons c w ih =>
    obtain ⟨hc, hw'⟩ := not_or.1 (mt List.mem_cons.2 hw)
    cases m with
    | nil => cases h
    | cons x m =>
      obtain ⟨rfl, hrest⟩ := List.cons.inj h
      obtain ⟨m', rfl, hr⟩ := ih hm.tail hw' hrest
      obtain ⟨d, replaced⟩ := x
      cases replaced with
      | false => exact ⟨m', rfl, hr⟩
      | true => exact absurd (hm.char_eq rfl).symm hc

/-- A word in which no `-` stands behind an `e` is in an escaped text only where it is unmarked,
unless it starts in a placeholder. -/
theorem exists_append_of_expand {m : List Mark} (hm : Proper m) {w r : Text}
    (hw : ¬ ['e', '-'] <:+: w) (hhead : w.head? ≠ some '-' ∨ ∀ x ∈ m.head?, x.replaced = false)
    (h : expand m = w ++ r) : ∃ m', m = unmarked w ++ m' ∧ expand m' = r := by
  induction w generalizing m with
  | nil => exact ⟨m, rfl, h⟩
  | cons c w ih =>
    cases m with
    | nil => cases h
    | cons x m =>
      obtain ⟨d, replaced⟩ := x
      cases replaced with
      | true =>
        rw [expand_cons_replaced] at h
        obtain ⟨rfl, -⟩ := List.cons.inj h
        rcases hhead with hhead | hhead
        · exact absurd rfl hhead
        · cases hhead ⟨d, true⟩ rfl
      | false =>
        rw [expand_cons_kept, List.cons_append] at h
        obtain ⟨rfl, hrest⟩ := List.cons.inj h
        have hw' : ¬ ['e', '-'] <:+: w := fun hin => hw (hin.trans (List.suffix_cons d w).isInfix)
        -- a placeholder behind `d` means that `d` is the `e` at the end of the namespace
        have hhead' : w.head? ≠ some '-' ∨ ∀ x ∈ m.head?, x.replaced = false := by
          cases m with
          | nil => exact .inr fun x hx => absurd hx (Option.not_mem_none x)
          | cons y m =>
            cases hy : y.replaced with
            | false =>
              right
              rintro x hx
              cases hx
              exact hy
            | true =>
              left
              intro hdash
              obtain ⟨w, rfl⟩ := List.head?_eq_some_iff.1 hdash
              obtain rfl : d = 'e' := (hm [⟨d, false⟩] y m rfl hy).2 _ rfl
              exact hw ⟨[], w, rfl⟩
        obtain ⟨m', rfl, hr⟩ := ih hm.tail hw' hhead' hrest
        exact ⟨m', rfl, hr⟩

theorem exists_append_of_expand_of_not_mem {m : List Mark} (hm : Proper m) {w r : Text}
    (hw : '-' ∉ w) (h : expand m = w ++ r) : ∃ m', m = unmarked w ++ m' ∧ expand m' = r := by
  have hin : ¬ ['e', '-'] <:+: w :=
    fun hin => hw (hin.mem (List.mem_cons_of_mem _ List.mem_cons_self))
  exact exists_append_of_expand hm hin (.inl fun hd => hw (List.mem_of_head? hd)) h

theorem not_infix_placeholder : ¬ ['e', '-'] <:+: placeholder := by
  decide +kernel

theorem exists_append_of_prefix_expand {c : Char} {m : List Mark} (hm : Proper (⟨c, false⟩ :: m))
    (h : placeholder <+: expand (⟨c, false⟩ :: m)) :
    ∃ m', ⟨c, false⟩ :: m = unmarked placeholder ++ m' := by
  obtain ⟨r, hr⟩ := h
  have hhead : ∀ x ∈ (⟨c, false⟩ :: m : List Mark).head?, x.replaced = false := by
    rintro x hx
    cases hx
    rfl
  obtain ⟨m', hm', -⟩ := exists_append_of_expand hm not_infix_placeholder (.inr hhead) hr.symm
  exact ⟨m', hm'⟩

theorem exists_append_of_prefix_plain {m : List Mark} (hm : Proper m)
    (h : placeholder <+: plain m) : ∃ m', m = unmarked placeholder ++ m' := by
  obtain ⟨r, hr⟩ := h
  obtain ⟨m', hm', -⟩ := exists_append_of_plain hm (by decide) hr.symm
  exact ⟨m', hm'⟩

theorem not_prefix_expand {c : Char} {m : List Mark} (hm : Proper (⟨c, false⟩ :: m))
    (h : ¬ placeholder <:+: plain (⟨c, false⟩ :: m)) :
    ¬ placeholder <+: expand (⟨c, false⟩ :: m) := by
  intro hp
  obtain ⟨m', hm'⟩ := exists_append_of_prefix_expand hm hp
  rw [hm', plain_append, plain_unmarked] at h
  exact h (List.prefix_append _ _).isInfix

/-- Where a placeholder was put, none but it is found: putting colons back gives the same as in the
document itself, which may hold placeholders of its own. -/
theorem unescape_expand_eq {m : List Mark} (hm : Proper m) :
    unescape (expand m) = unescape (plain m) := by
  -- behind a placeholder of the document the walks go on with any rest
  induction hn : m.length using Nat.strongRecOn generalizing m with
  | ind n ih =>
    cases m with
    | nil => rfl
    | cons x m =>
      obtain ⟨c, replaced⟩ := x
      have hrest : unescape (expand m) = unescape (plain m) := by
        refine ih m.length ?_ hm.tail rfl
        rw [← hn]
        exact Nat.lt_succ_self _
      cases replaced with
      | true =>
        obtain rfl := hm.char_eq rfl
        have hcolon : ¬ placeholder <+: ':' :: plain m :=
          fun hp => absurd (List.cons_prefix_cons.1 hp).1 (by decide)
        rw [expand_cons_replaced, unescape_placeholder, hrest, plain_cons,
          unescape_cons_of_none hcolon]
        rfl
      | false =>
        by_cases hp : placeholder <+: expand (⟨c, false⟩ :: m)
        · obtain ⟨m', hm'⟩ := exists_append_of_prefix_expand hm hp
          rw [hm'] at hm hn ⊢
          have hlength : m'.length < n := by
            rw [← hn, List.length_append]
            exact Nat.lt_add_of_pos_left (by decide)
          rw [expand_append, plain_append, expand_unmarked, plain_unmarked, unescape_placeholder,
            unescape_placeholder, ih m'.length hlength hm.right rfl]
        · have hp' : ¬ placeholder <+: plain (⟨c, false⟩ :: m) := by
            intro hplain
            obtain ⟨m', hm'⟩ := exists_append_of_prefix_plain hm hplain
            rw [hm', expand_append, expand_unmarked] at hp
            exact hp (List.prefix_append _ _)
          rw [expand_cons_kept] at hp ⊢
          rw [plain_cons] at hp' ⊢
          rw [unescape_cons_of_none hp, unescape_cons_of_none hp', hrest]

theorem unescape_expand {m : List Mark} (hm : Proper m) (h : ¬ placeholder <:+: plain m) :
    unescape (expand m) = plain m := by
  rw [unescape_expand_eq hm, unescape_eq_self h]

theorem unescape_escape {d : Text} (h : ¬ placeholder <:+: d) : unescape (escape d) = d := by
  have hplain : plain (marks d) = d := plain_marksFrom [] d
  rw [escape_eq_expand, unescape_expand (proper_marks d) (by rwa [hplain]), hplain]

end Cloak.Colon
