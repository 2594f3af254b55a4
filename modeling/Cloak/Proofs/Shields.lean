import Cloak.Proofs.Overlap

namespace Cloak

namespace Expression

section

variable {t : Text} {shields fewer : List Span}

/-- The character before an offset is no backslash that a walk could see. -/
def Settled (t : Text) (fewer : List Span) (n : Nat) : Prop :=
  t.WordAt (n - 1) ['\\'] → ∃ r ∈ fewer, r.holds (n - 1)

/-- Each shield is one of some others, or does not end with a backslash. -/
def EndsSettled (t : Text) (fewer shields : List Span) : Prop :=
  ∀ r ∈ shields, r ∈ fewer ∨ ¬ t.WordAt (r.stop - 1) ['\\']

theorem EndsSettled.settled (h : EndsSettled t fewer shields) {r : Span} (hr : r ∈ shields)
    {offset : Nat} (hold : r.holds offset) : Settled t fewer r.stop := by
  intro hword
  rcases h r hr with hfewer | hend
  · rw [Span.holds_iff] at hold
    exact ⟨r, hfewer, Span.holds_iff.2 (by omega)⟩
  · exact absurd hword hend

theorem Step.settled {w w' : Walk} {offset : Nat} {c : Char} {rest : Text} {found : Option Span}
    (h : Step shields w offset c rest found w') (hends : EndsSettled t fewer shields)
    (hr : t.RestAt offset (c :: rest)) (hw : offset < w.reached → Settled t fewer w.reached) :
    offset + c.utf8Size < w'.reached → Settled t fewer w'.reached := by
  intro hlt
  cases h with
  | asleep hasleep => exact hw hasleep
  | hidden hawake => exact absurd hlt (Nat.not_lt_of_le (Nat.le_trans hawake (Nat.le_add_right _ _)))
  | shield _ hr hold => exact hends.settled hr hold
  | backslash hlooks =>
    exact absurd hlt (Nat.not_lt_of_le (Nat.le_trans hlooks.awake (Nat.le_add_right _ _)))
  | braces _ _ hs =>
    intro hword
    have hclose : t.WordAt (_ - 1) ['\x7d'] := (enclosedBy_of_braces? hr hs).closes
    exact absurd (hword.char_eq hclose) (by decide)
  | other hlooks =>
    exact absurd hlt (Nat.not_lt_of_le (Nat.le_trans hlooks.awake (Nat.le_add_right _ _)))

/-- Two walks at one place: what they sleep over is settled, and where both are awake, a character
is hidden to both or to none. -/
structure InStep (t : Text) (fewer : List Span) (offset : Nat) (a b : Walk) : Prop where
  left : offset < a.reached → Settled t fewer a.reached
  right : offset < b.reached → Settled t fewer b.reached
  hidden_eq : a.reached ≤ offset → b.reached ≤ offset → a.hidden = b.hidden

theorem InStep.start : InStep t fewer 0 ⟨0, false⟩ ⟨0, false⟩ where
  left h := absurd h (Nat.lt_irrefl 0)
  right h := absurd h (Nat.lt_irrefl 0)
  hidden_eq _ _ := rfl

theorem InStep.symm {offset : Nat} {a b : Walk} (h : InStep t fewer offset a b) :
    InStep t fewer offset b a :=
  ⟨h.right, h.left, fun hb ha => (h.hidden_eq ha hb).symm⟩

theorem Step.hidden_of_hidden {shields' : List Span} {a a' b b' : Walk} {offset : Nat} {c : Char}
    {rest : Text} {found found' : Option Span} (ha : Step shields a offset c rest found a')
    (hb : Step shields' b offset c rest found' b') (h : InStep t fewer offset a b)
    (hfewer : ∀ r ∈ fewer, r ∈ shields) (hends : EndsSettled t fewer shields')
    (hr : t.RestAt offset (c :: rest)) (hawake : b'.reached ≤ offset + c.utf8Size)
    (hhidden : a'.hidden = true) : b'.hidden = true := by
  cases ha with
  | backslash hlooks hc =>
    subst hc
    have hsize : ('\\').utf8Size = 1 := rfl
    rw [hsize] at hawake
    -- the backslash is in no shield, so nothing that a walk sleeps over ends with it
    have stray {n : Nat} (hn : n = offset + 1) (hsettled : Settled t fewer n) : False := by
      subst hn
      obtain ⟨r, hr, hold⟩ := hsettled hr.head
      exact hlooks.outside r (hfewer r hr) hold
    cases hb with
    | asleep hasleep => exact (stray (Nat.le_antisymm hawake hasleep) (h.right hasleep)).elim
    | hidden hb hh =>
      have heq := h.hidden_eq hlooks.awake hb
      rw [hlooks.seen, hh] at heq
      cases heq
    | shield _ hr hold =>
      have hlt := (Span.holds_iff.1 hold).2
      exact (stray (Nat.le_antisymm hawake hlt) (hends.settled hr hold)).elim
    | backslash => rfl
    | braces _ hc => exact absurd rfl hc
    | other _ hc => exact absurd rfl hc
  | _ => cases hhidden

theorem InStep.step {a a' b b' : Walk} {offset : Nat} {c : Char} {rest : Text}
    {found found' : Option Span} (h : InStep t fewer offset a b)
    (ha : Step shields a offset c rest found a') (hb : Step fewer b offset c rest found' b')
    (hfewer : ∀ r ∈ fewer, r ∈ shields) (hends : EndsSettled t fewer shields)
    (hr : t.RestAt offset (c :: rest)) : InStep t fewer (offset + c.utf8Size) a' b' := by
  have hends' : EndsSettled t fewer fewer := fun r hr => .inl hr
  constructor
  case left => exact ha.settled hends hr h.left
  case right => exact hb.settled hends' hr h.right
  case hidden_eq =>
    intro hawake hawake'
    apply Bool.eq_iff_iff.2
    constructor
    · exact ha.hidden_of_hidden hb h hfewer hends' hr hawake'
    · exact hb.hidden_of_hidden ha h.symm (fun _ hr => hr) hends hr hawake

/-- An interpolation that is found with fewer shields is found with all of them, or where it starts
there is another interpolation or a shield, or the walk with all shields has not yet come so far. -/
theorem mem_scan_of_fewer (hsorted : shields.Pairwise fun r r' => r.start ≤ r'.start)
    (hsorted' : fewer.Pairwise fun r r' => r.start ≤ r'.start) (hfewer : ∀ r ∈ fewer, r ∈ shields)
    (hends : EndsSettled t fewer shields) {offset : Nat} {a b : Walk} {rest : Text}
    (hr : t.RestAt offset rest) (h : InStep t fewer offset a b) {s : Span}
    (hs : s ∈ scan fewer b.reached b.hidden offset rest) :
    s ∈ scan shields a.reached a.hidden offset rest ∨
      (∃ e ∈ scan shields a.reached a.hidden offset rest, e.start < s.start ∧ s.start < e.stop) ∨
      (∃ r ∈ shields, r.holds s.start) ∨ s.start < a.reached := by
  induction rest generalizing offset a b with
  | nil => cases hs
  | cons c rest ih =>
    obtain ⟨found, a', ha, hscan⟩ := exists_step hsorted a offset c rest
    obtain ⟨found', b', hb, hscan'⟩ := exists_step hsorted' b offset c rest
    rw [hscan'] at hs
    rw [hscan]
    rcases List.mem_append.1 hs with hfound | hlater
    · obtain rfl : found' = some s := Option.mem_toList.1 hfound
      cases hb with
      | braces hlooks hc hbraces =>
        have hstart := start_of_braces? hbraces
        cases ha with
        | asleep hasleep => exact .inr (.inr (.inr (by omega)))
        | hidden hawake hh =>
          have heq := h.hidden_eq hawake hlooks.awake
          rw [hlooks.seen, hh] at heq
          cases heq
        | shield _ hr hold =>
          rw [← hstart] at hold
          exact .inr (.inr (.inl ⟨_, hr, hold⟩))
        | backslash _ hc' => exact absurd hc' hc
        | braces _ _ hbraces' =>
          obtain rfl := Option.some.inj (hbraces'.symm.trans hbraces)
          exact .inl List.mem_cons_self
        | other _ _ hnone =>
          rw [hbraces] at hnone
          cases hnone
    · have hle := (not_holds_of_mem_scan hsorted' hlater).1
      rcases ih hr.tail (h.step ha hb hfewer hends hr) hlater with
        hmem | ⟨e, he, hin⟩ | hshield | hlt
      · exact .inl (List.mem_append_right _ hmem)
      · exact .inr (.inl ⟨e, List.mem_append_right _ he, hin⟩)
      · exact .inr (.inr (.inl hshield))
      · cases ha with
        | shield _ hr hold =>
          have hstart := (Span.holds_iff.1 hold).1
          exact .inr (.inr (.inl ⟨_, hr, Span.holds_iff.2 ⟨by omega, hlt⟩⟩))
        | braces _ _ hs' =>
          have hpos := c.utf8Size_pos
          have hstart := start_of_braces? hs'
          exact .inr (.inl ⟨_, List.mem_cons_self, by omega, hlt⟩)
        | _ => exact .inr (.inr (.inr hlt))

end

end Expression

def Node.isSingleDollar (n : Node) : Bool :=
  decide (n.kind = .math false)

/-- The ranges of some nodes by their starts, as they keep braces from being found. -/
def shieldsOf (nodes : List Node) : List Span :=
  (sortNodes nodes).map Node.span

/-- The balanced braces of a text that are found outside some nodes. -/
def bracesOutside (t : Text) (nodes : List Node) : List Span :=
  Expression.scan (shieldsOf nodes) 0 false 0 t

theorem pairwise_shields (nodes : List Node) :
    (shieldsOf nodes).Pairwise fun r r' => r.start ≤ r'.start :=
  List.pairwise_map.2 (pairwise_sortNodes nodes)

theorem mem_shieldsOf_iff {nodes : List Node} {r : Span} :
    r ∈ shieldsOf nodes ↔ ∃ n ∈ nodes, n.span = r := by
  simp only [shieldsOf, List.mem_map, sortNodes, (perm_stableSort _ nodes).mem_iff]

theorem mem_shieldsOf_of_filter {p : Node → Bool} {nodes : List Node} {r : Span}
    (hr : r ∈ shieldsOf (nodes.filter p)) : r ∈ shieldsOf nodes := by
  obtain ⟨n, hn, rfl⟩ := mem_shieldsOf_iff.1 hr
  exact mem_shieldsOf_iff.2 ⟨n, (List.mem_filter.1 hn).1, rfl⟩

theorem mem_shieldsOf_filter_or (p : Node → Bool) {nodes : List Node} {r : Span}
    (hr : r ∈ shieldsOf nodes) :
    r ∈ shieldsOf (nodes.filter p) ∨ ∃ n ∈ nodes, p n = false ∧ n.span = r := by
  obtain ⟨n, hn, rfl⟩ := mem_shieldsOf_iff.1 hr
  cases hp : p n with
  | true => exact .inl (mem_shieldsOf_iff.2 ⟨n, List.mem_filter.2 ⟨hn, hp⟩, rfl⟩)
  | false => exact .inr ⟨n, hn, hp, rfl⟩

/-- What is relied on of the structure of Markdown: math in single dollars ends with a dollar. -/
def EndsDollars (events : Text → List MarkdownEvent) (t : Text) : Prop :=
  ∀ e ∈ events t, e.kind = .math false →
    (⟨e.span.stop - 1, e.span.stop⟩ : Span).text? t = some ['$']

instance (events : Text → List MarkdownEvent) (t : Text) : Decidable (EndsDollars events t) :=
  inferInstanceAs (Decidable (∀ e ∈ _, _))

theorem MarkdownPiece.math_of_node {document : Text} {p : MarkdownPiece} {display : Bool}
    (h : (p.node document).kind = .math display) :
    p.head.kind = .math display ∧ (p.node document).span = p.head.span := by
  cases p with
  | block b =>
    rcases b.kind_close document with ⟨lang, info, hkind⟩ | ⟨kind, hkind⟩
    · cases hkind.symm.trans h
    · cases hkind.symm.trans h
  | code s => cases h
  | math display' s =>
    cases h
    exact ⟨rfl, rfl⟩
  | html s => cases h

section

variable {events : Text → List MarkdownEvent} {document : Text} {opaqueSpans : List Span}

theorem not_backslash_of_isSingleDollar
    (hends : EndsDollars events (hideOpaque document opaqueSpans).text) {n : Node}
    (hn : n ∈ structureNodes document (hideOpaque document opaqueSpans) events)
    (hsingle : n.isSingleDollar) :
    ¬ (hideOpaque document opaqueSpans).text.WordAt (n.span.stop - 1) ['\\'] := by
  have hkind : n.kind = .math false := of_decide_eq_true hsingle
  rcases mem_structureNodes_iff.1 hn with ⟨f, -, rfl⟩ | hfound
  · cases hkind
  · rw [foundNodes, markdownNodes_eq_map] at hfound
    obtain ⟨p, hp, rfl⟩ := List.mem_map.1 hfound
    obtain ⟨hmath, hspan⟩ := MarkdownPiece.math_of_node hkind
    have hend := hends p.head (isFrom_of_mem_pieces hp).1 hmath
    obtain ⟨a, c, hd, hstart, -⟩ := Text.slice?_eq_some_iff.1 hend
    intro hword
    rw [hspan] at hword
    exact absurd (hword.char_eq ⟨a, c, hd, hstart⟩) (by decide)

/-- What is found outside all nodes but math in single dollars is also found outside all of them,
unless it starts in such math or inside an interpolation that is found. -/
theorem mem_bracesOutside
    (hends : EndsDollars events (hideOpaque document opaqueSpans).text) {nodes : List Node}
    (hnodes : structureNodes document (hideOpaque document opaqueSpans) events = nodes) {s : Span}
    (hs : s ∈ bracesOutside (hideOpaque document opaqueSpans).text
      (nodes.filter fun n => !n.isSingleDollar)) :
    s ∈ bracesOutside (hideOpaque document opaqueSpans).text nodes ∨
      (∃ e ∈ bracesOutside (hideOpaque document opaqueSpans).text nodes,
        e.start < s.start ∧ s.start < e.stop) ∨
      ∃ n ∈ nodes, n.isSingleDollar ∧ n.span.holds s.start := by
  have hsorted := pairwise_shields (nodes.filter fun n => !n.isSingleDollar)
  have fewer_or {r : Span} (hr : r ∈ shieldsOf nodes) :
      r ∈ shieldsOf (nodes.filter fun n => !n.isSingleDollar) ∨
        ∃ n ∈ nodes, n.isSingleDollar ∧ n.span = r := by
    rcases mem_shieldsOf_filter_or (fun n => !n.isSingleDollar) hr with hr | ⟨n, hn, hsingle, hspan⟩
    · exact .inl hr
    · rw [Bool.not_eq_false'] at hsingle
      exact .inr ⟨n, hn, hsingle, hspan⟩
  have hsettled : Expression.EndsSettled (hideOpaque document opaqueSpans).text
      (shieldsOf (nodes.filter fun n => !n.isSingleDollar)) (shieldsOf nodes) := by
    intro r hr
    rcases fewer_or hr with hr | ⟨n, hn, hsingle, rfl⟩
    · exact .inl hr
    · rw [← hnodes] at hn
      exact .inr (not_backslash_of_isSingleDollar hends hn hsingle)
  rcases Expression.mem_scan_of_fewer (pairwise_shields nodes) hsorted
    (fun _ => mem_shieldsOf_of_filter) hsettled (Text.restAt_zero _) .start hs with
    hmem | hinside | ⟨r, hr, hold⟩ | hlt
  · exact .inl hmem
  · exact .inr (.inl hinside)
  · rcases fewer_or hr with hr | ⟨n, hn, hsingle, rfl⟩
    · exact absurd hold ((Expression.not_holds_of_mem_scan hsorted hs).2 r hr)
    · exact .inr (.inr ⟨n, hn, hsingle, hold⟩)
  · exact absurd hlt (Nat.not_lt_zero _)

end

theorem Snippet.exists_ofExpression? {directives : DirectiveSettings}
    (hoff : directives.enabled = false) (document : Text) (span : Span) (inner : Text) :
    ∃ candidate, ofExpression? document directives span inner = some candidate := by
  have habsorbs : directives.absorbs document span inner = false := by
    rw [DirectiveSettings.absorbs, hoff, Bool.false_and]
  rw [ofExpression?, habsorbs]
  split
  · exact ⟨_, rfl⟩
  · exact ⟨_, rfl⟩

section

variable {events : Text → List MarkdownEvent} {newId : Nat → SnippetId} {config : Config}

theorem exists_candidate_of_mem_bracesOutside {document : Text} {cs : List Snippet}
    (hoff : config.directives.enabled = false) (hc : candidatesWith events document config = .ok cs)
    {e : Span}
    (he : e ∈ bracesOutside (hideOpaque document (opaqueElements document config)).text
      (structureNodes document (hideOpaque document (opaqueElements document config)) events)) :
    ∃ candidate ∈ cs, candidate.span = e ∧ e.start < e.stop := by
  obtain ⟨nodes, hnodes, rfl⟩ := candidatesWith_eq_ok hc
  have hmem : ⟨.expression, e, document.slice (e.start + 1) (e.stop - 1)⟩ ∈ nodes := by
    apply (mem_of_parseWith_eq_ok hnodes).2
    exact .inr (List.mem_map_of_mem he)
  obtain ⟨candidate, hcandidate⟩ := Snippet.exists_ofExpression? hoff document e
    (document.slice (e.start + 1) (e.stop - 1))
  refine ⟨candidate, ?_, Snippet.span_of_ofExpression? hcandidate, ?_⟩
  · apply List.mem_append_left
    apply List.mem_append_left
    apply List.mem_append_left
    exact List.mem_filterMap.2 ⟨_, hmem, hcandidate⟩
  · have hlong := (Expression.enclosedBy_of_mem_scan (Text.restAt_zero _) he).apart
    simp only [Text.size_cons, Text.size_nil] at hlong
    have hpos := ('\x7b').utf8Size_pos
    omega

/-- With directives off, and whatever is set for single dollars, an interpolation that starts outside
math in single dollars lies in the range of a hidden snippet, unless a snippet that starts before it
ends inside it, or it starts in what such a snippet leaves of another interpolation. -/
theorem braces_hidden_outside_dollars (hoff : config.directives.enabled = false) {source : Text}
    (hends : EndsDollars events (hideOpaque (Colon.escape source)
      (opaqueElements (Colon.escape source) config)).text)
    (hok : EscapableWith events newId source config) :
    let document := Colon.escape source
    let masked := hideOpaque document (opaqueElements document config)
    let nodes := structureNodes document masked events
    let snippets := (escapeWith events newId source config).snippets
    ∀ s ∈ bracesOutside masked.text (nodes.filter fun n => !n.isSingleDollar),
      (∃ n ∈ nodes, n.isSingleDollar ∧ n.span.holds s.start) ∨
      (∃ entry ∈ snippets, entry.2.span.HiddenOrCut s) ∨
      ∃ e ∈ bracesOutside masked.text nodes, ∃ entry ∈ snippets,
        entry.2.span.start < e.start ∧ e.start < entry.2.span.stop ∧
          entry.2.span.stop ≤ s.start ∧ s.start < e.stop := by
  intro document masked nodes snippets s hs
  obtain ⟨cs, hc, hh⟩ := escapeWith_of_escapable hok
  have covered {e : Span} (he : e ∈ bracesOutside masked.text nodes) :
      ∃ entry ∈ snippets, entry.2.span.HiddenOrCut e := by
    obtain ⟨candidate, hmem, rfl, hne⟩ := exists_candidate_of_mem_bracesOutside hoff hc he
    exact exists_hidden_or_cut hh hmem hne
  rcases mem_bracesOutside hends rfl hs with hmem | ⟨e, he, hbefore, hin⟩ | hdollar
  · exact .inr (.inl (covered hmem))
  · obtain ⟨entry, hentry, hstart, hlt, hcovers⟩ := covered he
    by_cases hreach : s.start < entry.2.span.stop
    · refine .inr (.inl ⟨entry, hentry, by omega, hreach, ?_⟩)
      omega
    · refine .inr (.inr ⟨e, he, entry, hentry, ?_⟩)
      omega
  · exact .inl hdollar

/-- The first braces are hidden, and the second ones are between dollars. -/
theorem braces_hidden_outside_dollars_between :
    let newId : Nat → SnippetId := fun n => Text.repeated 31 'a' ++ [Char.ofNat (48 + n)]
    let source := "$a$ \x7bb\x7d $c \x7bd\x7d$".toList
    let config : Config := { math := { singleDollar := false } }
    let document := Colon.escape source
    let masked := hideOpaque document (opaqueElements document config)
    let nodes := structureNodes document masked Markdown.events
    let snippets := (escapeWith Markdown.events newId source config).snippets
    config.directives.enabled = false ∧ EndsDollars Markdown.events masked.text ∧
      EscapableWith Markdown.events newId source config ∧
      bracesOutside masked.text (nodes.filter fun n => !n.isSingleDollar) = [⟨4, 7⟩, ⟨11, 14⟩] ∧
      ∀ s ∈ [(⟨4, 7⟩ : Span), ⟨11, 14⟩],
        (∃ n ∈ nodes, n.isSingleDollar ∧ n.span.holds s.start) ∨
        (∃ entry ∈ snippets, entry.2.span.HiddenOrCut s) ∨
        ∃ e ∈ bracesOutside masked.text nodes, ∃ entry ∈ snippets,
          entry.2.span.start < e.start ∧ e.start < entry.2.span.stop ∧
            entry.2.span.stop ≤ s.start ∧ s.start < e.stop := by
  intro newId source config document masked nodes snippets
  have hends : EndsDollars Markdown.events masked.text := by decide +kernel
  have hok : EscapableWith Markdown.events newId source config := by decide +kernel
  have hbraces : bracesOutside masked.text (nodes.filter fun n => !n.isSingleDollar) =
      [⟨4, 7⟩, ⟨11, 14⟩] := by
    decide +kernel
  have h := braces_hidden_outside_dollars rfl hends hok
  refine ⟨rfl, hends, hok, hbraces, ?_⟩
  rw [← hbraces]
  exact h

/-- With single dollars off, no snippet hides braces between two of them, braces that math between
parentheses cuts, or braces that start in what such math leaves of others. -/
theorem not_hidden_without_dollars :
    let newId : Nat → SnippetId := fun n => Text.repeated 31 'a' ++ [Char.ofNat (48 + n)]
    let config : Config := { math := { singleDollar := false } }
    ∀ p ∈ [("$x \x7ba\x7d$".toList, (⟨3, 6⟩ : Span)), ("\\(\x7ba\\)\x7d".toList, ⟨2, 7⟩),
        ("$\x7b'\x7d$ \\( \x7b \\) '\x7d \x7bc' \x7d ' \x7d".toList, ⟨17, 26⟩)],
      let document := Colon.escape p.1
      let masked := hideOpaque document (opaqueElements document config)
      let nodes := structureNodes document masked Markdown.events
      EscapableWith Markdown.events newId p.1 config ∧
        p.2 ∈ bracesOutside masked.text (nodes.filter fun n => !n.isSingleDollar) ∧
        ∀ entry ∈ (escape newId p.1 config).snippets, ¬ entry.2.span.contains p.2 := by
  decide +kernel

end

end Cloak
