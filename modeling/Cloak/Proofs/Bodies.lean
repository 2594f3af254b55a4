import Cloak.Markdown.Event
import Cloak.Proofs.Pieces
import Cloak.Proofs.Slice

namespace Cloak.Markdown

namespace Cursor

theorem le_skip (c : Cursor) (n : Nat) : c.offset ≤ (c.skip n).offset :=
  Nat.le_add_right _ _

theorem le_nextLine (c : Cursor) : c.offset ≤ c.nextLine.offset :=
  c.le_skip _

end Cursor

namespace Margin

theorem le_columnsFrom (t : Text) (offset column want : Nat) :
    offset ≤ (columnsFrom t offset column want).2.cursor.offset := by
  fun_induction columnsFrom t offset column want with
  | case1 cs offset column want ih => exact Nat.le_trans (Nat.le_succ _) ih
  | case2 cs offset column want => exact Nat.le_succ _
  | case3 cs offset column want _ _ ih => exact Nat.le_trans (Nat.le_succ _) ih
  | case4 t offset column want => exact Nat.le_refl _

theorem le_columns (m : Margin) (want : Nat) :
    m.cursor.offset ≤ (m.columns want).2.cursor.offset := by
  rw [columns]
  split
  · exact Nat.le_refl _
  · exact le_columnsFrom _ _ _ _

theorem le_indent (m : Margin) (want : Nat) :
    m.cursor.offset ≤ (m.indent want).2.cursor.offset :=
  m.le_columns want

theorem le_char? {m inside : Margin} {c : Char} (h : m.char? c = some inside) :
    m.cursor.offset ≤ inside.cursor.offset := by
  rw [char?] at h
  split at h
  · split at h
    · cases h
      exact Nat.le_add_right _ _
    · cases h
  · cases h

theorem le_quoteMarker? {m inside : Margin} (h : m.quoteMarker? = some inside) :
    m.cursor.offset ≤ inside.cursor.offset := by
  obtain ⟨marked, hmarked, rfl⟩ := Option.map_eq_some_iff.1 h
  exact Nat.le_trans (le_char? hmarked) (marked.le_indent 1)

end Margin

theorem Container.le_enter? {m inside : Margin} {c : Container} (h : enter? m c = some inside) :
    m.cursor.offset ≤ inside.cursor.offset := by
  cases c with
  | quote => exact Nat.le_trans (m.le_indent 3) (Margin.le_quoteMarker? h)
  | list mark tight =>
    cases h
    exact Nat.le_refl _
  | item width =>
    rw [enter?] at h
    simp only at h
    split at h
    · cases h
      exact m.le_indent width
    · cases h
  | footnote =>
    rw [enter?] at h
    simp only at h
    split at h
    · cases h
      exact m.le_indent 4
    · cases h

theorem Container.le_follow (cs : List Container) (m : Margin) :
    m.cursor.offset ≤ (follow cs m).2.cursor.offset := by
  induction cs generalizing m with
  | nil => exact Nat.le_refl _
  | cons c cs ih =>
    rw [follow]
    split
    · rename_i inside h
      exact Nat.le_trans (le_enter? h) (ih inside)
    · exact Nat.le_refl _

theorem Spine.le_enter (spine : Spine) (c : Cursor) :
    c.offset ≤ (spine.enter c).2.cursor.offset :=
  Container.le_follow spine ⟨c, 0, 0⟩

/-- All of some ranges lie between two offsets. -/
def Within (start stop : Nat) (spans : List Span) : Prop :=
  ∀ s ∈ spans, start ≤ s.start ∧ s.stop ≤ stop

namespace Within

theorem mono {start stop start' stop' : Nat} {spans : List Span} (h : Within start stop spans)
    (hstart : start' ≤ start) (hstop : stop ≤ stop') : Within start' stop' spans := by
  intro s hs
  obtain ⟨hlo, hhi⟩ := h s hs
  exact ⟨Nat.le_trans hstart hlo, Nat.le_trans hhi hstop⟩

theorem append {start stop : Nat} {spans spans' : List Span} (h : Within start stop spans)
    (h' : Within start stop spans') : Within start stop (spans ++ spans') := by
  intro s hs
  rcases List.mem_append.1 hs with hs | hs
  · exact h s hs
  · exact h' s hs

theorem nil (start stop : Nat) : Within start stop [] :=
  List.forall_mem_nil _

end Within

theorem Cursor.lt_nextLine {c : Cursor} (h : c.rest ≠ []) : c.offset < c.nextLine.offset := by
  refine Nat.lt_add_of_pos_right (Text.size_pos ?_)
  cases hr : c.rest with
  | nil => exact absurd hr h
  | cons d ds =>
    have hpos : lineLength (d :: ds) ≠ 0 := by
      rw [lineLength]
      split
      · exact Nat.one_ne_zero
      · exact Nat.succ_ne_zero _
    intro htake
    rcases List.take_eq_nil_iff.1 htake with hz | hnil
    · exact hpos hz
    · cases hnil

theorem within_codeLine (c : Cursor) :
    Within c.offset c.nextLine.offset (codeLine c c.nextLine) := by
  have hwhole : Within c.offset c.nextLine.offset [⟨c.offset, c.nextLine.offset⟩] :=
    List.forall_mem_singleton.2 ⟨Nat.le_refl _, Nat.le_refl _⟩
  rw [codeLine]
  split
  · rename_i last rest hline
    have hne : c.rest ≠ [] := by
      intro hnil
      rw [hnil, List.take_nil] at hline
      cases hline
    have hlt := Cursor.lt_nextLine hne
    split
    · intro s hs
      obtain ⟨hs, -⟩ := List.mem_filter.1 hs
      rcases List.mem_cons.1 hs with rfl | hs
      · exact ⟨Nat.le_refl _, Nat.sub_le _ _⟩
      · rw [List.mem_singleton.1 hs]
        exact ⟨Nat.le_sub_one_of_lt hlt, Nat.le_refl _⟩
    · exact hwhole
  · exact Within.nil _ _
  · exact hwhole

theorem within_indentedFrom (spine : Spine) {start : Nat} (fuel : Nat) {body pending : List Span}
    {stop : Nat} {blank : Bool} {c : Cursor} (hstop : stop ≤ c.offset) (hb : Within start stop body)
    (hp : Within start c.offset pending) (hstart : start ≤ c.offset) :
    Within start (indentedFrom spine fuel body pending stop blank c).1.stop
      (indentedFrom spine fuel body pending stop blank c).1.body := by
  induction fuel generalizing body pending stop blank c with
  | zero => exact hb
  | succ fuel ih =>
    have hnext := c.le_nextLine
    have hline := (within_codeLine c).mono hstart (Nat.le_refl _)
    have hbody : Within start (if blank then stop else c.nextLine.offset)
        (if blank then body else body ++ pending ++ codeLine c c.nextLine) := by
      cases blank with
      | true => exact hb
      | false =>
        have hb' := hb.mono (Nat.le_refl _) (Nat.le_trans hstop hnext)
        exact (hb'.append (hp.mono (Nat.le_refl _) hnext)).append hline
    have hpending : Within start c.nextLine.offset
        (if blank then pending ++ codeLine c c.nextLine else []) := by
      cases blank with
      | true => exact (hp.mono (Nat.le_refl _) hnext).append hline
      | false => exact Within.nil _ _
    have hstop' : (if blank then stop else c.nextLine.offset) ≤ c.nextLine.offset := by
      split
      · exact Nat.le_trans hstop hnext
      · exact Nat.le_refl _
    have henter := spine.le_enter c.nextLine
    rw [indentedFrom]
    simp only
    split
    · exact hbody
    · have hdeep := Nat.le_trans henter (Margin.le_indent _ 4)
      exact ih (Nat.le_trans hstop' hdeep) hbody (hpending.mono (Nat.le_refl _) hdeep)
        (Nat.le_trans hstart (Nat.le_trans hnext hdeep))

theorem within_fencedFrom (spine : Spine) (indent : Nat) (mark : Char) (length : Nat) {start : Nat}
    (fuel : Nat) {body : List Span} {c : Cursor} (hb : Within start c.offset body)
    (hstart : start ≤ c.offset) :
    Within start (fencedFrom spine indent mark length fuel body c).stop
      (fencedFrom spine indent mark length fuel body c).body := by
  induction fuel generalizing body c with
  | zero => exact hb
  | succ fuel ih =>
    have hinside := Nat.le_trans (spine.le_enter c) (Margin.le_indent _ indent)
    have hclosing := Nat.le_trans hinside (Margin.le_indent _ (4 - indent))
    rw [fencedFrom]
    simp only
    split
    · exact hb
    · split
      · exact hb.mono (Nat.le_refl _) (Nat.le_trans hclosing (Cursor.le_skip _ _))
      · have hnext := Nat.le_trans hinside (Cursor.le_nextLine _)
        refine ih ((hb.mono (Nat.le_refl _) hnext).append ?_) (Nat.le_trans hstart hnext)
        exact (within_codeLine _).mono (Nat.le_trans hstart hinside) (Nat.le_refl _)

theorem within_metadataFrom (spine : Spine) (mark : Char) {start : Nat} (fuel : Nat)
    {body : List Span} {c : Cursor} (hb : Within start c.offset body) (hstart : start ≤ c.offset) :
    Within start (metadataFrom spine mark fuel body c).stop
      (metadataFrom spine mark fuel body c).body := by
  induction fuel generalizing body c with
  | zero => exact hb
  | succ fuel ih =>
    have hinside := spine.le_enter c
    rw [metadataFrom]
    simp only
    split
    · exact hb
    · split
      · exact hb.mono (Nat.le_refl _) (Cursor.le_skip _ _)
      · have hnext := Nat.le_trans hinside (Cursor.le_nextLine _)
        refine ih ((hb.mono (Nat.le_refl _) hnext).append ?_) (Nat.le_trans hstart hnext)
        exact (within_codeLine _).mono (Nat.le_trans hstart hinside) (Nat.le_refl _)

def Leaf.HoldsBody : Leaf → Prop
  | code _ span body | metadata _ span body => Within span.start span.stop body
  | html _ | prose _ => True

theorem holdsBody_indentedCode (spine : Spine) (c : Cursor) : (indentedCode spine c).1.HoldsBody :=
  within_indentedFrom spine (c := c) (c.rest.length + 1) (Nat.le_refl _) (Within.nil _ _)
    (Within.nil _ _) (Nat.le_refl _)

theorem holdsBody_fencedCode (spine : Spine) (indent : Nat) (mark : Char) (length : Nat)
    (c : Cursor) : (fencedCode spine indent mark length c).1.HoldsBody :=
  within_fencedFrom spine indent mark length _ (Within.nil _ _) c.le_nextLine

theorem holdsBody_metadataBlock (spine : Spine) (mark : Char) (c : Cursor) :
    (metadataBlock spine mark c).1.HoldsBody :=
  within_metadataFrom spine mark _ (Within.nil _ _) c.le_nextLine

theorem holdsBody_of_htmlBlock? {spine : Spine} {c after : Cursor} {leaf : Leaf}
    (h : htmlBlock? spine c = some (leaf, after)) : leaf.HoldsBody := by
  rw [htmlBlock?] at h
  split at h
  · simp only at h
    split at h
    · cases h
      trivial
    · split at h
      · cases h
        trivial
      · cases h
  · cases h

section Prose

theorem holdsBody_rowFrom (spine : Spine) (fuel columns : Nat) (braces : Braces) {cells : List Leaf}
    (c : Cursor) (h : ∀ l ∈ cells, l.HoldsBody) :
    ∀ l ∈ (rowFrom spine fuel columns braces cells c).1, l.HoldsBody := by
  induction fuel generalizing columns braces cells c with
  | zero => exact h
  | succ fuel ih =>
    rw [rowFrom]
    simp only
    split
    · exact h
    · apply ih
      split
      · exact h
      · exact List.forall_mem_append.2 ⟨h, List.forall_mem_singleton.2 trivial⟩

theorem holdsBody_row (spine : Spine) (columns : Nat) (braces : Braces) (c : Cursor) :
    ∀ l ∈ (row spine columns braces c).1, l.HoldsBody :=
  holdsBody_rowFrom spine _ columns braces c (List.forall_mem_nil _)

theorem holdsBody_rowsFrom (spine : Spine) (columns fuel : Nat) (braces : Braces)
    {cells : List Leaf} (c : Cursor) (h : ∀ l ∈ cells, l.HoldsBody) :
    ∀ l ∈ (rowsFrom spine columns fuel braces cells c).1, l.HoldsBody := by
  induction fuel generalizing braces cells c with
  | zero => exact h
  | succ fuel ih =>
    rw [rowsFrom]
    simp only
    split
    · exact h
    · exact ih _ _ (List.forall_mem_append.2 ⟨h, holdsBody_row _ _ _ _⟩)

theorem holdsBody_paragraphFrom (spine : Spine) (start : Cursor) (fuel : Nat) (first : Bool)
    (braces : Braces) (marks : List Mark) (c : Cursor) :
    ∀ l ∈ (paragraphFrom spine start fuel first braces marks c).1, l.HoldsBody := by
  have hprose (p : Prose) : ∀ l ∈ [Leaf.prose p], l.HoldsBody :=
    List.forall_mem_singleton.2 trivial
  induction fuel generalizing first braces marks c with
  | zero => exact List.forall_mem_nil _
  | succ fuel ih =>
    rw [paragraphFrom]
    generalize scanLine spine (if first then .head else .none) braces c = scan
    simp only
    split
    · exact holdsBody_rowsFrom _ _ _ _ _ (holdsBody_row _ _ _ _)
    · split
      · exact hprose _
      · split
        · exact hprose _
        · split
          · exact hprose _
          · exact ih _ _ _ _

theorem holdsBody_headingLine (spine : Spine) (level : Nat) (c : Cursor) :
    ∀ l ∈ (headingLine spine level c).1, l.HoldsBody := by
  rw [headingLine]
  simp only
  split
  · exact List.forall_mem_nil _
  · exact List.forall_mem_singleton.2 trivial

end Prose

namespace Outline

def HoldsBodies (o : Outline) : Prop :=
  ∀ l ∈ o.leaves, l.HoldsBody

theorem HoldsBodies.add {o : Outline} (h : o.HoldsBodies) {leaves : List Leaf}
    (hl : ∀ l ∈ leaves, l.HoldsBody) : (o.add leaves).HoldsBodies := by
  intro l hmem
  rcases List.mem_append.1 hmem with hmem | hmem
  · exact hl l (List.mem_reverse.1 hmem)
  · exact h l hmem

@[simp] theorem leaves_push (o : Outline) (c : Container) : (o.push c).leaves = o.leaves := rfl

@[simp] theorem leaves_pop (o : Outline) : o.pop.leaves = o.leaves := rfl

@[simp] theorem leaves_finishEmptyItem (o : Outline) : o.finishEmptyItem.leaves = o.leaves := by
  rw [finishEmptyItem]
  simp only
  split
  · split
    · rfl
    · rfl
  · rfl

@[simp] theorem leaves_loosen (o : Outline) : o.loosen.leaves = o.leaves := by
  rw [loosen]
  split
  · rfl
  · rfl

@[simp] theorem leaves_finishList (o : Outline) : o.finishList.leaves = o.leaves := by
  rw [finishList]
  simp only
  split
  · split
    · simp only [leaves_loosen, leaves_pop, leaves_finishEmptyItem]
    · simp only [leaves_pop, leaves_finishEmptyItem]
  · split
    · simp only [leaves_loosen, leaves_finishEmptyItem]
    · exact leaves_finishEmptyItem o

@[simp] theorem leaves_continueList (o : Outline) (mark : Char) :
    (o.continueList mark).leaves = o.leaves := by
  rw [continueList]
  simp only
  split
  · exact leaves_finishEmptyItem o
  · simp only [leaves_push]
    split
    · exact leaves_finishEmptyItem o
    · simp only [leaves_finishList, leaves_finishEmptyItem]

theorem leaves_blankLine (o : Outline) : o.blankLine.leaves = o.leaves := by
  rw [blankLine]
  split
  · rfl
  · split
    · rfl
    · rfl
  · rfl

end Outline

theorem leaves_openContainers (fuel : Nat) (o : Outline) (m : Margin) :
    (openContainers fuel o m).1.leaves = o.leaves := by
  induction fuel generalizing o m with
  | zero => rfl
  | succ fuel ih =>
    rw [openContainers]
    simp only
    split
    · rfl
    · split
      · rw [ih, Outline.leaves_push]
        split
        · simp only [Outline.leaves_pop, Outline.leaves_finishList]
        · exact o.leaves_finishList
      · split
        · split
          · simp only [Outline.leaves_push, Outline.leaves_continueList]
          · simp only [ih, Outline.leaves_push, Outline.leaves_continueList]
        · split
          · split
            · split
              · simp only [Outline.leaves_push, Outline.leaves_finishList]
              · simp only [Outline.leaves_push, Outline.leaves_finishList]
            · simp only [ih, Outline.leaves_push, Outline.leaves_finishList]
          · rfl

theorem holdsBodies_definitionsFrom (fuel : Nat) {o : Outline} (c : Cursor) (h : o.HoldsBodies) :
    (definitionsFrom fuel o c).1.HoldsBodies := by
  induction fuel generalizing o c with
  | zero => exact h
  | succ fuel ih =>
    rw [definitionsFrom]
    split
    · simp only
      split
      · exact h
      · exact ih _ h
    · exact h.add (holdsBody_paragraphFrom _ _ _ _ _ _ _)

theorem holdsBodies_readLeaf {o : Outline} (m : Margin) (h : o.HoldsBodies) :
    (readLeaf o m).1.HoldsBodies := by
  have hfinish : o.finishList.HoldsBodies := by
    rw [Outline.HoldsBodies, o.leaves_finishList]
    exact h
  have hone {leaf : Leaf} (hl : leaf.HoldsBody) : (o.finishList.add [leaf]).HoldsBodies :=
    hfinish.add (List.forall_mem_singleton.2 hl)
  rw [readLeaf]
  split
  · rw [Outline.HoldsBodies, o.leaves_blankLine]
    exact h
  · simp only
    split
    · exact hone (holdsBody_indentedCode _ _)
    · split
      · exact hone (holdsBody_metadataBlock _ _ _)
      · split
        · rename_i read hread
          exact hone (holdsBody_of_htmlBlock? hread)
        · split
          · exact hfinish
          · split
            · exact hfinish.add (holdsBody_headingLine _ _ _)
            · split
              · exact hone (holdsBody_fencedCode _ _ _ _ _)
              · exact holdsBodies_definitionsFrom _ _ hfinish

theorem holdsBodies_readBlock {o : Outline} (c : Cursor) (h : o.HoldsBodies) :
    (readBlock o c).1.HoldsBodies := by
  rw [readBlock]
  generalize Container.follow o.spine ⟨c, 0, 0⟩ = followed
  obtain ⟨n, m⟩ := followed
  have hopen : (openContainers (c.rest.length + 1) (o.keep n) m).1.HoldsBodies := by
    rw [Outline.HoldsBodies, leaves_openContainers]
    exact h
  simp only
  generalize openContainers (c.rest.length + 1) (o.keep n) m = read at hopen ⊢
  obtain ⟨o', opened⟩ := read
  cases opened with
  | leaf m => exact holdsBodies_readLeaf m hopen
  | done next => exact hopen

theorem holdsBodies_readBlocks (fuel : Nat) {o : Outline} (c : Cursor) (h : o.HoldsBodies) :
    (readBlocks fuel o c).HoldsBodies := by
  induction fuel generalizing o c with
  | zero => exact h
  | succ fuel ih =>
    rw [readBlocks]
    split
    · exact h
    · exact ih _ (holdsBodies_readBlock c h)

theorem holdsBodies_outline (document : Text) : (outline document).HoldsBodies :=
  holdsBodies_readBlocks _ _ (List.forall_mem_nil _)

theorem contains_of_mem_leafEvents {o : Outline} {leaf : Leaf} (h : leaf.HoldsBody)
    {es : List MarkdownEvent} {p : MarkdownPiece} (hp : p ∈ pieces (leaf.events o ++ es)) :
    (∀ s ∈ p.texts, p.head.span.contains s) ∨ p ∈ pieces es := by
  have block {kind : BlockKind} {span : Span} {body : List Span}
      (hbody : Within span.start span.stop body)
      (hp : p ∈ pieces (blockEvents kind span body ++ es)) :
      (∀ s ∈ p.texts, p.head.span.contains s) ∨ p ∈ pieces es := by
    rw [pieces_blockEvents_append] at hp
    rcases List.mem_cons.1 hp with rfl | hp
    · left
      intro s hs
      obtain ⟨hlo, hhi⟩ := hbody s hs
      simp only [MarkdownPiece.head, Span.contains, hlo, hhi, decide_true, Bool.and_self]
    · exact .inr hp
  cases leaf with
  | code info span body => exact block h hp
  | metadata mark span body => exact block h hp
  | html span =>
    rcases List.mem_cons.1 hp with rfl | hp
    · exact .inl (List.forall_mem_nil _)
    · exact .inr hp
  | prose content =>
    rw [Leaf.events] at hp
    generalize inlinePieces o content = inlines at hp
    induction inlines with
    | nil => exact .inr hp
    | cons inline inlines ih =>
      obtain ⟨kind, span⟩ := inline
      cases kind <;> rcases List.mem_cons.1 hp with rfl | hp
      all_goals first
        | exact .inl (List.forall_mem_nil _)
        | exact ih hp

/-- The texts of a block lie inside its range. -/
theorem contains_of_mem_texts {document : Text} {p : MarkdownPiece}
    (hp : p ∈ pieces (events document)) : ∀ s ∈ p.texts, p.head.span.contains s := by
  have hbodies := holdsBodies_outline document
  rw [events] at hp
  generalize outline document = o at hp hbodies
  have hleaves : ∀ leaf ∈ o.leaves.reverse, leaf.HoldsBody :=
    fun leaf hleaf => hbodies leaf (List.mem_reverse.1 hleaf)
  generalize o.leaves.reverse = leaves at hp hleaves
  induction leaves with
  | nil => cases hp
  | cons leaf leaves ih =>
    obtain ⟨hleaf, hleaves⟩ := List.forall_mem_cons.1 hleaves
    rw [List.flatMap_cons] at hp
    rcases contains_of_mem_leafEvents hleaf hp with h | hp
    · exact h
    · exact ih hp hleaves

end Cloak.Markdown
