import Cloak.Proofs.Candidates
import Cloak.Proofs.Matcher
import Cloak.Proofs.Nodes
import Cloak.Proofs.OpeningTag

namespace Cloak

/-- What is left of a range without some bytes at each end. -/
def Span.inside (s : Span) (width : Nat) : Span :=
  ⟨s.start + width, s.stop - width⟩

theorem Span.EnclosedBy.fitsIn_inside_of_size {opening closing t : Text} {s : Span} {width : Nat}
    (h : s.EnclosedBy opening closing t) (ho : opening.size = width) (hc : closing.size = width) :
    (s.inside width).FitsIn t := by
  have hfit := h.fitsIn_inside
  rw [ho, hc] at hfit
  exact hfit

namespace Text

theorem wordAt_of_lastOffsetFrom {t word rest : Text} {offset n : Nat} {best : Option Nat}
    (hr : t.RestAt offset rest) (hbest : ∀ m ∈ best, t.WordAt m word)
    (h : lastOffsetFrom word offset best rest = some n) : t.WordAt n word := by
  have occurs {rest : Text} {offset : Nat} (hr : t.RestAt offset rest) (hp : word.isPrefixOf rest) :
      t.WordAt offset word := by
    obtain ⟨u, rfl⟩ := List.isPrefixOf_iff_prefix.1 hp
    exact hr.wordAt
  induction rest generalizing offset best with
  | nil =>
    rw [lastOffsetFrom] at h
    split at h
    · rename_i hp
      cases h
      exact occurs hr hp
    · exact hbest n h
  | cons c rest ih =>
    refine ih hr.tail ?_ h
    intro m hm
    split at hm
    · rename_i hp
      cases hm
      exact occurs hr hp
    · exact hbest m hm

theorem wordAt_of_lastOffset? {t word : Text} {n : Nat} (h : lastOffset? t word = some n) :
    t.WordAt n word :=
  wordAt_of_lastOffsetFrom t.restAt_zero (fun _ hm => (Option.not_mem_none _ hm).elim) h

end Text

section Parse

/-- The ranges that masking reads: what is hidden, and what is not. -/
def maskReads (document : Text) (spans : List Span) : List Span :=
  let kept := outermost id spans
  kept ++ gapsFrom document.size id 0 kept

/-- What is read when a block starts: before indented code, the document up to it and the start of
its line. -/
def blockStartReads (document : Text) (kind : BlockKind) (s : Span) : List Span :=
  match kind with
  | .code none => [⟨0, s.start⟩, ⟨lineStart document s.start, s.start⟩]
  | .code (some _) | .metadata _ => []

def OpenBlock.reads (b : OpenBlock) : List Span :=
  b.span :: b.texts

/-- The ranges that are read for what Markdown tells, along with the nodes. -/
def nodeReadsFrom (document : Text) : Option OpenBlock → List MarkdownEvent → List Span
  | _, [] => []
  | block?, e :: es =>
    match e.kind with
    | .blockStart kind => blockStartReads document kind e.span ++
        nodeReadsFrom document (some (.opened document kind e.span)) es
    | .text => nodeReadsFrom document (block?.map fun b => b.add e.span) es
    | .blockEnd => (block?.map OpenBlock.reads).getD [] ++ nodeReadsFrom document none es
    | .code | .math _ => e.span :: nodeReadsFrom document block? es
    | .html | .other => nodeReadsFrom document block? es

def openTagReads (document : Text) (found : Found Text) : List Span :=
  let start := found.span.start
  let length? := Element.openingLength? ((document.from? start).getD [])
  ⟨start, document.size⟩ :: (length?.map fun n => (⟨start, start + n⟩ : Span)).toList

/-- The ranges of the document that are read on the way to its nodes. -/
def parseReads (events : Text → List MarkdownEvent) (document : Text) (opaqueSpans : List Span)
    (tags : List Text) : List Span :=
  let masked := hideOpaque document opaqueSpans
  let shields := (sortNodes (structureNodes document masked events)).map Node.span
  maskReads document opaqueSpans ++ maskReads document (opaqueSpans ++ masked.fences) ++
    masked.fences.map (fun f => f.inside 2) ++
    nodeReadsFrom document none (events masked.text) ++
    (Expression.scan shields 0 false 0 masked.text).map (fun s => s.inside 1) ++
    (document.allMatches (Unclosed.openTag? tags)).flatMap (openTagReads document)

/-- A line that may open or close math is read without its indentation. -/
def fenceRead (raw : Text) : Text × Span :=
  let line := Fence.body raw
  (line, ⟨(line.takeWhile (· == ' ')).length, Text.size line⟩)

def lineSpansFrom (n : Nat) (lines : List Text) : List Span :=
  List.zipWith (fun n l => ⟨n, n + Text.size l⟩) (Text.lineStartsFrom n lines) lines

def lineReads (t : Text) : List Span :=
  lineSpansFrom 0 t.rawLines

/-- Behind a line feed a blank line is looked for in the rest of the text, which is read up to the
end of the line. -/
def blankLineReads (t : Text) : List Span :=
  (Text.lineStartsFrom 0 t.rawLines).map (fun n => ⟨n, t.size⟩) ++ lineReads t

def codeSpanInner (raw : Text) : Text :=
  let ticks := (raw.takeWhile (· == '`')).length
  endsToSpaces ((raw.slice? ticks (Text.size raw - ticks)).getD [])

/-- The content of a code span is read without a space at each end, if these fall off. -/
def codeSpanReads (raw : Text) : List (Text × Span) :=
  let inner := codeSpanInner raw
  if codeSpanValue raw = inner then [] else [(inner, ⟨1, Text.size inner - 1⟩)]

def MarkdownEvent.codeReads (document : Text) (e : MarkdownEvent) : List (Text × Span) :=
  match e.kind with
  | .code => codeSpanReads (e.span.text document)
  | _ => []

/-- What is read of other texts than the document on the way to its nodes. -/
def maskedReads (events : Text → List MarkdownEvent) (document : Text) (opaqueSpans : List Span) :
    List (Text × Span) :=
  let masked := (hideOpaque document opaqueSpans).text
  (mask document opaqueSpans).rawLines.map fenceRead ++
    (blankLineReads masked).map (masked, ·) ++
    (events masked).flatMap (MarkdownEvent.codeReads document)

variable {events : Text → List MarkdownEvent} {document : Text} {opaqueSpans : List Span}

theorem fitsIn_of_mem_maskReads {spans : List Span} (hf : ∀ s ∈ spans, s.FitsIn document) :
    ∀ r ∈ maskReads document spans, r.FitsIn document := by
  intro r hr
  have hkept := fitsIn_of_mem_outermost hf
  have hc := outermost_consecutive id spans
  rcases List.mem_append.1 hr with hr | hr
  · exact hkept r hr
  · exact fitsIn_of_mem_gapsFrom document.isBoundary_zero hc hkept r hr

theorem fitsIn_upTo {t : Text} {n : Nat} (h : t.isBoundary n) : (⟨0, n⟩ : Span).FitsIn t :=
  Span.fitsIn_of_isBoundary (Nat.zero_le n) t.isBoundary_zero h

theorem fitsIn_blockStartReads {kind : BlockKind} {s : Span} (h : s.FitsIn document) :
    ∀ r ∈ blockStartReads document kind s, r.FitsIn document := by
  have hstart := h.isBoundary_start
  obtain ⟨hline, -, hle⟩ := lineStart_spec hstart
  cases kind with
  | code info =>
    cases info with
    | some info => exact List.forall_mem_nil _
    | none =>
      exact List.forall_mem_cons.2 ⟨fitsIn_upTo hstart,
        List.forall_mem_singleton.2 (Span.fitsIn_of_isBoundary hle.le hline hstart)⟩
  | metadata dashes => exact List.forall_mem_nil _

theorem fitsIn_of_mem_nodeReadsFrom {es : List MarkdownEvent}
    (hes : ∀ e ∈ es, e.span.FitsIn document) {block? : Option OpenBlock}
    (hopen : ∀ b ∈ block?, ∀ r ∈ b.reads, r.FitsIn document) :
    ∀ r ∈ nodeReadsFrom document block? es, r.FitsIn document := by
  have hnone : ∀ b ∈ (none : Option OpenBlock), ∀ r ∈ b.reads, r.FitsIn document :=
    fun _ hb => (Option.not_mem_none _ hb).elim
  induction es generalizing block? with
  | nil => exact List.forall_mem_nil _
  | cons e es ih =>
    obtain ⟨he, hrest⟩ := List.forall_mem_cons.1 hes
    obtain ⟨kind, s⟩ := e
    cases kind with
    | blockStart kind =>
      refine List.forall_mem_append.2 ⟨fitsIn_blockStartReads he, ih hrest ?_⟩
      rintro b ⟨⟩
      obtain ⟨hwhole, -⟩ := OpenBlock.fitsIn_opened kind he
      rw [OpenBlock.reads, OpenBlock.texts_opened]
      exact List.forall_mem_singleton.2 hwhole
    | text =>
      apply ih hrest
      intro b hb
      obtain ⟨b', hb', rfl⟩ := Option.map_eq_some_iff.1 hb
      obtain ⟨hwhole, htexts⟩ := List.forall_mem_cons.1 (hopen b' hb')
      exact List.forall_mem_cons.2
        ⟨hwhole, List.forall_mem_append.2 ⟨htexts, List.forall_mem_singleton.2 he⟩⟩
    | blockEnd =>
      refine List.forall_mem_append.2 ⟨?_, ih hrest hnone⟩
      cases block? with
      | none => exact List.forall_mem_nil _
      | some b => exact hopen b rfl
    | code => exact List.forall_mem_cons.2 ⟨he, ih hrest hopen⟩
    | math display => exact List.forall_mem_cons.2 ⟨he, ih hrest hopen⟩
    | html => exact ih hrest hopen
    | other => exact ih hrest hopen

theorem fitsIn_of_mem_openTagReads {tags : List Text} {found : Found Text}
    (h : found ∈ document.allMatches (Unclosed.openTag? tags)) :
    ∀ r ∈ openTagReads document found, r.FitsIn document := by
  obtain ⟨a, b, n, rfl, -, hspan⟩ := Text.mem_matchesFrom h
  have hstart : found.span.start = a.size := by
    rw [hspan]
    exact Nat.zero_add _
  have hrest : Text.RestAt (a ++ b) a.size b := ⟨a, rfl, rfl⟩
  have hb := hrest.wordAt_nil.isBoundary
  rw [openTagReads, hstart, Text.from?_append, Option.getD_some, Element.openingLength?]
  refine List.forall_mem_cons.2 ⟨?_, ?_⟩
  · exact Span.fitsIn_of_isBoundary (Text.le_size_of_isBoundary hb) hb (Text.isBoundary_size _)
  · intro r hr
    obtain ⟨n, hn, rfl⟩ := Option.map_eq_some_iff.1 (Option.mem_toList.1 hr)
    obtain ⟨⟨opening, rest⟩, hopen, rfl⟩ := Option.map_eq_some_iff.1 hn
    obtain ⟨-, -, rfl, -⟩ := Element.splitOpening?_eq_some_iff.1 hopen
    exact Span.fitsIn_of_isBoundary (Nat.le_add_right _ _) hb hrest.wordAt.isBoundary_add

theorem fitsIn_of_mem_lineSpansFrom {t : Text} {n : Nat} {lines : List Text}
    (h : t.LinesAt n lines) : ∀ r ∈ lineSpansFrom n lines, r.FitsIn t := by
  induction lines generalizing n with
  | nil => exact List.forall_mem_nil _
  | cons l lines ih =>
    obtain ⟨hat, hlines⟩ := h
    refine List.forall_mem_cons.2 ⟨?_, ih hlines⟩
    exact Span.fitsIn_of_isBoundary (Nat.le_add_right _ _) hat.isBoundary hat.isBoundary_add

theorem isBoundary_of_mem_lineStartsFrom {t : Text} {n : Nat} {lines : List Text}
    (h : t.LinesAt n lines) : ∀ k ∈ Text.lineStartsFrom n lines, t.isBoundary k := by
  induction lines generalizing n with
  | nil => exact List.forall_mem_nil _
  | cons l lines ih =>
    obtain ⟨hat, hlines⟩ := h
    exact List.forall_mem_cons.2 ⟨hat.isBoundary, ih hlines⟩

theorem fitsIn_of_mem_blankLineReads {t : Text} : ∀ r ∈ blankLineReads t, r.FitsIn t := by
  intro r hr
  rcases List.mem_append.1 hr with hr | hr
  · obtain ⟨n, hn, rfl⟩ := List.mem_map.1 hr
    have hb := isBoundary_of_mem_lineStartsFrom t.linesAt_rawLines n hn
    exact Span.fitsIn_of_isBoundary (Text.le_size_of_isBoundary hb) hb t.isBoundary_size
  · exact fitsIn_of_mem_lineSpansFrom t.linesAt_rawLines r hr

theorem fitsIn_fenceRead (raw : Text) : (fenceRead raw).2.FitsIn (fenceRead raw).1 := by
  have hindent : ((Fence.body raw).takeWhile (· == ' ')).length =
      Text.size ((Fence.body raw).takeWhile (· == ' ')) :=
    (Text.size_of_forall_eq_space fun _ hc => Text.of_mem_takeWhile (p := (· == ' ')) hc).symm
  have hb : (Fence.body raw).isBoundary ((Fence.body raw).takeWhile (· == ' ')).length := by
    rw [hindent]
    exact Text.isBoundary_iff.2 ⟨_, _, List.takeWhile_append_dropWhile.symm, rfl⟩
  exact Span.fitsIn_of_isBoundary (Text.le_size_of_isBoundary hb) hb (Text.isBoundary_size _)

theorem codeSpanValue_cases (raw : Text) :
    codeSpanValue raw = codeSpanInner raw ∨
      codeSpanInner raw = ' ' :: (codeSpanValue raw ++ [' ']) := by
  rw [codeSpanValue, codeSpanInner]
  generalize endsToSpaces _ = inner
  split
  · rename_i rest
    split
    · rename_i hstrip
      rw [Bool.and_eq_true, decide_eq_true_eq] at hstrip
      obtain ⟨inside, rfl⟩ := List.getLast?_eq_some_iff.1 hstrip.1
      rw [List.dropLast_concat]
      exact .inr rfl
    · exact .inl rfl
  · exact .inl rfl

theorem text?_codeSpanInner {raw : Text}
    (h : codeSpanInner raw = ' ' :: (codeSpanValue raw ++ [' '])) :
    (⟨1, Text.size (codeSpanInner raw) - 1⟩ : Span).text? (codeSpanInner raw) =
      some (codeSpanValue raw) := by
  have hsize : Text.size (codeSpanInner raw) - 1 = 1 + Text.size (codeSpanValue raw) := by
    rw [h, Text.size_cons, Text.size_append_singleton, ← Nat.add_assoc]
    rfl
  rw [hsize, h]
  exact Text.slice?_append [' '] (codeSpanValue raw) [' ']

theorem fitsIn_of_mem_codeSpanReads {raw : Text} : ∀ r ∈ codeSpanReads raw, r.2.FitsIn r.1 := by
  rw [codeSpanReads]
  split
  · exact List.forall_mem_nil _
  · rename_i hne
    exact List.forall_mem_singleton.2
      ⟨_, text?_codeSpanInner ((codeSpanValue_cases raw).resolve_left hne)⟩

theorem fitsIn_of_mem_maskedReads :
    ∀ r ∈ maskedReads events document opaqueSpans, r.2.FitsIn r.1 := by
  intro r hr
  simp only [maskedReads, List.mem_append, List.mem_map, List.mem_flatMap] at hr
  rcases hr with (⟨raw, -, rfl⟩ | ⟨s, hs, rfl⟩) | ⟨e, -, hr⟩
  · exact fitsIn_fenceRead raw
  · exact fitsIn_of_mem_blankLineReads s hs
  · rw [MarkdownEvent.codeReads] at hr
    split at hr
    · exact fitsIn_of_mem_codeSpanReads r hr
    · cases hr

/-- All that is read on the way to the nodes is in bounds and on character boundaries. -/
theorem fitsIn_of_mem_parseReads (hf : ∀ s ∈ opaqueSpans, s.FitsIn document)
    (he : ∀ e ∈ events (hideOpaque document opaqueSpans).text, e.span.FitsIn document)
    (tags : List Text) : ∀ r ∈ parseReads events document opaqueSpans tags, r.FitsIn document := by
  intro r hr
  simp only [parseReads, List.mem_append, List.mem_map, List.mem_flatMap] at hr
  rcases hr with ((((hr | hr) | ⟨f, hmem, rfl⟩) | hr) | ⟨s, hs, rfl⟩) | ⟨found, hfound, hr⟩
  · exact fitsIn_of_mem_maskReads hf r hr
  · exact fitsIn_of_mem_maskReads (fitsIn_of_mem_hidden hf) r hr
  · exact (enclosedBy_of_mem_fences hf hmem).1.fitsIn_inside_of_size rfl rfl
  · exact fitsIn_of_mem_nodeReadsFrom he (fun _ hb => (Option.not_mem_none _ hb).elim) r hr
  · exact (enclosedBy_of_mem_scan_hidden hf hs).fitsIn_inside_of_size rfl rfl
  · exact fitsIn_of_mem_openTagReads hfound r hr

end Parse

section Candidates

/-- What is read of the line on which a node starts. -/
def beforeRead (document : Text) (n : Node) : Text × Span :=
  let p := document.position n.span.start
  (document.rawLines.getD p.line [], ⟨0, p.column⟩)

def tagReads (outer : Text) : List Span :=
  match Element.name? outer, Element.splitOpening? outer with
  | some name, some (opening, rest) =>
    let length := Text.size opening
    let close := (Text.lastOffset? rest "</".toList).getD (Text.size rest)
    [⟨0, length⟩, ⟨0, length - 1⟩, ⟨1 + Text.size name, length - 1⟩, ⟨length, length + close⟩]
  | _, _ => []

def contentReads (document : Text) (s : Span) (content : Text) : List Span :=
  let head := (document.before? s.stop).getD []
  [⟨0, s.stop⟩, ⟨0, (head.lastOffset? content).getD s.start⟩]

def elementReads (document : Text) (config : Config) (s : Span) : List Span :=
  match Element.parse? (s.text document) with
  | some element =>
    match Dict.find? config.verbatim element.tag with
    | some environment =>
      s :: contentReads document s
        (Verbatim.content element (Verbatim.isInline element environment))
    | none => [s]
  | none => [s]

/-- What is read on the way to the candidates of a document: texts, and ranges of them. -/
def candidateReads (events : Text → List MarkdownEvent) (document : Text) (config : Config) :
    List (Text × Span) :=
  let elements := Verbatim.elements document config
  let opaqueSpans := Container.elements document ++ elements
  let nodes := (parseWith events document opaqueSpans config.verbatimTags).toOption.getD []
  let math := outermost DelimitedMath.span (DelimitedMath.pairs config.math document)
  (parseReads events document opaqueSpans config.verbatimTags ++ lineReads document ++
      math.map (fun m => m.span.inside 2) ++
      elements.flatMap (elementReads document config)).map (document, ·) ++
    maskedReads events document opaqueSpans ++ nodes.map (beforeRead document) ++
    elements.flatMap fun s => (tagReads (s.text document)).map (s.text document, ·)

/-- What is read when a document is escaped: on the way to its candidates, and between the outermost
of them. -/
def escapeReads (events : Text → List MarkdownEvent) (document : Text) (config : Config) :
    List (Text × Span) :=
  let cs := (candidatesWith events document config).toOption.getD []
  candidateReads events document config ++
    (gapsFrom document.size Snippet.span 0 (outermost Snippet.span cs)).map (document, ·)

variable {document : Text}

theorem fitsIn_beforeRead {n : Node} (h : n.span.FitsIn document) :
    (beforeRead document n).2.FitsIn (beforeRead document n).1 := by
  have hb := h.isBoundary_start
  have hmin : min n.span.start document.size = n.span.start :=
    Nat.min_eq_left (Text.le_size_of_isBoundary hb)
  have hcolumn := (Text.isBoundary_positionIn 0 hb).2
  rw [Nat.sub_zero] at hcolumn
  rw [beforeRead, Text.position, hmin]
  exact fitsIn_upTo hcolumn

theorem Element.name?_eq_some {t name : Text} (h : name? t = some name) :
    ∃ rest, t = '<' :: (name ++ rest) ∧ ∀ c ∈ name, isNameChar c := by
  unfold name? at h
  split at h
  · rename_i c cs
    split at h
    · rename_i hc
      cases h
      refine ⟨cs.dropWhile isNameChar, ?_, List.forall_mem_cons.2 ⟨?_, ?_⟩⟩
      · rw [List.cons_append, List.takeWhile_append_dropWhile]
      · exact isNameChar_of_isAlphanum (by rw [Char.isAlphanum, hc, Bool.true_or])
      · intro d hd
        exact Text.of_mem_takeWhile hd
    · cases h
  · cases h

theorem Element.exists_append_of_name? {outer name opening rest : Text}
    (hn : name? outer = some name) (ho : splitOpening? outer = some (opening, rest)) :
    ∃ m, opening = '<' :: name ++ m ++ ['>'] ∧ outer = opening ++ rest := by
  obtain ⟨v, hv, hname⟩ := name?_eq_some hn
  obtain ⟨u, rfl, rfl, -⟩ := splitOpening?_eq_some_iff.1 ho
  have hboth : u ++ ('>' :: rest) = ('<' :: name) ++ v := by
    rw [List.append_cons]
    exact hv
  rcases List.append_eq_append_iff.1 hboth with ⟨m, hm, hrest⟩ | ⟨m, rfl, -⟩
  · cases m with
    | nil =>
      rw [List.append_nil] at hm
      exact ⟨[], by rw [List.append_nil, hm], rfl⟩
    | cons c m =>
      obtain ⟨rfl, -⟩ := List.cons.inj hrest
      exfalso
      have hmem : '>' ∈ '<' :: name := by
        rw [hm]
        exact List.mem_append_right u List.mem_cons_self
      rcases List.mem_cons.1 hmem with h | h
      · exact absurd h (by decide)
      · exact absurd (hname _ h) (by decide)
  · exact ⟨m, rfl, rfl⟩

theorem Element.exists_beforeLastClose (rest : Text) :
    ∃ tail, rest = beforeLastClose rest ++ tail ∧
      (Text.lastOffset? rest "</".toList).getD (Text.size rest) =
        Text.size (beforeLastClose rest) := by
  rw [beforeLastClose]
  cases hlast : Text.lastOffset? rest "</".toList with
  | none => exact ⟨[], (List.append_nil rest).symm, rfl⟩
  | some n =>
    obtain ⟨a, b, rfl, rfl⟩ := Text.wordAt_of_lastOffset? hlast
    refine ⟨"</".toList ++ b, ?_, ?_⟩ <;> simp only [Text.before?_append, Option.getD_some]

/-- What an element is taken apart into is read from it. -/
theorem map_text?_tagReads {outer name opening rest : Text}
    (hn : Element.name? outer = some name)
    (ho : Element.splitOpening? outer = some (opening, rest)) :
    (tagReads outer).map (fun s => s.text? outer) =
      [some opening, some opening.dropLast, some (opening.dropLast.drop (name.length + 1)),
        some (Element.beforeLastClose rest)] := by
  obtain ⟨m, hopening, rfl⟩ := Element.exists_append_of_name? hn ho
  obtain ⟨tail, hrest, hclose⟩ := Element.exists_beforeLastClose rest
  have hhead : opening.dropLast = '<' :: name ++ m := by
    rw [hopening, List.dropLast_concat]
  have hattributes : opening.dropLast.drop (name.length + 1) = m := by
    rw [hhead]
    exact List.drop_left
  have hlength : Text.size opening - 1 = Text.size opening.dropLast := by
    rw [hhead, hopening, Text.size_append_singleton]
    exact Nat.add_sub_cancel _ 1
  have hwhole : opening ++ rest = opening.dropLast ++ '>' :: rest := by
    rw [hhead, hopening, List.append_assoc, List.singleton_append]
  have hopened : (⟨0, Text.size opening⟩ : Span).text? (opening ++ rest) = some opening :=
    Text.slice?_eq_some_iff.2 ⟨[], rest, rfl, rfl, (Nat.zero_add _).symm⟩
  have hheaded : (⟨0, Text.size opening.dropLast⟩ : Span).text? (opening ++ rest) =
      some opening.dropLast :=
    Text.slice?_eq_some_iff.2 ⟨[], _, hwhole, rfl, (Nat.zero_add _).symm⟩
  have hnamed : (⟨1 + Text.size name, Text.size opening.dropLast⟩ : Span).text? (opening ++ rest) =
      some m := by
    refine Text.slice?_eq_some_iff.2 ⟨'<' :: name, '>' :: rest, ?_, rfl, ?_⟩
    · rw [hwhole, hhead, List.append_assoc]
    · rw [hhead, Text.size_append]
  have hclosed : (⟨Text.size opening, Text.size opening +
      Text.size (Element.beforeLastClose rest)⟩ : Span).text? (opening ++ rest) =
        some (Element.beforeLastClose rest) :=
    Text.slice?_eq_some_iff.2 ⟨opening, tail, congrArg (opening ++ ·) hrest, rfl, rfl⟩
  simp only [tagReads, hn, ho, hclose, hlength, hattributes, List.map_cons, List.map_nil, hopened,
    hheaded, hnamed, hclosed]

theorem fitsIn_of_mem_tagReads {outer : Text} : ∀ r ∈ tagReads outer, r.FitsIn outer := by
  intro r hr
  have htext := List.mem_map_of_mem (f := fun s => s.text? outer) hr
  cases hn : Element.name? outer with
  | none =>
    simp only [tagReads, hn] at hr
    cases hr
  | some name =>
    cases ho : Element.splitOpening? outer with
    | none =>
      simp only [tagReads, hn, ho] at hr
      cases hr
    | some parts =>
      rw [map_text?_tagReads hn ho] at htext
      simp only [List.mem_cons, List.not_mem_nil, or_false] at htext
      rcases htext with h | h | h | h <;> exact ⟨_, h⟩

theorem fitsIn_of_mem_contentReads {s : Span} (h : s.FitsIn document) (content : Text) :
    ∀ r ∈ contentReads document s content, r.FitsIn document := by
  obtain ⟨a, b, hd, hstop⟩ := Text.isBoundary_iff.1 h.isBoundary_stop
  have hhead : (document.before? s.stop).getD [] = a := by
    rw [hd, hstop, Text.before?_append, Option.getD_some]
  have hstart : document.isBoundary ((a.lastOffset? content).getD s.start) := by
    cases hlast : a.lastOffset? content with
    | none => exact h.isBoundary_start
    | some k =>
      obtain ⟨l, r, rfl, rfl⟩ := Text.wordAt_of_lastOffset? hlast
      rw [hd, List.append_assoc]
      exact Text.isBoundary_iff.2 ⟨l, _, rfl, rfl⟩
  rw [contentReads, hhead]
  exact List.forall_mem_cons.2
    ⟨fitsIn_upTo h.isBoundary_stop, List.forall_mem_singleton.2 (fitsIn_upTo hstart)⟩

theorem fitsIn_of_mem_elementReads {config : Config} {s : Span} (h : s.FitsIn document) :
    ∀ r ∈ elementReads document config s, r.FitsIn document := by
  rw [elementReads]
  split
  · split
    · exact List.forall_mem_cons.2 ⟨h, fitsIn_of_mem_contentReads h _⟩
    · exact List.forall_mem_singleton.2 h
  · exact List.forall_mem_singleton.2 h

end Candidates

end Cloak
