import Cloak.Proofs.Fences

namespace Cloak

open Unclosed (inSome)

/-- A text is a document in which some bytes are hidden: a hidden byte is a line feed if it was one,
and an `x` if not. -/
structure Blanked (document masked : Text) (hidden : Nat → Prop) : Prop where
  size_eq : masked.size = document.size
  feed_iff : ∀ i : Nat, masked.bytes[i]? = some 10 ↔ document.bytes[i]? = some 10
  outside : ∀ i : Nat, ¬ hidden i → masked.bytes[i]? = document.bytes[i]?
  inside : ∀ i : Nat, hidden i → masked.bytes[i]? = some 10 ∨ masked.bytes[i]? = some 120

theorem blotByte_cases (b : UInt8) : blotByte b = 10 ∨ blotByte b = 120 := by
  rw [blotByte]
  split
  · exact .inl rfl
  · exact .inr rfl

theorem blotByte_eq_feed_iff {b : UInt8} : blotByte b = 10 ↔ b = 10 := by
  rw [blotByte]
  split
  · rename_i hb
    exact ⟨fun _ => hb, fun _ => rfl⟩
  · rename_i hb
    exact ⟨fun h => absurd h (by decide), fun h => absurd h hb⟩

theorem maskByte_eq_feed_iff {spans : List Span} {i : Nat} {b : UInt8} :
    maskByte spans i b = 10 ↔ b = 10 := by
  rw [maskByte]
  split
  · exact blotByte_eq_feed_iff
  · exact Iff.rfl

section

variable {document : Text} {spans : List Span}

theorem bytes_mask (hf : ∀ s ∈ spans, s.FitsIn document) :
    (mask document spans).bytes = document.bytes.mapIdx (maskByte (outermost id spans)) := by
  apply List.ext_getElem?
  intro i
  rw [getElem?_bytes_mask hf, List.getElem?_mapIdx]

theorem Span.FitsIn.exists_byte {s : Span} (h : s.FitsIn document) {i : Nat} (hi : s.holds i) :
    ∃ b, document.bytes[i]? = some b := by
  obtain ⟨a, c, hd, hstart, hstop⟩ := h.exists_append
  have hlt := (holds_iff.1 hi).2
  have hsize := congrArg Text.size hd
  rw [Text.size_append, Text.size_append] at hsize
  rw [← Option.isSome_iff_exists, isSome_getElem?, Text.length_bytes]
  omega

/-- Masking hides what is in the outermost ranges. -/
theorem blanked_mask (hf : ∀ s ∈ spans, s.FitsIn document) :
    Blanked document (mask document spans) fun i => inSome (outermost id spans) i := by
  constructor
  case size_eq =>
    rw [← Text.length_bytes, bytes_mask hf, List.length_mapIdx, Text.length_bytes]
  case feed_iff =>
    intro i
    rw [getElem?_bytes_mask hf, Option.map_eq_some_iff]
    constructor
    · rintro ⟨b, hb, hfeed⟩
      rw [maskByte_eq_feed_iff.1 hfeed] at hb
      exact hb
    · intro hb
      exact ⟨10, hb, maskByte_eq_feed_iff.2 rfl⟩
  case outside =>
    intro i hi
    rw [getElem?_bytes_mask hf, maskByte_of_not_inSome hi, Option.map_id, id]
  case inside =>
    intro i hi
    obtain ⟨s, hs, hold⟩ := inSome_iff.1 hi
    obtain ⟨b, hb⟩ := (fitsIn_of_mem_outermost hf s hs).exists_byte hold
    rw [getElem?_bytes_mask hf, hb, maskByte_of_holds hs hold, Option.map_some, Option.some_inj,
      Option.some_inj]
    exact blotByte_cases b

theorem Blanked.congr {masked : Text} {hidden hidden' : Nat → Prop}
    (h : Blanked document masked hidden) (hiff : ∀ i, hidden i ↔ hidden' i) :
    Blanked document masked hidden' where
  size_eq := h.size_eq
  feed_iff := h.feed_iff
  outside i hi := h.outside i fun hin => hi ((hiff i).1 hin)
  inside i hi := h.inside i ((hiff i).2 hi)

theorem Span.EndsOutside.apart_or_contains {f k : Span} (h : f.EndsOutside spans) (hk : k ∈ spans)
    (hpos : f.start < f.stop) (hle : k.start ≤ k.stop) : f.Apart k ∨ f.contains k := by
  obtain ⟨hstart, hstop⟩ := h
  have outside {i : Nat} (hi : ¬ inSome spans i) : ¬ (k.start ≤ i ∧ i < k.stop) :=
    fun hin => hi (inSome_iff.2 ⟨k, hk, holds_iff.2 hin⟩)
  have hfirst := outside hstart
  have hlast := outside hstop
  simp only [Apart, contains, Bool.and_eq_true, decide_eq_true_eq]
  omega

end

namespace Fence

theorem IsDollarsLine.le_size {line : Text} {indent : Nat} (h : IsDollarsLine line indent) :
    indent + 2 ≤ line.size := by
  obtain ⟨blanks, ⟨-, hline⟩, -⟩ := h
  have hindent : Text.size (List.replicate indent ' ') = indent := by
    rw [Text.size_of_forall_eq_space, List.length_replicate]
    intro c hc
    exact beq_iff_eq.2 (List.eq_of_mem_replicate hc)
  have hdollars : Text.size dollars = 2 := rfl
  rw [hline, Text.size_append, Text.size_append, hindent, hdollars]
  omega

theorem Blocks.start_add_le {opens : Text → Char → Nat → Prop} {offset : Nat} {lines : List Text}
    {fences : List Span} (h : Blocks opens offset lines fences) :
    ∀ f ∈ fences, f.start + 5 ≤ f.stop := by
  induction h with
  | nil => exact List.forall_mem_nil _
  | other hdollars hopens h ih => exact ih
  | code hopens hinside hcloses h ih => exact ih
  | openCode hopens hinside => exact List.forall_mem_nil _
  | math hopens hinside hcloses h ih =>
    apply List.forall_mem_cons.2 ⟨_, ih⟩
    have hle := hopens.le_size
    have hdollars : Text.size dollars = 2 := rfl
    simp only [linesSize_cons, hdollars]
    omega
  | openMath hopens hinside => exact List.forall_mem_nil _

theorem start_add_le_of_mem_mathFences {t : Text} {f : Span} (h : f ∈ mathFences t) :
    f.start + 5 ≤ f.stop :=
  (blocks_iff_eq_mathFences.2 rfl).start_add_le f h

end Fence

/-- Masking keeps the bytes of a document, and the line feeds among those that it hides. Each math
fence found in the masked document stands between dollars of the document, has a line feed between
them, and is apart from each hidden range or contains it, so that the outermost of the ranges and the
fences hide what the outermost ranges hide and what is in the fences. -/
theorem mask_fits_fences {document : Text} {spans : List Span}
    (hf : ∀ s ∈ spans, s.FitsIn document) :
    let kept := outermost id spans
    let fences := mathFences (mask document spans)
    Blanked document (mask document spans) (fun i => inSome kept i) ∧
      (∀ f ∈ fences, f.EnclosedBy dollars dollars document ∧ f.start + 5 ≤ f.stop ∧
        ∀ k ∈ kept, f.Apart k ∨ f.contains k) ∧
      hideOpaque document spans = ⟨mask document (spans ++ fences), fences⟩ ∧
      (∀ i, inSome (outermost id (spans ++ fences)) i ↔ inSome kept i ∨ inSome fences i) ∧
      Blanked document (mask document (spans ++ fences))
        (fun i => inSome kept i ∨ inSome fences i) := by
  intro kept fences
  have hfences : (hideOpaque document spans).fences = fences := rfl
  have hhidden := fitsIn_of_mem_hidden hf
  have hunion (i : Nat) :
      inSome (outermost id (spans ++ fences)) i ↔ inSome kept i ∨ inSome fences i :=
    inSome_outermost_append_iff (fun s hs => (hf s hs).start_le)
      (fun f hmem => endsOutside_of_mem_fences hf hmem) (Fence.consecutive_mathFences _) i
  refine ⟨blanked_mask hf, ?_, ?_, hunion, (blanked_mask hhidden).congr hunion⟩
  · intro f hmem
    obtain ⟨henclosed, hends⟩ := enclosedBy_of_mem_fences hf hmem
    have hlong := Fence.start_add_le_of_mem_mathFences hmem
    refine ⟨henclosed, hlong, ?_⟩
    intro k hk
    exact hends.apart_or_contains hk (by omega) (fitsIn_of_mem_outermost hf k hk).start_le
  · have htext := hideOpaque_text document spans
    rw [hfences] at htext
    rw [← htext, ← hfences]

/-- A fence takes the place of the range inside it, and the range that this one had cut off, which goes
on behind the fence, stays dropped. -/
theorem mask_fits_fences_swallowed :
    let document := "$$\nüab\n$$\ncd".toList
    let spans : List Span := [⟨3, 6⟩, ⟨5, 12⟩, ⟨5, 5⟩, ⟨12, 13⟩]
    (∀ s ∈ spans, s.FitsIn document) ∧ outermost id spans = [⟨3, 6⟩, ⟨12, 13⟩] ∧
      mathFences (mask document spans) = [⟨0, 10⟩] ∧
      hideOpaque document spans = ⟨"xx\nxxxx\nxx\ncx".toList, [⟨0, 10⟩]⟩ ∧
      ∀ i, inSome (outermost id (spans ++ [⟨0, 10⟩])) i ↔
        inSome [⟨3, 6⟩, ⟨12, 13⟩] i ∨ inSome [⟨0, 10⟩] i := by
  intro document spans
  have hf : ∀ s ∈ spans, s.FitsIn document := by decide
  have hkept : outermost id spans = [⟨3, 6⟩, ⟨12, 13⟩] := by decide
  have hfences : mathFences (mask document spans) = [⟨0, 10⟩] := by decide
  obtain ⟨-, -, hhide, hunion, -⟩ := mask_fits_fences hf
  rw [hfences] at hhide hunion
  rw [hkept] at hunion
  have htext : mask document (spans ++ [⟨0, 10⟩]) = "xx\nxxxx\nxx\ncx".toList := by decide
  rw [htext] at hhide
  exact ⟨hf, hkept, hfences, hhide, hunion⟩

end Cloak
