import Cloak.Proofs.Enclosure
import Cloak.Proofs.Masking

namespace Cloak

namespace Expression

theorem shieldEnd?_spec {offset : Nat} {shields rest : List Span} {stop? : Option Nat}
    (h : shieldEnd? offset shields = (stop?, rest)) :
    (∃ dropped, shields = dropped ++ rest ∧ ∀ r ∈ dropped, r.stop ≤ offset) ∧
      (∀ stop ∈ stop?, offset < stop) ∧ (stop? = none → ∀ r ∈ rest.head?, offset < r.start) := by
  induction shields with
  | nil =>
    cases h
    refine ⟨⟨[], rfl, List.forall_mem_nil _⟩, ?_, ?_⟩
    · intro stop hstop
      cases hstop
    · intro _ r hr
      cases hr
  | cons s ss ih =>
    rw [shieldEnd?] at h
    split at h
    · rename_i hs
      obtain ⟨⟨dropped, rfl, hdropped⟩, hrest⟩ := ih h
      exact ⟨⟨s :: dropped, rfl, List.forall_mem_cons.2 ⟨hs, hdropped⟩⟩, hrest⟩
    · rename_i hs
      cases h
      refine ⟨⟨[], rfl, List.forall_mem_nil _⟩, ?_, ?_⟩
      · intro stop hstop
        split at hstop
        · cases hstop
          omega
        · cases hstop
      · intro hnone r hr
        cases hr
        split at hnone
        · cases hnone
        · omega

theorem start_of_braces? {offset : Nat} {t : Text} {s : Span} (h : braces? offset t = some s) :
    s.start = offset := by
  unfold braces? at h
  split at h
  · obtain ⟨n, -, rfl⟩ := Option.map_eq_some_iff.1 h
    rfl
  · cases h

theorem consecutive_scan (shields : List Span) (reached : Nat) (hidden : Bool) (offset : Nat)
    (t : Text) : Consecutive id reached (scan shields reached hidden offset t) := by
  induction t generalizing shields reached hidden offset with
  | nil => trivial
  | cons c t ih =>
    rw [scan]
    split
    · exact ih _ _ _ _
    · rename_i hoffset
      split
      · exact ih _ _ _ _
      · split
        · rename_i stop shields' hshield
          have hstop := (shieldEnd?_spec hshield).2.1 stop rfl
          exact (ih _ _ _ _).mono (by omega)
        · split
          · exact ih _ _ _ _
          · split
            · rename_i span hspan
              refine ⟨?_, ih _ _ _ _⟩
              rw [id, start_of_braces? hspan]
              exact Nat.le_of_not_lt hoffset
            · exact ih _ _ _ _

theorem shieldEnd?_append {offset : Nat} {dropped : List Span} (rest : List Span)
    (h : ∀ r ∈ dropped, r.stop ≤ offset) :
    shieldEnd? offset (dropped ++ rest) = shieldEnd? offset rest := by
  induction dropped with
  | nil => rfl
  | cons r dropped ih =>
    rw [List.cons_append, shieldEnd?, if_pos (h r List.mem_cons_self)]
    exact ih fun r' hr' => h r' (List.mem_cons_of_mem r hr')

theorem scan_append_of_stop_le {dropped rest : List Span} {reached offset : Nat} {hidden : Bool}
    {t : Text} (h : ∀ r ∈ dropped, r.stop ≤ offset) :
    scan (dropped ++ rest) reached hidden offset t = scan rest reached hidden offset t := by
  induction t generalizing reached hidden offset with
  | nil => rfl
  | cons c t ih =>
    have later : ∀ r ∈ dropped, r.stop ≤ offset + c.utf8Size :=
      fun r hr => Nat.le_trans (h r hr) (Nat.le_add_right _ _)
    rw [scan, scan, shieldEnd?_append rest h, ih later]

theorem mem_of_shieldEnd? {offset stop : Nat} {shields rest : List Span}
    (h : shieldEnd? offset shields = (some stop, rest)) :
    ∃ r ∈ shields, r.holds offset ∧ r.stop = stop := by
  induction shields with
  | nil => cases h
  | cons s ss ih =>
    rw [shieldEnd?] at h
    split at h
    · obtain ⟨r, hr, hstop⟩ := ih h
      exact ⟨r, List.mem_cons_of_mem s hr, hstop⟩
    · rename_i hs
      split at h
      · rename_i hle
        cases h
        exact ⟨s, List.mem_cons_self, Span.holds_iff.2 ⟨hle, Nat.lt_of_not_le hs⟩, rfl⟩
      · cases h

theorem not_holds_of_shieldEnd? {offset : Nat} {shields rest : List Span}
    (hsorted : shields.Pairwise fun r r' => r.start ≤ r'.start)
    (h : shieldEnd? offset shields = (none, rest)) : ∀ r ∈ shields, ¬ r.holds offset := by
  obtain ⟨⟨dropped, rfl, hdropped⟩, -, hhead⟩ := shieldEnd?_spec h
  intro r hr
  rw [Span.holds_iff]
  rcases List.mem_append.1 hr with hr | hr
  · have hstop := hdropped r hr
    omega
  · have hrest := (List.pairwise_append.1 hsorted).2.1
    cases rest with
    | nil => cases hr
    | cons r' rest =>
      have hlt := hhead rfl r' rfl
      rcases List.mem_cons.1 hr with rfl | hr
      · omega
      · have hle := (List.pairwise_cons.1 hrest).1 r hr
        omega

/-- Where a walk is: up to `reached` everything is settled, and the character ahead may be hidden by
a backslash. -/
structure Walk where
  reached : Nat
  hidden : Bool

/-- A walk looks at the character at an offset. -/
structure Walk.Looks (shields : List Span) (w : Walk) (offset : Nat) : Prop where
  awake : w.reached ≤ offset
  seen : w.hidden = false
  outside : ∀ r ∈ shields, ¬ r.holds offset

/-- What a walk does at a character that some text follows: what it finds there, and where it is
then. -/
inductive Step (shields : List Span) (w : Walk) (offset : Nat) (c : Char) (t : Text) :
    Option Span → Walk → Prop
  | asleep (h : offset < w.reached) : Step shields w offset c t none ⟨w.reached, false⟩
  | hidden (h : w.reached ≤ offset) (hh : w.hidden = true) :
      Step shields w offset c t none ⟨w.reached, false⟩
  | shield (h : w.reached ≤ offset) {r : Span} (hr : r ∈ shields) (hold : r.holds offset) :
      Step shields w offset c t none ⟨r.stop, false⟩
  | backslash (h : w.Looks shields offset) (hc : c = '\\') :
      Step shields w offset c t none ⟨w.reached, true⟩
  | braces (h : w.Looks shields offset) (hc : c ≠ '\\') {s : Span}
      (hs : braces? offset (c :: t) = some s) : Step shields w offset c t (some s) ⟨s.stop, false⟩
  | other (h : w.Looks shields offset) (hc : c ≠ '\\') (hs : braces? offset (c :: t) = none) :
      Step shields w offset c t none ⟨w.reached, false⟩

section

variable {shields : List Span} (hsorted : shields.Pairwise fun r r' => r.start ≤ r'.start)
include hsorted

/-- A scan is a step of the walk and the scan from there on. -/
theorem exists_step (w : Walk) (offset : Nat) (c : Char) (t : Text) :
    ∃ found w', Step shields w offset c t found w' ∧
      scan shields w.reached w.hidden offset (c :: t) =
        found.toList ++ scan shields w'.reached w'.hidden (offset + c.utf8Size) t := by
  rw [scan]
  split
  · rename_i hasleep
    exact ⟨none, _, .asleep hasleep, rfl⟩
  · rename_i hawake
    have hawake := Nat.le_of_not_lt hawake
    split
    · rename_i hhidden
      exact ⟨none, _, .hidden hawake hhidden, rfl⟩
    · rename_i hseen
      have hseen := Bool.eq_false_iff.2 hseen
      -- the scan goes on without the shields that are behind it
      have drop {stop? : Option Nat} {rest : List Span} {reached : Nat} {hidden : Bool}
          (hshield : shieldEnd? offset shields = (stop?, rest)) :
          scan rest reached hidden (offset + c.utf8Size) t =
            scan shields reached hidden (offset + c.utf8Size) t := by
        obtain ⟨⟨dropped, rfl, hdropped⟩, -⟩ := shieldEnd?_spec hshield
        exact (scan_append_of_stop_le fun r hr =>
          Nat.le_trans (hdropped r hr) (Nat.le_add_right _ _)).symm
      split
      · rename_i stop rest hshield
        obtain ⟨r, hr, hold, rfl⟩ := mem_of_shieldEnd? hshield
        exact ⟨none, _, .shield hawake hr hold, drop hshield⟩
      · rename_i rest hshield
        have hlooks : w.Looks shields offset :=
          ⟨hawake, hseen, not_holds_of_shieldEnd? hsorted hshield⟩
        split
        · rename_i hc
          exact ⟨none, _, .backslash hlooks hc, drop hshield⟩
        · rename_i hc
          split
          · rename_i s hs
            exact ⟨some s, _, .braces hlooks hc hs, congrArg (s :: ·) (drop hshield)⟩
          · rename_i hs
            exact ⟨none, _, .other hlooks hc hs, drop hshield⟩

theorem not_holds_of_mem_scan {reached : Nat} {hidden : Bool} {offset : Nat} {t : Text} {s : Span}
    (h : s ∈ scan shields reached hidden offset t) :
    offset ≤ s.start ∧ ∀ r ∈ shields, ¬ r.holds s.start := by
  induction t generalizing reached hidden offset with
  | nil => cases h
  | cons c t ih =>
    obtain ⟨found, w', hstep, hscan⟩ := exists_step hsorted ⟨reached, hidden⟩ offset c t
    rw [hscan] at h
    rcases List.mem_append.1 h with hfound | hlater
    · obtain rfl : found = some s := Option.mem_toList.1 hfound
      cases hstep with
      | braces hlooks _ hs =>
        rw [start_of_braces? hs]
        exact ⟨Nat.le_refl _, hlooks.outside⟩
    · obtain ⟨hle, hout⟩ := ih hlater
      exact ⟨by omega, hout⟩

end

end Expression

end Cloak
