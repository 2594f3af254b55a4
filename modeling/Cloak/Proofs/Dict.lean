import Cloak.Dict

namespace Cloak.Dict

theorem exists_find? {d : Dict α} {key : Text} (h : key ∈ d.keys) :
    ∃ value, d.find? key = some value := by
  obtain ⟨entry, hentry, rfl⟩ := List.mem_map.1 h
  have hsome : (List.find? (fun e => e.1 == entry.1) d).isSome := by
    rw [List.find?_isSome]
    exact ⟨entry, hentry, beq_self_eq_true _⟩
  obtain ⟨found, hfound⟩ := Option.isSome_iff_exists.1 hsome
  exact ⟨found.2, Option.map_eq_some_iff.2 ⟨found, hfound, rfl⟩⟩

theorem find?_cons (k : Text) (v : α) (d : Dict α) (key : Text) :
    find? ((k, v) :: d) key = if k = key then some v else d.find? key := by
  rw [find?, List.find?_cons]
  by_cases h : k = key
  · rw [if_pos h, beq_iff_eq.2 h]
    rfl
  · rw [if_neg h, beq_eq_false_iff_ne.2 h]
    rfl

theorem find?_insert (key : Text) (value : α) (d : Dict α) (other : Text) :
    (insert key value d).find? other = if key = other then some value else d.find? other := by
  induction d with
  | nil => rw [insert, find?_cons]
  | cons entry d ih =>
    obtain ⟨k, v⟩ := entry
    rw [insert, find?_cons]
    by_cases hk : key = k
    · subst hk
      rw [if_pos rfl, find?_cons]
      by_cases ho : key = other
      · rw [if_pos ho, if_pos ho]
      · rw [if_neg ho, if_neg ho, if_neg ho]
    rw [if_neg hk]
    split
    · rw [find?_cons, find?_cons]
    · rw [find?_cons, ih]
      by_cases ho : k = other
      · rw [if_pos ho, if_neg (ho ▸ hk), if_pos ho]
      · rw [if_neg ho, if_neg ho]

/-- The keys of a dictionary ascend. -/
def Ascending (d : Dict α) : Prop :=
  d.keys.Pairwise (· < ·)

theorem mem_keys_insert {key k : Text} {value : α} {d : Dict α}
    (h : k ∈ (insert key value d).keys) : k = key ∨ k ∈ d.keys := by
  induction d with
  | nil => exact .inl (List.mem_singleton.1 h)
  | cons entry d ih =>
    obtain ⟨k', v⟩ := entry
    rw [insert] at h
    split at h
    · rename_i hk
      rcases List.mem_cons.1 h with h | h
      · exact .inl h
      · exact .inr (List.mem_cons_of_mem _ h)
    · split at h
      · exact List.mem_cons.1 h
      · rcases List.mem_cons.1 h with h | h
        · exact .inr (List.mem_cons.2 (.inl h))
        · exact (ih h).imp_right (List.mem_cons_of_mem _)

theorem Ascending.insert {d : Dict α} (h : d.Ascending) (key : Text) (value : α) :
    (insert key value d).Ascending := by
  induction d with
  | nil => exact List.pairwise_singleton _ _
  | cons entry d ih =>
    obtain ⟨k, v⟩ := entry
    obtain ⟨hk, hd⟩ := List.pairwise_cons.1 h
    rw [Dict.insert]
    split
    · rename_i he
      subst he
      exact h
    · rename_i hne
      split
      · rename_i hlt
        refine List.pairwise_cons.2 ⟨?_, h⟩
        intro k' hk'
        rcases List.mem_cons.1 hk' with rfl | hk'
        · exact hlt
        · exact List.lt_trans hlt (hk k' hk')
      · rename_i hlt
        refine List.pairwise_cons.2 ⟨?_, ih hd⟩
        intro k' hk'
        rcases mem_keys_insert hk' with rfl | hk'
        · rcases List.le_iff_lt_or_eq.1 (List.not_lt.1 hlt) with hlt | he
          · exact hlt
          · exact absurd he.symm hne
        · exact hk k' hk'

theorem ofList_eq_foldr (entries : List (Text × α)) :
    ofList entries = entries.reverse.foldr (fun entry d => insert entry.1 entry.2 d) [] := by
  rw [ofList, List.foldr_reverse]

theorem find?_ofList (entries : List (Text × α)) (key : Text) :
    (ofList entries).find? key =
      (entries.reverse.find? fun entry => entry.1 == key).map Prod.snd := by
  rw [ofList_eq_foldr]
  induction entries.reverse with
  | nil => rfl
  | cons entry entries ih =>
    rw [List.foldr_cons, find?_insert, ih, List.find?_cons]
    by_cases h : entry.1 = key
    · rw [if_pos h, beq_iff_eq.2 h]
      rfl
    · rw [if_neg h, beq_eq_false_iff_ne.2 h]

theorem ascending_ofList (entries : List (Text × α)) : (ofList entries).Ascending := by
  rw [ofList_eq_foldr]
  induction entries.reverse with
  | nil => exact List.Pairwise.nil
  | cons entry entries ih => exact ih.insert entry.1 entry.2

end Cloak.Dict
