/-!
# First occurrences

A list without its repetitions: of the elements with one key only the first stays,
and the order of those that stay is kept.
-/

namespace SchemaContext

/-- Of the elements with one key, the first. -/
def firstOccurrences (key : α → String) : List α → List α
  | [] => []
  | a :: rest => a :: (firstOccurrences key rest).filter fun b => key b ≠ key a

theorem nodup_map_firstOccurrences (key : α → String) (as : List α) :
    ((firstOccurrences key as).map key).Nodup := by
  induction as with
  | nil => exact List.nodup_nil
  | cons a rest ih =>
    rw [firstOccurrences, List.map_cons, List.nodup_cons]
    constructor
    · simp
    · exact ih.sublist (List.filter_sublist.map key)

theorem mem_of_mem_firstOccurrences {key : α → String} {as : List α} {a : α}
    (h : a ∈ firstOccurrences key as) : a ∈ as := by
  induction as with
  | nil => simp [firstOccurrences] at h
  | cons b rest ih =>
    rw [firstOccurrences, List.mem_cons] at h
    rcases h with rfl | h
    · exact List.mem_cons_self
    · exact List.mem_cons_of_mem _ (ih (List.mem_filter.1 h).1)

/-- Every key of the list is the key of an element that stays. -/
theorem mem_map_firstOccurrences {key : α → String} {as : List α} {k : String} :
    k ∈ (firstOccurrences key as).map key ↔ k ∈ as.map key := by
  induction as with
  | nil => simp [firstOccurrences]
  | cons a rest ih =>
    by_cases h : k = key a
    · simp [firstOccurrences, h]
    · rw [firstOccurrences, List.map_cons, List.mem_cons, List.map_cons, List.mem_cons, ← ih]
      simp only [h, false_or, List.mem_map, List.mem_filter, decide_eq_true_eq]
      constructor
      · rintro ⟨b, ⟨hb, _⟩, rfl⟩; exact ⟨b, hb, rfl⟩
      · rintro ⟨b, hb, rfl⟩; exact ⟨b, ⟨hb, h⟩, rfl⟩

/-- Leaving out a key first or last is the same. -/
theorem firstOccurrences_filter (key : α → String) (k : String) (as : List α) :
    firstOccurrences key (as.filter fun b => key b ≠ k) =
      (firstOccurrences key as).filter fun b => key b ≠ k := by
  induction as with
  | nil => rfl
  | cons a rest ih =>
    by_cases h : key a = k
    · rw [List.filter_cons_of_neg (by simp [h]), ih, firstOccurrences,
        List.filter_cons_of_neg (by simp [h]), List.filter_filter]
      simp [h]
    · rw [List.filter_cons_of_pos (by simp [h]), firstOccurrences, ih, firstOccurrences,
        List.filter_cons_of_pos (by simp [h]), List.filter_filter, List.filter_filter]
      simp only [Bool.and_comm]

/-- Of a second list those elements stay whose keys are new. -/
theorem firstOccurrences_append (key : α → String) (as bs : List α) :
    firstOccurrences key (as ++ bs) =
      firstOccurrences key as ++
        (firstOccurrences key bs).filter fun b => key b ∉ (firstOccurrences key as).map key := by
  simp only [mem_map_firstOccurrences]
  induction as with
  | nil => exact (List.filter_eq_self.2 fun b _ => by simp).symm
  | cons a rest ih =>
    rw [List.cons_append, firstOccurrences, ih, firstOccurrences, List.filter_append,
      List.filter_filter, List.cons_append]
    congr 2
    apply List.filter_congr
    intro b _
    simp

theorem firstOccurrences_eq_eraseDupsBy (key : α → String) (as : List α) :
    firstOccurrences key as = as.eraseDupsBy fun a b => key a == key b := by
  induction h : as.length using Nat.strongRecOn generalizing as with
  | ind n ih =>
    cases as with
    | nil => rfl
    | cons a rest =>
      have hshorter : (rest.filter fun b => key b ≠ key a).length < n := by
        rw [← h, List.length_cons]
        exact Nat.lt_succ_of_le (List.length_filter_le _ rest)
      rw [firstOccurrences, List.eraseDupsBy_cons, ← firstOccurrences_filter,
        ih _ hshorter _ rfl]
      simp

end SchemaContext
