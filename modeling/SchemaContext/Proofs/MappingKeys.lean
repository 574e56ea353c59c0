import SchemaContext.Proofs.SettingsLayers

/-!
# Keys of mappings

Where a text is looked up, only text keys matter: keys of other sorts are never taken for
it. What an update adds is found first. An update adds the keys that are not there yet, so
that no key comes twice and each has its place.
-/

namespace SchemaContext

theorem Entries.update_cons (m : Entries α) (e : String × α) (n : Entries α) :
    m.update (e :: n) = (m.put e.1 e.2).update n := rfl

namespace Mapping

def Distinct (m : Mapping) : Prop := m.keys.Pairwise fun k k' => sameKey k k' = false

variable {m n : Mapping} {s : String}

theorem keys_cons (e : Value × Value) (m : Mapping) : keys (e :: m) = e.1 :: m.keys := rfl

theorem sameKey_str_iff {k : Value} : sameKey (.str s) k = true ↔ k.text? = some s := by
  constructor
  · intro h
    exact (text?_eq_of_sameKey h).symm
  · intro h
    rw [Value.text?_eq_some_iff.1 h, sameKey_str, beq_self_eq_true]

theorem get?_cons_str (e : Value × Value) (m : Mapping) (s : String) :
    get? (e :: m) (.str s) = if e.1.text? = some s then some e.2 else m.get? (.str s) := by
  rw [get?]
  simp only [sameKey_str_iff]

theorem get?_put_str (m : Mapping) (k v : Value) (s : String) :
    (m.put k v).get? (.str s) = if k.text? = some s then some v else m.get? (.str s) := by
  induction m with
  | nil => rw [put, get?_cons_str]
  | cons e m ih =>
    rw [put, get?_cons_str]
    split
    case isTrue hsame =>
      rw [get?_cons_str, text?_eq_of_sameKey hsame]
      split <;> rfl
    case isFalse hsame =>
      rw [get?_cons_str, ih]
      by_cases hk : k.text? = some s
      · have hne : e.1.text? ≠ some s := by
          intro he
          rw [Value.text?_eq_some_iff.1 hk, sameKey_str_iff] at hsame
          exact hsame he
        rw [if_neg hne, if_pos hk, if_pos hk]
      · rw [if_neg hk, if_neg hk]

theorem get?_str_eq_none (h : ∀ k ∈ m.keys, k.text? ≠ some s) : m.get? (.str s) = none := by
  induction m with
  | nil => rfl
  | cons e m ih =>
    obtain ⟨he, hm⟩ := List.forall_mem_cons.1 h
    rw [get?_cons_str, if_neg he, ih hm]

/-- What is looked up among updated entries is looked up in the update first. -/
theorem get?_update_str (m : Mapping) (h : n.Distinct) (s : String) :
    (m.update n).get? (.str s) = (n.get? (.str s)).or (m.get? (.str s)) := by
  induction n generalizing m with
  | nil => rfl
  | cons e n ih =>
    obtain ⟨hnew, hn⟩ := List.pairwise_cons.1 h
    rw [update_cons, ih _ hn, get?_put_str, get?_cons_str]
    by_cases hs : e.1.text? = some s
    · have hnone : Mapping.get? n (.str s) = none := by
        refine get?_str_eq_none fun k hk htext => ?_
        have hother := hnew k hk
        rw [Value.text?_eq_some_iff.1 hs, sameKey_str_iff.2 htext] at hother
        cases hother
      rw [if_pos hs, if_pos hs, hnone]
      rfl
    · rw [if_neg hs, if_neg hs]

theorem update_ofEntries (m n : Entries Value) :
    update (Mapping.ofEntries m) (Mapping.ofEntries n) = Mapping.ofEntries (m.update n) := by
  induction n generalizing m with
  | nil => rfl
  | cons e n ih =>
    have hcons : Mapping.ofEntries (e :: n) = (.str e.1, e.2) :: Mapping.ofEntries n := rfl
    rw [hcons, update_cons, put_ofEntries, ih, Entries.update_cons]

theorem keys_ofEntries (m : Entries Value) : (Mapping.ofEntries m).keys = m.keys.map .str := by
  rw [keys, Mapping.ofEntries, Entries.keys, List.map_map, List.map_map]
  rfl

theorem distinct_ofEntries {m : Entries Value} (h : m.Distinct) :
    (Mapping.ofEntries m).Distinct := by
  rw [Distinct, keys_ofEntries, List.pairwise_map]
  refine List.Pairwise.imp (fun {a b} hne => ?_) h
  rw [sameKey_str, beq_eq_false_iff_ne]
  exact hne

theorem unhashable?_of_mem_keys {m : Entries Value} {k : Value}
    (h : k ∈ (Mapping.ofEntries m).keys) : k.unhashable? = none := by
  rw [keys_ofEntries] at h
  obtain ⟨n, -, rfl⟩ := List.mem_map.1 h
  rfl

/-- The keys after one more, which goes last if it is not there yet. -/
def addKey (ks : List Value) (k : Value) : List Value :=
  if ks.any (sameKey k) then ks else ks ++ [k]

theorem keys_put (m : Mapping) (k v : Value) : (m.put k v).keys = addKey m.keys k := by
  induction m with
  | nil => rfl
  | cons e m ih =>
    unfold addKey at ih ⊢
    rw [put, keys_cons, List.any_cons]
    cases hsame : sameKey k e.1 with
    | true => rfl
    | false =>
      rw [if_neg Bool.false_ne_true, keys_cons, ih, Bool.false_or]
      split <;> rfl

theorem keys_update (m n : Mapping) : (m.update n).keys = n.keys.foldl addKey m.keys := by
  induction n generalizing m with
  | nil => rfl
  | cons e n ih =>
    rw [update_cons, ih, keys_put, keys_cons, List.foldl_cons]

section AddedKeys

variable {ks added : List Value} {k : Value}

theorem mem_foldl_addKey (h : k ∈ added.foldl addKey ks) : k ∈ ks ∨ k ∈ added := by
  induction added generalizing ks with
  | nil => exact .inl h
  | cons a added ih =>
    rcases ih h with hks | hadded
    · unfold addKey at hks
      split at hks
      · exact .inl hks
      · rw [List.mem_append, List.mem_singleton] at hks
        exact hks.imp_right fun ha => List.mem_cons.2 (.inl ha)
    · exact .inr (List.mem_cons_of_mem a hadded)

theorem subset_foldl_addKey (ks added : List Value) : ks ⊆ added.foldl addKey ks := by
  induction added generalizing ks with
  | nil => exact List.Subset.refl ks
  | cons a added ih =>
    refine List.Subset.trans ?_ (ih (addKey ks a))
    unfold addKey
    split
    · exact List.Subset.refl ks
    · exact List.subset_append_left ks [a]

/-- Each key that is added is there, or the same key was there before. -/
theorem exists_mem_foldl_addKey (ks : List Value) (h : k ∈ added) :
    ∃ k' ∈ added.foldl addKey ks, k' = k ∨ sameKey k k' = true := by
  induction added generalizing ks with
  | nil => cases h
  | cons a added ih =>
    rcases List.mem_cons.1 h with rfl | h
    · have hthere : ∃ k' ∈ addKey ks k, k' = k ∨ sameKey k k' = true := by
        unfold addKey
        split
        case isTrue hsame =>
          obtain ⟨k', hk', hsame⟩ := List.any_eq_true.1 hsame
          exact ⟨k', hk', .inr hsame⟩
        case isFalse => exact ⟨k, List.mem_append_right ks (List.mem_singleton_self k), .inl rfl⟩
      obtain ⟨k', hk', hsame⟩ := hthere
      exact ⟨k', subset_foldl_addKey _ added hk', hsame⟩
    · exact ih _ h

def Told (ks : List Value) : Prop := ks.Pairwise fun k k' => sameKey k' k = false

theorem told_append_singleton : Told (ks ++ [k]) ↔ Told ks ∧ ks.any (sameKey k) = false := by
  rw [Told, List.pairwise_append, List.any_eq_false]
  simp [Told]

theorem Told.foldl_addKey (h : Told ks) (added : List Value) : Told (added.foldl addKey ks) := by
  induction added generalizing ks with
  | nil => exact h
  | cons a added ih =>
    refine ih ?_
    unfold addKey
    split
    case isTrue => exact h
    case isFalse hnew => exact told_append_singleton.2 ⟨h, Bool.not_eq_true _ ▸ hnew⟩

/-- Keys of which none comes twice are all added. -/
theorem foldl_addKey_of_told (h : Told (ks ++ added)) : added.foldl addKey ks = ks ++ added := by
  induction added generalizing ks with
  | nil => exact (List.append_nil ks).symm
  | cons a added ih =>
    rw [List.append_cons] at h ⊢
    have hnew : ks.any (sameKey a) = false := (told_append_singleton.1 (h.sublist
      (List.sublist_append_left _ added))).2
    rw [List.foldl_cons, addKey, hnew, if_neg Bool.false_ne_true, ih h]

theorem distinctKeys_of_told (h : Told ks) : distinctKeys ks = ks := by
  have hpairs : keys (ks.map fun v => (v, .null)) = ks := by
    rw [keys, List.map_map]
    exact List.map_id ks
  rw [distinctKeys, ofPairs, keys_update, hpairs]
  exact foldl_addKey_of_told h

end AddedKeys

end Mapping
end SchemaContext
