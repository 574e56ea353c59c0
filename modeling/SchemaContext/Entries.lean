/-!
# Ordered entries

A finite map from names to values that remembers the order in which its names
first came. `put` replaces the value of a known name in its place and appends a
new name; `erase` drops a name and keeps the order of the others. A list in which
no name occurs twice is kept so by both operations.
-/

namespace SchemaContext

/-- Names with their values, in the order in which the names first came. -/
abbrev Entries (α : Type u) := List (String × α)

namespace Entries

variable {α : Type u} {β : Type v}

def keys (m : Entries α) : List String := m.map Prod.fst

def values (m : Entries α) : List α := m.map Prod.snd

/-- The value under a name, if the name is there. -/
def get? (m : Entries α) (k : String) : Option α :=
  match m with
  | [] => none
  | (k', a) :: rest => if k' = k then some a else get? rest k

def contains (m : Entries α) (k : String) : Bool := (m.get? k).isSome

/-- A known name keeps its place, a new name goes last. -/
def put (m : Entries α) (k : String) (a : α) : Entries α :=
  match m with
  | [] => [(k, a)]
  | (k', a') :: rest => if k' = k then (k, a) :: rest else (k', a') :: put rest k a

/-- Leaves the entries under other names as they are. -/
def erase (m : Entries α) (k : String) : Entries α := m.filter fun e => e.1 ≠ k

/-- The entries of a sequence of pairs: the first place and the last value of each name. -/
def ofList (pairs : List (String × α)) : Entries α := pairs.foldl (fun m e => m.put e.1 e.2) []

/-- All entries of the second map, put into the first in order. -/
def update (m n : Entries α) : Entries α := n.foldl (fun m e => m.put e.1 e.2) m

def mapValues (f : α → β) (m : Entries α) : Entries β := m.map fun e => (e.1, f e.2)

/-- No name occurs twice. -/
def Distinct (m : Entries α) : Prop := m.keys.Nodup

@[simp] theorem keys_nil : keys ([] : Entries α) = [] := rfl

@[simp] theorem keys_cons (e : String × α) (m : Entries α) : keys (e :: m) = e.1 :: m.keys := rfl

theorem keys_append (m n : Entries α) : keys (m ++ n) = m.keys ++ n.keys := List.map_append

@[simp] theorem get?_nil (k : String) : get? ([] : Entries α) k = none := rfl

theorem get?_cons (e : String × α) (m : Entries α) (k : String) :
    get? (e :: m) k = if e.1 = k then some e.2 else m.get? k := rfl

theorem get?_eq_none_iff {m : Entries α} {k : String} : m.get? k = none ↔ k ∉ m.keys := by
  induction m with
  | nil => simp
  | cons e m ih =>
    by_cases h : e.1 = k
    · simp [get?_cons, h]
    · simp [get?_cons, h, ih, Ne.symm h]

theorem get?_of_mem {m : Entries α} (h : m.Distinct) {e : String × α} (he : e ∈ m) :
    m.get? e.1 = some e.2 := by
  induction m with
  | nil => exact absurd he List.not_mem_nil
  | cons e' m ih =>
    obtain ⟨hhead, htail⟩ := List.nodup_cons.1 h
    rcases List.mem_cons.1 he with rfl | he
    · rw [get?_cons, if_pos rfl]
    · have hne : e'.1 ≠ e.1 := by
        intro heq
        exact hhead (heq ▸ List.mem_map_of_mem he)
      rw [get?_cons, if_neg hne, ih htail he]

theorem mem_of_get? {m : Entries α} {k : String} {a : α} (h : m.get? k = some a) : (k, a) ∈ m := by
  induction m with
  | nil => cases h
  | cons e m ih =>
    by_cases hk : e.1 = k
    · rw [get?_cons, if_pos hk] at h
      cases h
      exact List.mem_cons.2 (.inl (Prod.ext hk.symm rfl))
    · rw [get?_cons, if_neg hk] at h
      exact List.mem_cons_of_mem _ (ih h)

/-- A name that both have is looked up in the first. -/
theorem get?_append (m n : Entries α) (k : String) :
    get? (m ++ n) k = (m.get? k).or (n.get? k) := by
  induction m with
  | nil => rfl
  | cons e m ih =>
    rw [List.cons_append, get?_cons, get?_cons, ih]
    split <;> rfl

theorem get?_mapValues (f : α → β) (m : Entries α) (k : String) :
    get? (mapValues f m) k = (m.get? k).map f := by
  induction m with
  | nil => rfl
  | cons e m ih =>
    have h : mapValues f (e :: m) = (e.1, f e.2) :: mapValues f m := rfl
    rw [h, get?_cons, get?_cons, ih]
    by_cases hk : e.1 = k <;> simp [hk]

theorem get?_erase (m : Entries α) (k n : String) :
    get? (erase m k) n = if k = n then none else m.get? n := by
  induction m with
  | nil => simp [erase]
  | cons e m ih =>
    by_cases h : e.1 = k
    · have hrest : erase (e :: m) k = erase m k := by simp [erase, h]
      rw [hrest, ih, get?_cons, h]
      split <;> rfl
    · have hrest : erase (e :: m) k = e :: erase m k := by simp [erase, h]
      rw [hrest, get?_cons, get?_cons, ih]
      grind

theorem get?_put (m : Entries α) (k k' : String) (a : α) :
    (m.put k a).get? k' = if k = k' then some a else m.get? k' := by
  induction m with
  | nil => simp [put, get?_cons]
  | cons e m ih =>
    by_cases h : e.1 = k
    · by_cases hk : k = k' <;> simp [put, h, get?_cons, hk]
    · by_cases hk : k = k'
      · subst hk; simp [put, h, get?_cons, ih]
      · simp [put, h, get?_cons, ih, hk]

theorem mem_keys_put {m : Entries α} {k k' : String} {a : α} :
    k' ∈ (m.put k a).keys ↔ k' = k ∨ k' ∈ m.keys := by
  induction m with
  | nil => simp [put]
  | cons e m ih =>
    by_cases h : e.1 = k
    · simp [put, h]
    · simp only [put, h, if_false, keys_cons, List.mem_cons, ih]
      grind

theorem distinct_nil : Distinct ([] : Entries α) := List.nodup_nil

theorem Distinct.put {m : Entries α} (h : m.Distinct) (k : String) (a : α) :
    (m.put k a).Distinct := by
  unfold Distinct at *
  induction m with
  | nil => simp [Entries.put]
  | cons e m ih =>
    obtain ⟨he, hm⟩ := List.nodup_cons.1 h
    by_cases hk : e.1 = k
    · simpa [Entries.put, hk] using ⟨hk ▸ he, hm⟩
    · simp only [Entries.put, hk, if_false, keys_cons, List.nodup_cons]
      exact ⟨fun hc => (mem_keys_put.1 hc).elim hk he, ih hm⟩

theorem keys_erase (m : Entries α) (k : String) : (m.erase k).keys = m.keys.filter (· ≠ k) := by
  induction m with
  | nil => rfl
  | cons e m ih =>
    by_cases h : e.1 = k
    · simpa [erase, h, keys] using ih
    · simpa [erase, h, keys] using ih

theorem erase_append (m n : Entries α) (k : String) : erase (m ++ n) k = m.erase k ++ n.erase k :=
  List.filter_append m n

theorem erase_of_not_mem {m : Entries α} {k : String} (h : k ∉ m.keys) : m.erase k = m := by
  apply List.filter_eq_self.2
  intro e he
  have hne : e.1 ≠ k := fun heq => h (heq ▸ List.mem_map_of_mem he)
  simpa using hne

theorem Distinct.erase {m : Entries α} (h : m.Distinct) (k : String) : (m.erase k).Distinct := by
  unfold Distinct at *
  rw [keys_erase]
  exact h.filter _

@[simp] theorem keys_mapValues (f : α → β) (m : Entries α) : (m.mapValues f).keys = m.keys := by
  simp [keys, mapValues]

theorem values_mapValues (f : α → β) (m : Entries α) : (m.mapValues f).values = m.values.map f := by
  simp [values, mapValues]

end Entries
end SchemaContext
