import SchemaContext.Value.Plain

/-!
# Values inside values

A value occurs in another at any depth, through records, other objects, sequences and the
values of mappings, but not as a key. Plain data is made part by part: whatever occurs in
a value occurs in its plain data as plain data, and plain data can be made of a value exactly
if every record that occurs in it has what its derived entries tell of. A value in which
nothing is left to be turned into plain data stands for itself.
-/

namespace SchemaContext

namespace Value

/-- The values that a value is made of; keys are no parts. -/
def parts : Value → List Value
  | list items | tuple items => items
  | dict entries | frozen entries => entries.map Prod.snd
  | record _ fields | object _ fields => Entries.values fields
  | _ => []

/-- An occurrence of a value inside another one, or the other value itself. -/
inductive Occurs : Value → Value → Prop
  | here {v : Value} : Occurs v v
  | inside {v part whole : Value} (mem : part ∈ whole.parts) (occurs : Occurs v part) :
      Occurs v whole

theorem forall_occurs_iff {p : Value → Prop} {v : Value} :
    (∀ w : Value, w.Occurs v → p w) ↔ p v ∧ ∀ part ∈ v.parts, ∀ w : Value, w.Occurs part → p w := by
  constructor
  · intro h
    exact ⟨h v .here, fun part hpart w hw => h w (.inside hpart hw)⟩
  · rintro ⟨hhere, hparts⟩ w hw
    obtain _ | ⟨hmem, hoccurs⟩ := hw
    · exact hhere
    · exact hparts _ hmem w hoccurs

theorem sizeOf_lt_of_mem_snd {α : Type} [SizeOf α] {entries : List (α × Value)} {w : Value}
    (h : w ∈ entries.map Prod.snd) : sizeOf w < sizeOf entries := by
  obtain ⟨e, he, rfl⟩ := List.mem_map.1 h
  have hentry : sizeOf e < sizeOf entries := List.sizeOf_lt_of_mem he
  have hvalue : sizeOf e.2 < sizeOf e := by
    obtain ⟨k, v⟩ := e
    simp only [Prod.mk.sizeOf_spec]
    omega
  omega

theorem sizeOf_lt_of_mem_parts {v w : Value} (h : w ∈ v.parts) : sizeOf w < sizeOf v := by
  cases v with
  | list items | tuple items =>
    have hitem : sizeOf w < sizeOf items := List.sizeOf_lt_of_mem h
    simp only [list.sizeOf_spec, tuple.sizeOf_spec]
    omega
  | dict entries | frozen entries =>
    have hvalue : sizeOf w < sizeOf entries := sizeOf_lt_of_mem_snd h
    simp only [dict.sizeOf_spec, frozen.sizeOf_spec]
    omega
  | record cls fields | object cls fields =>
    have hvalue : sizeOf w < sizeOf fields := sizeOf_lt_of_mem_snd h
    simp only [record.sizeOf_spec, object.sizeOf_spec]
    omega
  | _ => cases h

/-- What holds of a value as soon as it holds of its parts holds of every value. -/
@[elab_as_elim]
theorem partsInduction {motive : Value → Prop}
    (step : ∀ v, (∀ w ∈ v.parts, motive w) → motive v) (v : Value) : motive v :=
  step v fun w _ => partsInduction step w
termination_by sizeOf v
decreasing_by exact sizeOf_lt_of_mem_parts ‹_›

theorem parts_ofEntries (m : Entries Value) : (ofEntries m).parts = m.values := by
  simp [ofEntries, Mapping.ofEntries, parts, Entries.values]

theorem derivedEntries_keys (cls : RecordClass) (fields : Entries Value) :
    (derivedEntries cls fields).keys = cls.derived.map Prod.fst := by
  simp [derivedEntries, Entries.keys]

def derivedParts : Value → List Value
  | record cls fields => (derivedEntries cls fields).values
  | _ => []

theorem parts_toPlain (v : Value) : v.toPlain.parts = v.parts.map toPlain ++ v.derivedParts := by
  cases v with
  | list items => simp [parts, toPlain, derivedParts]
  | tuple items => simp [parts, toPlain, derivedParts]
  | dict entries => simp [parts, toPlain, derivedParts]
  | frozen entries => simp [parts, toPlain, derivedParts]
  | record cls fields =>
    rw [toPlain, parts_ofEntries, toPlainFields_eq_mapValues, Entries.values, List.map_append,
      ← Entries.values, Entries.values_mapValues]
    rfl
  | object cls fields =>
    rw [toPlain, parts_ofEntries, toPlainFields_eq_mapValues, Entries.values_mapValues]
    exact (List.append_nil _).symm
  | _ => rfl

/-- What occurs in a value occurs in its plain data as plain data. -/
theorem Occurs.toPlain {v w : Value} (h : w.Occurs v) : w.toPlain.Occurs v.toPlain := by
  induction h with
  | here => exact .here
  | inside mem _ ih =>
    refine .inside ?_ ih
    rw [parts_toPlain]
    exact List.mem_append_left _ (List.mem_map_of_mem mem)

theorem length?_toPlain {v : Value} {n : Nat} (h : v.length? = some n) :
    v.toPlain.length? = some n := by
  rw [← h]
  cases v with
  | record cls fields => cases h
  | object cls fields => cases h
  | _ => simp [length?, elements?, toPlain]

section Plain

def isPlainSort : Value → Bool
  | tuple _ | frozen _ | record _ _ | object _ _ => false
  | _ => true

/-- No tuple, read-only mapping, record or other object occurs in a value, at any depth. -/
def IsPlain (v : Value) : Prop := ∀ w : Value, w.Occurs v → w.isPlainSort = true

theorem isPlainSort_toPlain (v : Value) : v.toPlain.isPlainSort = true := by
  cases v <;> simp [toPlain, ofEntries, isPlainSort]

theorem IsPlain.toPlain_eq {v : Value} (h : v.IsPlain) : v.toPlain = v := by
  induction v using partsInduction with
  | step v ih =>
    obtain ⟨hsort, hinside⟩ := forall_occurs_iff.1 h
    have hparts : ∀ w ∈ v.parts, w.toPlain = w := fun w hw => ih w hw (hinside w hw)
    cases v with
    | list items =>
      have hitems : items.map toPlain = items := (List.map_congr_left hparts).trans (List.map_id _)
      rw [toPlain, toPlainItems_eq_map, hitems]
    | dict entries =>
      have hentries : (entries.map fun e => (e.1, e.2.toPlain)) = entries := by
        refine (List.map_congr_left fun e he => ?_).trans (List.map_id _)
        rw [hparts e.2 (List.mem_map_of_mem he)]
        rfl
      rw [toPlain, toPlainEntries_eq_map, hentries]
    | tuple items | frozen entries | record cls fields | object cls fields => cases hsort
    | _ => rfl

end Plain

section Lengths

/-- Each record in a value has, in every field that a derived entry tells of, something that has a
length. -/
def Sized (v : Value) : Prop :=
  ∀ cls fields, (record cls fields).Occurs v → ∀ d ∈ RecordClass.derived cls, ∀ w,
    Entries.get? fields d.2 = some w → w.length?.isSome

/-- The sort of the first field of a record that is asked for its length in vain. -/
def lengthlessSelf? : Value → Option String
  | record cls fields => lengthlessDerived? cls fields
  | _ => none

theorem lengthlessItems?_eq (items : List Value) :
    lengthlessItems? items = items.findSome? lengthless? := by
  induction items with
  | nil => rfl
  | cons v items ih =>
    rw [lengthlessItems?, List.findSome?_cons, ih]
    cases lengthless? v <;> rfl

theorem lengthlessEntries?_eq (entries : Mapping) :
    lengthlessEntries? entries = (entries.map Prod.snd).findSome? lengthless? := by
  induction entries with
  | nil => rfl
  | cons e entries ih =>
    rw [lengthlessEntries?, List.map_cons, List.findSome?_cons, ih]
    cases lengthless? e.2 <;> rfl

theorem lengthlessFields?_eq (fields : Entries Value) :
    lengthlessFields? fields = fields.values.findSome? lengthless? := by
  induction fields with
  | nil => rfl
  | cons e fields ih =>
    rw [lengthlessFields?, Entries.values, List.map_cons, List.findSome?_cons, ih]
    cases lengthless? e.2 <;> rfl

theorem lengthless?_eq (v : Value) :
    v.lengthless? = (v.parts.findSome? lengthless?).or v.lengthlessSelf? := by
  cases v with
  | record cls fields => rw [lengthless?, lengthlessFields?_eq, parts, lengthlessSelf?]
  | object cls fields => exact (lengthlessFields?_eq fields).trans (Option.or_none).symm
  | dict entries => exact (lengthlessEntries?_eq entries).trans (Option.or_none).symm
  | frozen entries => exact (lengthlessEntries?_eq entries).trans (Option.or_none).symm
  | list items => exact (lengthlessItems?_eq items).trans (Option.or_none).symm
  | tuple items => exact (lengthlessItems?_eq items).trans (Option.or_none).symm
  | _ => rfl

theorem lengthless?_eq_none_iff {v : Value} :
    v.lengthless? = none ↔ (∀ w ∈ v.parts, w.lengthless? = none) ∧ v.lengthlessSelf? = none := by
  rw [lengthless?_eq, Option.or_eq_none_iff, List.findSome?_eq_none_iff]

theorem Occurs.lengthless? {v w : Value} (h : w.Occurs v) (hv : v.lengthless? = none) :
    w.lengthless? = none := by
  induction h with
  | here => exact hv
  | inside mem _ ih => exact ih ((lengthless?_eq_none_iff.1 hv).1 _ mem)

theorem lengthlessDerived?_eq_none_iff {cls : RecordClass} {fields : Entries Value} :
    lengthlessDerived? cls fields = none ↔
      ∀ d ∈ cls.derived, ∀ w, fields.get? d.2 = some w → w.length?.isSome := by
  rw [lengthlessDerived?, List.findSome?_eq_none_iff]
  refine forall₂_congr fun d _ => ?_
  cases fields.get? d.2 <;> simp [Option.isSome_iff_ne_none]

/-- Nothing is asked for its length in vain exactly if the records have what they tell of. -/
theorem lengthless?_eq_none_iff_sized {v : Value} : v.lengthless? = none ↔ v.Sized := by
  constructor
  · intro h cls fields hoccurs
    exact lengthlessDerived?_eq_none_iff.1 (lengthless?_eq_none_iff.1 (hoccurs.lengthless? h)).2
  · intro h
    induction v using partsInduction with
    | step v ih =>
      refine lengthless?_eq_none_iff.2 ⟨fun w hw => ih w hw fun cls fields hoccurs => ?_, ?_⟩
      · exact h cls fields (.inside hw hoccurs)
      · cases v with
        | record cls fields => exact lengthlessDerived?_eq_none_iff.2 (h cls fields .here)
        | _ => rfl

theorem IsPlain.sized {v : Value} (h : v.IsPlain) : v.Sized := by
  intro cls fields hoccurs
  have hsort := h _ hoccurs
  cases hsort

end Lengths

end Value
end SchemaContext
