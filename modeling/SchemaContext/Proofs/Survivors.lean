import SchemaContext.Document.Introspection
import SchemaContext.Proofs.Success

/-!
# Survivors

The entries of a type map that reach a context. An entry survives by its key alone: the
key is the name of an introspection enum that the documents need, or one of the forced
types, or it is neither the name of a primitive scalar nor reserved. Filtering by an
allow list made of the two sources of names keeps exactly these.
-/

namespace SchemaContext

theorem Value.hashable_eq_ok_iff {v w : Value} :
    v.hashable = .ok w ↔ v.unhashable? = none ∧ v = w := by
  unfold hashable
  cases h : v.unhashable? with
  | some sort => simp
  | none => simp

theorem Value.text?_eq_some_iff {v : Value} {n : String} : v.text? = some n ↔ v = .str n := by
  cases v <;> simp [text?]

theorem allowedNames_eq_ok_iff {items : List Value} {allowed : List String} :
    allowedNames items = .ok allowed ↔
      (∀ v ∈ items, v.unhashable? = none) ∧ items.filterMap Value.text? = allowed := by
  unfold allowedNames
  rw [bind_eq_ok_iff]
  simp only [mapM_eq_ok_iff, Value.hashable_eq_ok_iff, List.forall₂_and_left]
  constructor
  · rintro ⟨same, ⟨hall, heq⟩, h⟩
    rw [List.forall₂_eq_eq_eq] at heq
    subst heq
    exact ⟨hall, Except.ok.inj h⟩
  · rintro ⟨hall, h⟩
    exact ⟨items, ⟨hall, by rw [List.forall₂_eq_eq_eq]⟩, congrArg _ h⟩

theorem mem_allowed_iff {items : List Value} {n : String} :
    n ∈ items.filterMap Value.text? ↔ .str n ∈ items := by
  simp [List.mem_filterMap, Value.text?_eq_some_iff]

theorem survives_iff {allowed : List String} {n : String} :
    survives allowed n = true ↔
      n ∈ allowed ∨ (n ∉ primitiveNames ∧ ¬ reservedStart.toList <+: n.toList) := by
  simp [survives, isPrimitiveName, isReservedName, ← List.isPrefixOf_iff_prefix]

namespace Schema

variable {s : Schema} {documents : List Document} {forced : List Value}

/-- Whether the entry under a key reaches the context. -/
def Survives (s : Schema) (documents : List Document) (forced : List Value) (key : String) : Prop :=
  key ∈ (introspectionEnums s documents).map NamedType.name ∨ .str key ∈ forced ∨
    (key ∉ primitiveNames ∧ ¬ reservedStart.toList <+: key.toList)

instance (s : Schema) (documents : List Document) (forced : List Value) :
    DecidablePred (s.Survives documents forced) := fun key =>
  have : Decidable (Value.str key ∈ forced) := decidable_of_iff _ mem_allowed_iff
  inferInstanceAs (Decidable (_ ∨ _ ∨ _))

def survivors (s : Schema) (documents : List Document) (forced : List Value) : Entries Entry :=
  s.typeMap.entries.filter fun e => s.Survives documents forced e.1

theorem mem_survivors {e : String × Entry} :
    e ∈ s.survivors documents forced ↔
      e ∈ s.typeMap.entries ∧ s.Survives documents forced e.1 := by
  simp [survivors]

/-- The allow list of introspection enums and forced types keeps the survivors. -/
theorem filterTypes_eq_survivors {allowed : List String}
    (h : allowedNames ((introspectionEnums s documents).map (fun t => .str t.name) ++ forced)
      = .ok allowed) :
    filterTypes allowed s.typeMap.entries = s.survivors documents forced := by
  obtain ⟨-, rfl⟩ := allowedNames_eq_ok_iff.1 h
  apply List.filter_congr
  intro e _
  rw [Bool.eq_iff_iff, survives_iff, decide_eq_true_iff, mem_allowed_iff, Survives]
  simp [or_assoc]

theorem survivors_keys_nodup : (s.survivors documents forced).keys.Nodup :=
  s.typeMap.distinct.sublist (List.filter_sublist.map Prod.fst)

end Schema
end SchemaContext
