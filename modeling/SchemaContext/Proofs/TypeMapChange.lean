import SchemaContext.Proofs.Reading

/-!
# Schemas with another type map

References point to the definitions of a schema, not to its type map. A schema whose
type map is exchanged still reads the directives of every element as before. Of what
else a build looks up, only two things come from the type map: the types that implement
an interface, and the types that the fragments of documents name. Where these stay, every
record stays, and documents select the same types.
-/

namespace SchemaContext

def Schema.withTypeMap (s : Schema) (m : TypeMap) : Schema := { s with typeMap := m }

theorem Schema.readsAs_withTypeMap (s : Schema) (m : TypeMap) : s.ReadsAs (s.withTypeMap m) :=
  ⟨rfl, fun _ => rfl⟩

theorem Schema.usesDirectives_withTypeMap (s : Schema) (m : TypeMap) (entries : List Entry) :
    (s.withTypeMap m).usesDirectives entries = s.usesDirectives entries :=
  Carrier.anyApplied_congr (List.forall₂_same.2 fun c _ => (s.readsAs_withTypeMap m).applied_eq c)

section Conditions

mutual

def Selection.conditions : Selection → List String
  | .field _ selections => selectionsConditions selections
  | .spread _ => []
  | .inline on selections => on.toList ++ selectionsConditions selections

def selectionsConditions : List Selection → List String
  | [] => []
  | selection :: rest => selection.conditions ++ selectionsConditions rest

end

def Definition.conditions : Definition → List String
  | operation _ selections _ => selectionsConditions selections
  | fragment _ on selections => on :: selectionsConditions selections

def Document.conditions (d : Document) : List String := d.definitions.flatMap Definition.conditions

end Conditions

section Documents

variable {s : Schema} {m : TypeMap}

mutual

theorem Selection.fieldTypes_withTypeMap (current : Option NamedType) :
    (x : Selection) → (∀ n ∈ x.conditions, (s.withTypeMap m).condition? n = s.condition? n) →
      x.fieldTypes (s.withTypeMap m) current = x.fieldTypes s current
  | .field name selections, h => by
    rw [Selection.conditions] at h
    have htype : (s.withTypeMap m).fieldType? current name = s.fieldType? current name := rfl
    simp only [Selection.fieldTypes, htype, selectionsFieldTypes_withTypeMap _ selections h]
  | .spread _, _ => by simp [Selection.fieldTypes]
  | .inline none selections, h => by
    rw [Selection.conditions] at h
    exact selectionsFieldTypes_withTypeMap current selections h
  | .inline (some name) selections, h => by
    rw [Selection.conditions, Option.toList_some, List.singleton_append, List.forall_mem_cons] at h
    simp only [Selection.fieldTypes, h.1, selectionsFieldTypes_withTypeMap _ selections h.2]

theorem selectionsFieldTypes_withTypeMap (current : Option NamedType) :
    (xs : List Selection) →
      (∀ n ∈ selectionsConditions xs, (s.withTypeMap m).condition? n = s.condition? n) →
      selectionsFieldTypes (s.withTypeMap m) current xs = selectionsFieldTypes s current xs
  | [], _ => by simp [selectionsFieldTypes]
  | x :: rest, h => by
    rw [selectionsConditions, List.forall_mem_append] at h
    simp only [selectionsFieldTypes, Selection.fieldTypes_withTypeMap current x h.1,
      selectionsFieldTypes_withTypeMap current rest h.2]

end

theorem Document.fieldTypes_withTypeMap {d : Document}
    (h : ∀ n ∈ d.conditions, (s.withTypeMap m).condition? n = s.condition? n) :
    d.fieldTypes (s.withTypeMap m) = d.fieldTypes s := by
  unfold fieldTypes
  apply List.flatMap_congr
  intro x hx
  have hinside : ∀ n ∈ x.conditions, (s.withTypeMap m).condition? n = s.condition? n :=
    fun n hn => h n (List.mem_flatMap.2 ⟨x, hx, hn⟩)
  cases x with
  | operation kind selections _ => exact selectionsFieldTypes_withTypeMap _ selections hinside
  | fragment name on selections =>
    rw [Definition.conditions, List.forall_mem_cons] at hinside
    simp only [Definition.fieldTypes, hinside.1,
      selectionsFieldTypes_withTypeMap _ selections hinside.2]

theorem introspectionEnums_withTypeMap {documents : List Document}
    (h : ∀ d ∈ documents, ∀ n ∈ d.conditions, (s.withTypeMap m).condition? n = s.condition? n) :
    introspectionEnums (s.withTypeMap m) documents = introspectionEnums s documents := by
  have htypes : documents.flatMap (Document.fieldTypes (s.withTypeMap m)) =
      documents.flatMap (Document.fieldTypes s) :=
    List.flatMap_congr fun d hd => Document.fieldTypes_withTypeMap (h d hd)
  rw [introspectionEnums, htypes, introspectionEnums]

end Documents

section Assembly

variable {s : Schema} {m : TypeMap}

theorem dispatched_withTypeMap
    (h : ∀ n, (s.withTypeMap m).implementingTypes n = s.implementingTypes n) :
    dispatched .records (s.withTypeMap m) = dispatched .records s := by
  funext e
  have hreads := s.readsAs_withTypeMap m
  have hrecord (t : NamedType) : Record.ofType (s.withTypeMap m) t = Record.ofType s t :=
    hreads.ofType_eq rfl rfl rfl (hreads.applied_eq _) fun _ => h t.name
  simp only [dispatched, Transformers.records, hrecord]

/-- Where interfaces are implemented by the same types, so is every context the same. -/
theorem assembled_withTypeMap
    (h : ∀ n, (s.withTypeMap m).implementingTypes n = s.implementingTypes n)
    (kept : Entries Entry) (directives : List DirectiveDefinition) :
    assembled .records (s.withTypeMap m) kept directives =
      (fun c => c.withSchema (s.withTypeMap m)) <$> assembled .records s kept directives := by
  have hreads := s.readsAs_withTypeMap m
  apply assembled_congr
  · rw [dispatched_withTypeMap h]
  · rw [hreads.ofDirectives_eq]
  · rw [s.usesDirectives_withTypeMap m]
  · exact hreads.applied_eq s.carrier

end Assembly
end SchemaContext
