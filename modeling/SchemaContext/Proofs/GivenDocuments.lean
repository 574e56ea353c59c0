import SchemaContext.Document.Given
import SchemaContext.Proofs.Success

/-!
# Documents that can be walked

A call gives documents that can all be walked if each item is a document and the types of
its variables can be made. Whether this is so depends on the schema by the foreign objects
in its type map alone.
-/

namespace SchemaContext

namespace GivenDocument

variable {s : Schema} {x : GivenDocument} {d : Document}

theorem walked_eq_ok_iff :
    x.walked s = .ok d ↔ x = document d ∧ d.variableTypes.findSome? s.variableFault? = none := by
  cases x with
  | other shown => simp [walked]
  | document d' =>
    rw [walked, Document.walked]
    cases h : d'.variableTypes.findSome? s.variableFault? with
    | some f =>
      simp only [reduceCtorEq, document.injEq, false_iff, not_and]
      rintro rfl
      simp [h]
    | none =>
      simp only [Except.ok.injEq, document.injEq, iff_self_and]
      rintro rfl
      exact h

theorem eq_of_mapM_walked {given : List GivenDocument} {ds : List Document}
    (h : given.mapM (walked s) = .ok ds) : given = ds.map document := by
  rw [mapM_eq_ok_iff] at h
  induction h with
  | nil => rfl
  | cons hd _ ih => rw [List.map_cons, (walked_eq_ok_iff.1 hd).1, ih]

end GivenDocument

namespace Documents

/-- The documents that a call gives, if it gives documents only and all of them can be walked. -/
def walked (s : Schema) (d : Documents) : Except Failure (List Document) := do
  (← d.listed).mapM (GivenDocument.walked s)

@[simp] theorem parsed_map_document (ds : List Document) :
    (items (ds.map .document)).parsed = ds := by
  rw [parsed, List.filterMap_map]
  exact List.filterMap_some

theorem mapM_walked_eq_ok_iff {s : Schema} {given : List GivenDocument} {ds : List Document} :
    given.mapM (GivenDocument.walked s) = .ok ds ↔
      given = ds.map .document ∧
        ∀ d ∈ ds, d.variableTypes.findSome? s.variableFault? = none := by
  constructor
  · intro h
    refine ⟨GivenDocument.eq_of_mapM_walked h, fun d hd => ?_⟩
    obtain ⟨x, -, hx⟩ := exists_mem_of_forall₂ (mapM_eq_ok_iff.1 h) hd
    exact (GivenDocument.walked_eq_ok_iff.1 hx).2
  · rintro ⟨rfl, hall⟩
    refine mapM_eq_ok_iff.2 (List.forall₂_map_left_iff.2 (List.forall₂_same.2 fun d hd => ?_))
    exact GivenDocument.walked_eq_ok_iff.2 ⟨rfl, hall d hd⟩

/-- A call's documents can be walked if it gives documents only, none of which has a variable whose
type cannot be made. -/
theorem walked_eq_ok_iff {s : Schema} {d : Documents} {ds : List Document} :
    d.walked s = .ok ds ↔
      d = items (ds.map .document) ∧
        ∀ d ∈ ds, d.variableTypes.findSome? s.variableFault? = none := by
  rw [walked, bind_eq_ok_iff]
  simp only [mapM_walked_eq_ok_iff]
  constructor
  · rintro ⟨given, hlisted, rfl, hall⟩
    refine ⟨?_, hall⟩
    cases d with
    | items given' => rw [Except.ok.inj hlisted]
    | notIterable sort => cases hlisted
    | broken text => cases hlisted
  · rintro ⟨rfl, hall⟩
    exact ⟨_, rfl, rfl, hall⟩

theorem walked_of_types {s : Schema} (h : ∀ e ∈ s.typeMap.entries, ∃ t, e.2 = .type t)
    (ds : List Document) : (items (ds.map .document)).walked s = .ok ds := by
  have hwrap (n : String) (required : Bool) :
      (s.typeMap.get? n).bind (Entry.wrapFault? required) = none := by
    rw [Option.bind_eq_none_iff]
    intro e he
    obtain ⟨t, rfl⟩ := h (n, e) (Entries.mem_of_get? he)
    rfl
  have hfault (t : TypeRef) : s.variableFault? t = none := by
    fun_induction s.variableFault? t with
    | case1 n => exact hwrap n true
    | case2 n required hrequired => rfl
    | case3 n required => exact hwrap n false
    | case4 item required hitem ih => exact ih
  refine walked_eq_ok_iff.2 ⟨rfl, fun d _ => ?_⟩
  exact List.findSome?_eq_none_iff.2 fun t _ => hfault t

theorem parsed_of_walked {s : Schema} {d : Documents} {ds : List Document}
    (h : d.walked s = .ok ds) : d.parsed = ds := by
  rw [(walked_eq_ok_iff.1 h).1, parsed_map_document]

end Documents

/-- Whether the type of a variable can be made depends on what stands in the type map under its
name. -/
theorem Schema.variableFault?_congr {s s' : Schema} {t : TypeRef}
    (h : ∀ required, (s'.typeMap.get? t.name).bind (Entry.wrapFault? required) =
      (s.typeMap.get? t.name).bind (Entry.wrapFault? required)) :
    s'.variableFault? t = s.variableFault? t := by
  fun_induction s.variableFault? t with
  | case1 n =>
    rw [variableFault?, if_pos rfl]
    exact h true
  | case2 n required hrequired => rw [variableFault?, if_neg hrequired]
  | case3 n required =>
    rw [variableFault?]
    exact h false
  | case4 item required hitem ih =>
    rw [variableFault?, ih h]
    exact hitem

theorem Schema.variableFault?_of_unknown {s : Schema} {t : TypeRef}
    (h : s.typeMap.get? t.name = none) : s.variableFault? t = none := by
  fun_induction s.variableFault? t with
  | case1 n =>
    rw [TypeRef.name] at h
    rw [h, Option.bind_none]
  | case2 n required hrequired => rfl
  | case3 n required =>
    rw [TypeRef.name, TypeRef.name] at h
    rw [h, Option.bind_none]
  | case4 item required hitem ih => exact ih h

theorem Documents.walked_congr {s s' : Schema} {d : Documents}
    (h : ∀ x ∈ d.parsed, ∀ t ∈ x.variableTypes, s'.variableFault? t = s.variableFault? t) :
    d.walked s' = d.walked s := by
  refine bind_congr_of_ok fun given hlisted => ?_
  obtain rfl : d = items given := by
    cases d with
    | items given' => rw [Except.ok.inj hlisted]
    | notIterable sort => cases hlisted
    | broken text => cases hlisted
  refine mapM_eq_of_forall₂ (List.forall₂_same.2 fun x hx => ?_)
  cases x with
  | other shown => rfl
  | document x =>
    have hparsed : x ∈ (items given).parsed := List.mem_filterMap.2 ⟨_, hx, rfl⟩
    have hfault : x.variableTypes.findSome? s'.variableFault? =
        x.variableTypes.findSome? s.variableFault? := by
      rw [← List.head?_filterMap, List.filterMap_congr (h x hparsed), List.head?_filterMap]
    rw [GivenDocument.walked, Document.walked, GivenDocument.walked, Document.walked, hfault]

theorem Documents.walked_alike {s : Schema} {ds ds' : List Document}
    (h : List.Forall₂ (fun d d' => d'.variableTypes = d.variableTypes) ds ds') (c : γ) :
    (fun _ => c) <$> (items (ds'.map .document)).walked s =
      (fun _ => c) <$> (items (ds.map .document)).walked s := by
  have hwalked (ds : List Document) : (items (ds.map .document)).walked s =
      ds.mapM (Document.walked s) := by
    refine Eq.trans ?_ (mapM_map_eq (h := GivenDocument.document) (f := GivenDocument.walked s)
      fun d _ => rfl)
    rfl
  rw [hwalked, hwalked]
  induction h with
  | nil => rfl
  | @cons d d' ds ds' hd _ ih =>
    rw [List.mapM_cons, List.mapM_cons, Document.walked, Document.walked, hd]
    cases d.variableTypes.findSome? s.variableFault? with
    | some f => rfl
    | none =>
      have hcons (x : Document) (y : Except Failure (List Document)) :
          (fun _ => c) <$> (do
            let a ← Except.ok x
            let as ← y
            pure (a :: as)) = (fun _ => c) <$> y := by
        cases y <;> rfl
      exact (hcons d' _).trans (ih.trans (hcons d _).symm)

end SchemaContext
