import SchemaContext.Proofs.TypeRemoval

/-!
# Interfaces and the types that implement them

An object type says which interfaces it declares, and the record of an interface says
which object types declare it. The two are found in different places, in the type itself
and by a search through the type map, filtered types included. Where types stand under
their own names, they say the same.
-/

namespace SchemaContext

section Declared

variable {s : Schema} {i o : NamedType} {n : String}

theorem NamedType.implements_iff :
    o.implements n = true ↔ o.kind = .object ∧ n ∈ o.body.interfaces := by
  rw [implements, Bool.and_eq_true, TypeBody.isObject_iff, List.contains_iff_mem]
  rfl

theorem Entries.Named.names_sublist {es : Entries Entry} (hown : es.Named) :
    (es.types.map NamedType.name).Sublist es.keys := by
  induction es with
  | nil => exact List.Sublist.slnil
  | cons e es ih =>
    have hrest := ih fun e' he' => hown e' (List.mem_cons_of_mem _ he')
    obtain ⟨key, entry⟩ := e
    cases entry with
    | type t =>
      obtain rfl : t.name = key := hown _ List.mem_cons_self t rfl
      exact hrest.cons_cons _
    | foreign x => exact hrest.cons _

namespace Schema

/-- A type of the type map is among the implementing types by what it says of itself. -/
theorem mem_implementingTypes_iff (hown : s.typeMap.entries.Named)
    (ho : o ∈ s.typeMap.entries.types) :
    o.name ∈ s.implementingTypes n ↔ o.kind = .object ∧ n ∈ o.body.interfaces := by
  rw [implementingTypes_eq_map, ← NamedType.implements_iff]
  constructor
  · intro h
    obtain ⟨u, hu, hname⟩ := List.mem_map.1 h
    obtain ⟨hu, himplements⟩ := List.mem_filter.1 hu
    rwa [TypeMap.eq_of_name hown ho hu hname] at himplements
  · exact fun himplements => List.mem_map_of_mem (List.mem_filter.2 ⟨ho, himplements⟩)

theorem implementingTypes_sublist (hown : s.typeMap.entries.Named) :
    (s.implementingTypes n).Sublist s.typeMap.keys := by
  rw [implementingTypes_eq_map]
  exact (List.filter_sublist.map NamedType.name).trans hown.names_sublist

theorem object_of_mem_implementingTypes (hown : s.typeMap.entries.Named) {e : String × Entry}
    (he : e ∈ s.typeMap.entries) (h : e.1 ∈ s.implementingTypes n) :
    ∃ o, e.2 = .type o ∧ o.kind = .object := by
  rw [implementingTypes_eq_map] at h
  obtain ⟨u, hu, hname⟩ := List.mem_map.1 h
  obtain ⟨hu, himplements⟩ := List.mem_filter.1 hu
  obtain ⟨e', he', htype⟩ := Entries.mem_types.1 hu
  have hkey : e'.1 = e.1 := by rw [← hown e' he' u htype, hname]
  obtain rfl : e' = e := s.typeMap.distinct.eq_of_key he' he hkey
  exact ⟨u, htype, (NamedType.implements_iff.1 himplements).1⟩

end Schema

namespace Record.Describes

variable {x : Record}

theorem exists_interface (h : x.Describes s i) (hkind : i.kind = .interface) :
    ∃ r, x = .interface r ∧ r.name = i.name ∧ r.implementingTypes = s.implementingTypes i.name := by
  cases h with
  | interface body name _ _ implementing _ => exact ⟨_, rfl, name, implementing⟩
  | _ body => simp [NamedType.kind, TypeBody.kind, body] at hkind

/-- Object types and input objects have records of one class; it tells what an interface is told. -/
theorem exists_type (hown : s.typeMap.entries.Named) (ho : o ∈ s.typeMap.entries.types)
    (h : x.Describes s o) (hkind : o.kind = .object ∨ o.kind = .inputObject) :
    ∃ r, x = .type r ∧ r.name = o.name ∧
      ∀ n, o.name ∈ s.implementingTypes n ↔ n ∈ r.interfaces := by
  simp only [Schema.mem_implementingTypes_iff hown ho]
  cases h with
  | object body name _ _ _ _ =>
    refine ⟨_, rfl, name, fun n => ?_⟩
    simp [NamedType.kind, TypeBody.kind, TypeBody.interfaces, body]
  | inputObject body name _ _ interfaces _ _ =>
    exact ⟨_, rfl, name, fun n => by simp [NamedType.kind, TypeBody.kind, interfaces, body]⟩
  | _ body => simp [NamedType.kind, TypeBody.kind, body] at hkind

end Record.Describes

end Declared

/-- The record of an interface names an object type of the type map, whether that survives or not,
exactly if the record of the object type names the interface. It names no type twice, however often
a type declares the interface, it names them in the order of the type map, and under no other name
than that of an object type. So the interface records and the type records of a context that a build
returns say the same about each other. -/
theorem implementing_types_are_those_that_declare :
    (∀ {s : Schema} {i : NamedType} {x : Record}, s.typeMap.entries.Named → i.kind = .interface →
      Record.ofType s i = .ok x →
      ∃ r, x = .interface r ∧
        (∀ key o y, (key, Entry.type o) ∈ s.typeMap.entries → o.kind = .object →
          Record.ofType s o = .ok y →
          ∃ q, y = .type q ∧ (o.name ∈ r.implementingTypes ↔ i.name ∈ q.interfaces)) ∧
        r.implementingTypes.Nodup ∧ r.implementingTypes.Sublist s.typeMap.keys ∧
        ∀ key e, (key, e) ∈ s.typeMap.entries → key ∈ r.implementingTypes →
          ∃ o, e = .type o ∧ o.kind = .object) ∧
    (∀ {r : Request Record} {j : Journal} {s : Schema} {c : Context Record},
      r.transformers = .records → r.source.unwrap = .ok s → s.typeMap.entries.Named →
      ((build r).outcome j).1 = .ok c →
      ∀ x ∈ c.interfaces, ∃ i, x = .interface i ∧
        ∀ y ∈ c.types ++ c.inputTypes, ∃ q, y = .type q ∧
          (q.name ∈ i.implementingTypes ↔ i.name ∈ q.interfaces)) := by
  constructor
  · intro s i x hown hkind hx
    obtain ⟨r, rfl, -, himplementing⟩ := (Record.describes_of_ofType hx).exists_interface hkind
    have hsub : r.implementingTypes.Sublist s.typeMap.keys := by
      rw [himplementing]
      exact Schema.implementingTypes_sublist hown
    refine ⟨r, rfl, ?_, hsub.nodup s.typeMap.distinct, hsub, ?_⟩
    · intro key o y ho hobject hy
      obtain ⟨q, rfl, -, hiff⟩ := (Record.describes_of_ofType hy).exists_type hown
        (Entries.mem_types.2 ⟨_, ho, rfl⟩) (.inl hobject)
      exact ⟨q, rfl, himplementing ▸ hiff i.name⟩
    · intro key e he hkey
      rw [himplementing] at hkey
      exact Schema.object_of_mem_implementingTypes hown he hkey
  · intro r j s c ht hs hown hc x hx
    obtain ⟨settings, s', forced, hr, -, -, hassembles⟩ := build_returns hc
    obtain rfl : s = s' := Except.ok.inj (hs.symm.trans hr.unwrapped)
    rw [ht] at hassembles
    have hmade {k : Kind} {x : Record} (hx : x ∈ c.ofKind k) :
        ∃ t ∈ s.typeMap.entries.types, t.kind = k ∧ x.Describes s t := by
      obtain ⟨t, ht, hrecord⟩ :=
        exists_mem_of_forall₂ (mapM_eq_ok_iff.1 (hassembles.mapM_ofKind hown k)) hx
      obtain ⟨e, he, htype, hkind⟩ := Entries.mem_typesOf.1 (List.mem_filter.1 ht).1
      exact ⟨t, Entries.mem_types.2 ⟨e, he, htype⟩, hkind, Record.describes_of_ofType hrecord⟩
    obtain ⟨i, -, hkind, hdescribes⟩ := hmade (k := .interface) hx
    obtain ⟨ri, rfl, hname, himplementing⟩ := hdescribes.exists_interface hkind
    refine ⟨ri, rfl, fun y hy => ?_⟩
    have htyped : ∃ o ∈ s.typeMap.entries.types, (o.kind = .object ∨ o.kind = .inputObject) ∧
        y.Describes s o := by
      rcases List.mem_append.1 hy with hy | hy
      · obtain ⟨o, ho, hkind, hdescribes⟩ := hmade (k := .object) hy
        exact ⟨o, ho, .inl hkind, hdescribes⟩
      · obtain ⟨o, ho, hkind, hdescribes⟩ := hmade (k := .inputObject) hy
        exact ⟨o, ho, .inr hkind, hdescribes⟩
    obtain ⟨o, ho, hkind, hdescribes⟩ := htyped
    obtain ⟨q, rfl, hqname, hiff⟩ := hdescribes.exists_type hown ho hkind
    refine ⟨q, rfl, ?_⟩
    rw [hqname, himplementing, hname]
    exact hiff i.name

namespace Library

def rental : NamedType := { loan with name := "Rental", body := .interface ["Loan"] [] }

/-- A recording says twice that it can be lent. Its name keeps it out of contexts. -/
def recording : NamedType :=
  { novel with
    name := "__Recording", definition := none, body := .object ["Loan", "Rental", "Loan"] [] }

def rentalSchema : Schema :=
  { lendingSchema with
    typeMap :=
      (lendingSchema.typeMap.put "Rental" (.type rental)).put "__Recording" (.type recording) }

theorem rentalSchema_named : rentalSchema.typeMap.entries.Named :=
  (lendingSchema_named.put rental).put recording

end Library

/-- The recording can be lent and is listed once, though it has no record in the context; that the
novel can be lent is said in both of its lists. An interface is listed nowhere. -/
theorem implementing_types_are_those_that_declare_library :
    (∃ r q, Record.ofType Library.rentalSchema Library.loan = .ok (.interface r) ∧
      Record.ofType Library.rentalSchema Library.recording = .ok (.type q) ∧
      q.interfaces = ["Loan", "Rental", "Loan"] ∧ "__Recording" ∈ r.implementingTypes ∧
      r.implementingTypes.Nodup ∧ r.implementingTypes = ["Novel", "__Recording"]) ∧
    ∃ c i q, ((build (Library.requestOf Library.rentalSchema)).outcome {}).1 = .ok c ∧
      c.types.map Record.name = ["Book", "Novel"] ∧ .interface i ∈ c.interfaces ∧
      .type q ∈ c.types ∧ q.interfaces = [i.name] ∧ q.name ∈ i.implementingTypes := by
  constructor
  · obtain ⟨r, hr, hloan⟩ : ∃ r, Record.ofType Library.rentalSchema Library.loan =
        .ok (.interface r) ∧ r.implementingTypes = ["Novel", "__Recording"] := ⟨_, rfl, rfl⟩
    obtain ⟨q, hq, hinterfaces⟩ : ∃ q, Record.ofType Library.rentalSchema Library.recording =
        .ok (.type q) ∧ q.interfaces = ["Loan", "Rental", "Loan"] := ⟨_, rfl, rfl⟩
    obtain ⟨_, hsame, hiff, hnodup, -⟩ :=
      implementing_types_are_those_that_declare.1 Library.rentalSchema_named rfl hr
    cases hsame
    have hmem : ("__Recording", Entry.type Library.recording) ∈
        Library.rentalSchema.typeMap.entries := by
      simp [Library.rentalSchema, Library.lendingSchema, Library.schema, TypeMap.put, TypeMap.empty,
        Entries.put]
    obtain ⟨_, hsame, hiff⟩ := hiff _ _ _ hmem rfl hq
    cases hsame
    have hdeclares : Library.loan.name ∈ q.interfaces := by
      rw [hinterfaces]
      exact .head _
    exact ⟨r, q, hr, hq, hinterfaces, hiff.2 hdeclares, hnodup, hloan⟩
  · obtain ⟨c, hc, htypes, i, hi, b, q, hq, hinterfaces⟩ : ∃ c,
        ((build (Library.requestOf Library.rentalSchema)).outcome {}).1 = .ok c ∧
          c.types.map Record.name = ["Book", "Novel"] ∧ ∃ i, .interface i ∈ c.interfaces ∧
            ∃ b q, c.types = [b, .type q] ∧ q.interfaces = [i.name] :=
      ⟨_, rfl, rfl, _, .head _, _, _, rfl, rfl⟩
    obtain ⟨_, hsame, hiff⟩ := implementing_types_are_those_that_declare.2 rfl rfl
      Library.rentalSchema_named hc _ hi
    cases hsame
    have hnovel : Record.type q ∈ c.types := by
      rw [hq]
      exact .tail _ (.head _)
    obtain ⟨_, hsame, hiff⟩ := hiff _ (List.mem_append_left _ hnovel)
    cases hsame
    refine ⟨c, i, q, hc, htypes, hi, hnovel, hinterfaces, hiff.2 ?_⟩
    rw [hinterfaces]
    exact .head _

end SchemaContext
