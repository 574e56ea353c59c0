import SchemaContext.Proofs.DocumentEffect
import SchemaContext.Proofs.ForeignTypes

/-!
# Types taken out of a type map

The record of a type depends on nothing else in the type map, but for one thing: an
interface lists the object types that declare it. When a type is taken out of a finished
type map, the references to it stay, and with them all other records; what goes is the
type's own record, its name in the lists of the interfaces that it declares, and its
share in the search for directives.
-/

namespace SchemaContext

def NamedType.implements (t : NamedType) (interface : String) : Bool :=
  t.body.isObject && t.body.interfaces.contains interface

/-- The record without a type among those that implement it, if the type does. -/
def Record.withoutImplementor (t : NamedType) : Record → Record
  | interface r =>
    interface
      { r with
        implementingTypes :=
          if t.implements r.name then r.implementingTypes.filter (· ≠ t.name)
          else r.implementingTypes }
  | type r => type r
  | enum r => enum r
  | union r => union r
  | scalar r => scalar r
  | directive r => directive r

theorem Record.withoutImplementor_name (t : NamedType) (x : Record) :
    (x.withoutImplementor t).name = x.name := by cases x <;> rfl

theorem exists_split_of_nodup {name : α → String} {xs : List α} (h : (xs.map name).Nodup) {x : α}
    (hx : x ∈ xs) : ∃ before after, xs = before ++ x :: after ∧
      (xs.filter fun y => name y ≠ name x) = before ++ after := by
  obtain ⟨before, after, rfl⟩ := List.append_of_mem hx
  have hperm : ((before ++ x :: after).map name).Perm (name x :: (before ++ after).map name) :=
    List.perm_middle.map name
  obtain ⟨hout, -⟩ := List.nodup_cons.1 (hperm.nodup_iff.1 h)
  refine ⟨before, after, rfl, ?_⟩
  have hothers : ∀ y ∈ before ++ after, name y ≠ name x :=
    fun y hy heq => hout (heq ▸ List.mem_map_of_mem hy)
  rw [List.filter_append, List.filter_cons_of_neg (by simp), ← List.filter_append,
    List.filter_eq_self]
  simpa using hothers

theorem Entries.Distinct.eq_of_key {m : Entries α} (h : m.Distinct) {e e' : String × α} (he : e ∈ m)
    (he' : e' ∈ m) (hkey : e.1 = e'.1) : e = e' :=
  List.inj_on_of_nodup_map h he he' hkey

theorem Entries.Named.put {es : Entries Entry} (hown : es.Named) (t : NamedType) :
    (es.put t.name (.type t)).Named := by
  intro e he u hu
  rcases mem_of_mem_put he with rfl | he
  · cases hu
    rfl
  · exact hown e he u hu

section Removal

variable {s : Schema} {key : String} {t : NamedType} {forced : List Value}

theorem TypeMap.eq_of_name {m : TypeMap} (hown : m.entries.Named) {u : NamedType}
    (ht : t ∈ m.entries.types) (hu : u ∈ m.entries.types) (hname : u.name = t.name) : u = t := by
  obtain ⟨e, he, htype⟩ := Entries.mem_types.1 ht
  obtain ⟨e', he', htype'⟩ := Entries.mem_types.1 hu
  have hkeys : e'.1 = e.1 := by rw [← hown e he t htype, ← hown e' he' u htype', hname]
  obtain rfl : e' = e := m.distinct.eq_of_key he' he hkeys
  exact Entry.type.inj (htype'.symm.trans htype)

namespace Schema

theorem implementingTypes_eq_map (s : Schema) (n : String) :
    s.implementingTypes n =
      (s.typeMap.entries.types.filter fun t => t.implements n).map NamedType.name := by
  simp only [implementingTypes, Entries.types, List.filter_filterMap, List.map_filterMap]
  apply List.filterMap_congr
  intro e _
  cases e with
  | type t =>
    rw [Entry.type?, Option.filter_some]
    cases h : t.implements n <;> simp_all [NamedType.implements]
  | foreign x => rfl

/-- Only the interfaces that a type declares are implemented by fewer types without it. -/
theorem implementingTypes_remove (hown : s.typeMap.entries.Named)
    (h : (key, Entry.type t) ∈ s.typeMap.entries) (n : String) :
    (s.edit (.remove key)).implementingTypes n =
      if t.implements n then (s.implementingTypes n).filter (· ≠ t.name)
      else s.implementingTypes n := by
  obtain rfl : t.name = key := hown _ h t rfl
  have htypes : (s.edit (.remove t.name)).typeMap.entries.types =
      s.typeMap.entries.types.filter fun u => u.name ≠ t.name :=
    Entries.types_filter hown fun n => n ≠ t.name
  rw [implementingTypes_eq_map, implementingTypes_eq_map, htypes, List.filter_comm]
  split
  case isTrue => rw [List.filter_map]; rfl
  case isFalse hnot =>
    -- The type is the only one of its name, and it does not declare the interface.
    rw [List.filter_eq_self.2]
    intro u hu
    obtain ⟨hu, himplements⟩ := List.mem_filter.1 hu
    rw [decide_eq_true_eq]
    intro hname
    rw [TypeMap.eq_of_name hown (Entries.mem_types.2 ⟨_, h, rfl⟩) hu hname] at himplements
    exact hnot himplements

theorem readsAs_remove (s : Schema) (key : String) : s.ReadsAs (s.edit (.remove key)) :=
  s.readsAs_withTypeMap _

/-- Without documents an entry survives by its key alone, whatever else there is. -/
theorem survivors_remove (s : Schema) (key : String) (forced : List Value) :
    (s.edit (.remove key)).survivors [] forced =
      (s.survivors [] forced).filter fun e => e.1 ≠ key := by
  have hentries : (s.edit (.remove key)).typeMap.entries =
      s.typeMap.entries.filter fun e => e.1 ≠ key := rfl
  rw [survivors, hentries, List.filter_comm]
  -- Which keys survive is asked of the documents, and there are none.
  rfl

end Schema

theorem Record.ofType_remove (hown : s.typeMap.entries.Named)
    (h : (key, Entry.type t) ∈ s.typeMap.entries) (u : NamedType) :
    Record.ofType (s.edit (.remove key)) u = withoutImplementor t <$> Record.ofType s u := by
  have hreads := s.readsAs_remove key
  unfold Record.ofType
  cases u.body <;>
    simp only [ScalarRecord.ofType, hreads.ofField_eq, hreads.ofInputField_eq,
      hreads.ofEnumValue_eq, hreads.applied_eq, Schema.implementingTypes_remove hown h, map_bind,
      bind_assoc, pure_bind, map_pure, withoutImplementor]

section Contexts

variable {directives : List DirectiveDefinition} {c c' : Context Record}

/-- Each list loses the records of the type's name, and its other records are the same, but for the
name in the lists of interfaces. -/
theorem Assembles.ofKind_remove (hown : s.typeMap.entries.Named)
    (h : (key, Entry.type t) ∈ s.typeMap.entries)
    (hc : Assembles .records s (s.survivors [] forced) directives c)
    (hc' : Assembles .records (s.edit (.remove key))
      ((s.edit (.remove key)).survivors [] forced) directives c') (k : Kind) :
    c'.ofKind k =
      ((c.ofKind k).filter fun x => x.name ≠ key).map (Record.withoutImplementor t) := by
  have hown' : (s.edit (.remove key)).typeMap.entries.Named :=
    fun e he => hown e (List.mem_filter.1 he).1
  have htypes : (s.edit (.remove key)).typeMap.entries.typesOf k =
      (s.typeMap.entries.typesOf k).filter fun u => u.name ≠ key :=
    Entries.typesOf_filter hown (fun n => n ≠ key) k
  have hmade' := hc'.mapM_ofKind hown' k
  have hmade := mapM_eq_ok_iff.1 (hc.mapM_ofKind hown k)
  rw [htypes, List.filter_comm] at hmade'
  have hrecords : List.Forall₂ (fun u x => Record.ofType (s.edit (.remove key)) u = .ok x)
      (((s.typeMap.entries.typesOf k).filter fun u => s.Survives [] forced u.name).filter
        fun u => u.name ≠ key)
      (((c.ofKind k).filter fun x => x.name ≠ key).map (Record.withoutImplementor t)) := by
    refine List.forall₂_map_right_iff.2 ((List.rel_filter ?_ hmade).imp ?_)
    · intro u x hx
      simp only [decide_eq_true_eq, (Record.describes_of_ofType hx).name_eq]
    · intro u x hx
      rw [Record.ofType_remove hown h, hx]
      rfl
  exact Except.ok.inj (hmade'.symm.trans (mapM_eq_ok_iff.2 hrecords))

theorem Schema.mem_survivors_remove (h : (key, Entry.type t) ∈ s.typeMap.entries)
    {e : String × Entry} :
    e ∈ s.survivors [] forced ↔ e ∈ (s.edit (.remove key)).survivors [] forced ∨
      (s.Survives [] forced key ∧ e = (key, .type t)) := by
  rw [survivors_remove, List.mem_filter, decide_eq_true_eq]
  constructor
  · intro he
    by_cases hkey : e.1 = key
    · obtain ⟨hmem, hsurvives⟩ := mem_survivors.1 he
      have heq := s.typeMap.distinct.eq_of_key hmem h hkey
      exact .inr ⟨hkey ▸ hsurvives, heq⟩
    · exact .inl ⟨he, hkey⟩
  · rintro (⟨he, -⟩ | ⟨hsurvives, rfl⟩)
    · exact he
    · exact mem_survivors.2 ⟨h, hsurvives⟩

theorem Assembles.usesDirectives_remove (h : (key, Entry.type t) ∈ s.typeMap.entries)
    (hc : Assembles .records s (s.survivors [] forced) directives c)
    (hc' : Assembles .records (s.edit (.remove key))
      ((s.edit (.remove key)).survivors [] forced) directives c') :
    c.usesDirectives = true ↔ c'.usesDirectives = true ∨
      (s.Survives [] forced key ∧ ∃ x ∈ t.carriers, x.Carries s) := by
  have hcarries (x : Carrier) : x.Carries (s.edit (.remove key)) ↔ x.Carries s := by
    rw [Carrier.Carries, (s.readsAs_remove key).applied_eq, Carrier.Carries]
  have hkept : (∃ x ∈ (s.survivors [] forced).values.flatMap Entry.carriers, x.Carries s) ↔
      (∃ x ∈ ((s.edit (.remove key)).survivors [] forced).values.flatMap Entry.carriers,
        x.Carries s) ∨ (s.Survives [] forced key ∧ ∃ x ∈ t.carriers, x.Carries s) := by
    simp only [exists_carriers_iff, Schema.mem_survivors_remove h, or_and_right, exists_or]
    refine or_congr_right ?_
    simp [Entry.carriers]
  rw [Carrier.anyApplied_eq_ok hc.uses, Carrier.anyApplied_eq_ok hc'.uses,
    exists_carriersWith_iff, exists_carriersWith_iff, hkept]
  simp only [hcarries, or_assoc]
  rfl

theorem Assembles.kind_of_name (hown : s.typeMap.entries.Named)
    (h : (key, Entry.type t) ∈ s.typeMap.entries)
    (hc : Assembles .records s (s.survivors [] forced) directives c) {k : Kind} {x : Record}
    (hx : x ∈ c.ofKind k) (hname : x.name = key) : k = t.kind ∧ s.Survives [] forced key := by
  obtain ⟨u, hu, hrecord⟩ := exists_mem_of_forall₂ (mapM_eq_ok_iff.1 (hc.mapM_ofKind hown k)) hx
  obtain ⟨hu, hsurvives⟩ := List.mem_filter.1 hu
  have huname : u.name = key := (Record.describes_of_ofType hrecord).name_eq.symm.trans hname
  obtain ⟨e, he, htype, rfl⟩ := Entries.mem_typesOf.1 hu
  obtain rfl : u = t := by
    refine TypeMap.eq_of_name hown (Entries.mem_types.2 ⟨_, h, rfl⟩)
      (Entries.mem_types.2 ⟨e, he, htype⟩) ?_
    rw [huname, hown _ h t rfl]
  exact ⟨rfl, by simpa [huname] using hsurvives⟩

theorem Assembles.exists_record (hown : s.typeMap.entries.Named)
    (h : (key, Entry.type t) ∈ s.typeMap.entries)
    (hc : Assembles .records s (s.survivors [] forced) directives c)
    (hsurvives : s.Survives [] forced key) :
    ∃ x ∈ c.ofKind t.kind, Record.ofType s t = .ok x := by
  obtain rfl : t.name = key := hown _ h t rfl
  have ht : t ∈ (s.typeMap.entries.typesOf t.kind).filter fun u => s.Survives [] forced u.name :=
    List.mem_filter.2 ⟨Entries.mem_typesOf.2 ⟨_, h, rfl, rfl⟩, by simpa using hsurvives⟩
  exact exists_mem_of_forall₂ (mapM_eq_ok_iff.1 (hc.mapM_ofKind hown t.kind)).flip ht

theorem Assembles.nodup_names (hown : s.typeMap.entries.Named)
    (hc : Assembles .records s (s.survivors [] forced) directives c) (k : Kind) :
    ((c.ofKind k).map Record.name).Nodup := by
  have hplaced := (placed_names_perm hc (Schema.survivors_named hown)).nodup_iff.2
    Schema.survivors_keys_nodup
  rw [Context.placed, List.map_flatMap, List.nodup_flatMap] at hplaced
  have hlist := hplaced.1 k (Kind.mem_all k)
  rwa [List.map_map] at hlist

end Contexts
end Removal

/-- Of two builds of default records without documents that both return, the second without a type
in its type map, the second lacks the record of the type, if the type survived, and the name of the
type in the lists of the interfaces that it declares, if it is an object type. Every other record is
the same, and so are the records of directives and the schema's own directives. The flag of the
first was set exactly if that of the second is, or if the type survived and a directive is applied
to it or to something inside it. -/
theorem build_without_type {r : Request Record} {j j' : Journal} {settings : Settings} {s : Schema}
    {forced : List Value} {source' : Source} {key : String} {t : NamedType} {c c' : Context Record}
    (ht : r.transformers = .records) (hdocuments : r.documents.parsed = [])
    (hr : r.Resolves j settings s forced) (hown : s.typeMap.entries.Named)
    (h : (key, Entry.type t) ∈ s.typeMap.entries)
    (hsource : source'.unwrap = .ok (s.edit (.remove key)))
    (hc : ((build r).outcome j).1 = .ok c)
    (hc' : ((build { r with source := source' }).outcome j').1 = .ok c') :
    (s.Survives [] forced key → ∃ before x after, Record.ofType s t = .ok x ∧
      c.ofKind t.kind = before ++ x :: after ∧
      c'.ofKind t.kind = (before ++ after).map (Record.withoutImplementor t)) ∧
    (∀ k, k ≠ t.kind ∨ ¬ s.Survives [] forced key →
      c'.ofKind k = (c.ofKind k).map (Record.withoutImplementor t)) ∧
    (∀ k, ∀ x ∈ c'.ofKind k, x.name ≠ key) ∧
    c'.definedDirectives = c.definedDirectives ∧ c'.directives = c.directives ∧
    (c.usesDirectives = true ↔ c'.usesDirectives = true ∨
      (s.Survives [] forced key ∧ ∃ x ∈ t.carriers, x.Carries s)) := by
  have hr' : { r with source := source' }.Resolves j' settings (s.edit (.remove key)) forced :=
    ⟨(r.settings.resolve_yields j').trans ((r.settings.resolve_yields j).symm.trans hr.resolved),
      hsource, hr.elements⟩
  have hc := hr.assembles hc
  have hc' := hr'.assembles hc'
  simp only [ht, hdocuments] at hc hc'
  have hlists := hc.ofKind_remove hown h hc'
  refine ⟨?_, ?_, ?_, ?_, ?_, hc.usesDirectives_remove h hc'⟩
  · intro hsurvives
    obtain ⟨x, hx, hrecord⟩ := hc.exists_record hown h hsurvives
    have hname : x.name = key := (Record.describes_of_ofType hrecord).name_eq.trans (hown _ h t rfl)
    obtain ⟨before, after, hsplit, hrest⟩ := exists_split_of_nodup (hc.nodup_names hown t.kind) hx
    rw [hname] at hrest
    exact ⟨before, x, after, hrecord, hsplit, by rw [hlists, hrest]⟩
  · intro k hk
    rw [hlists, List.filter_eq_self.2]
    intro x hx
    rw [decide_eq_true_eq]
    intro hname
    obtain ⟨hkind, hsurvives⟩ := hc.kind_of_name hown h hx hname
    exact hk.elim (fun hne => hne hkind) fun hdropped => hdropped hsurvives
  · intro k x' hx'
    rw [hlists] at hx'
    obtain ⟨x, hx, rfl⟩ := List.mem_map.1 hx'
    rw [Record.withoutImplementor_name]
    exact of_decide_eq_true (List.mem_filter.1 hx).2
  · have hdefined := hc'.defined
    rw [(s.readsAs_remove key).ofDirectives_eq] at hdefined
    exact Except.ok.inj (hdefined.symm.trans hc.defined)
  · have happlied := ((s.readsAs_remove key).applied_eq s.carrier).trans hc.applied
    exact Except.ok.inj (hc'.applied.symm.trans happlied)

namespace Library

def loan : NamedType :=
  { name := "Loan", description := none, definition := some [], extensions := []
    body := .interface []
      [{ name := "days", type := .named "Int" false, args := [], description := none
         deprecation := none, node := none }] }

def novel : NamedType :=
  { book with
    name := "Novel"
    definition := some [⟨"deprecated", [("reason", .string "unread")]⟩]
    body := .object ["Loan"] [] }

def lendingSchema : Schema :=
  { schema with typeMap := (schema.typeMap.put "Novel" (.type novel)).put "Loan" (.type loan) }

theorem lendingSchema_named : lendingSchema.typeMap.entries.Named :=
  (schema_named.put novel).put loan

end Library

/-- Without the novel there is one type less, and nothing that can be lent. Without the genres of
the library's schema no directive is applied. -/
theorem build_without_novel :
    (∃ c c' i, ((build (Library.requestOf Library.lendingSchema)).outcome {}).1 = .ok c ∧
      ((build (Library.requestOf (Library.lendingSchema.edit (.remove "Novel")))).outcome {}).1 =
        .ok c' ∧
      c.types.map Record.name = ["Book", "Novel"] ∧ (∀ x ∈ c'.types, x.name ≠ "Novel") ∧
      c.interfaces = [.interface i] ∧ i.implementingTypes = ["Novel"] ∧
      c'.interfaces = [.interface { i with implementingTypes := [] }]) ∧
    (∃ c c', ((build (Library.requestOf Library.schema)).outcome {}).1 = .ok c ∧
      ((build (Library.requestOf (Library.schema.edit (.remove "Genre")))).outcome {}).1 = .ok c' ∧
      c.usesDirectives = true ∧ c'.usesDirectives = false ∧
      ∃ x ∈ Library.genre.carriers, x.Carries Library.schema) := by
  have hnovel : ("Novel", Entry.type Library.novel) ∈ Library.lendingSchema.typeMap.entries := by
    simp [Library.lendingSchema, Library.schema, TypeMap.put, TypeMap.empty, Entries.put]
  have hgenre : ("Genre", Entry.type Library.genre) ∈ Library.schema.typeMap.entries := by
    simp [Library.schema, TypeMap.put, TypeMap.empty, Entries.put]
  constructor
  · obtain ⟨c, hc, htypes, i, hi, hname, himplementing⟩ : ∃ c,
        ((build (Library.requestOf Library.lendingSchema)).outcome {}).1 = .ok c ∧
          c.types.map Record.name = ["Book", "Novel"] ∧ ∃ i, c.interfaces = [.interface i] ∧
            i.name = "Loan" ∧ i.implementingTypes = ["Novel"] :=
      ⟨_, rfl, rfl, _, rfl, rfl, rfl⟩
    obtain ⟨c', hc'⟩ : ∃ c', ((build (Library.requestOf
        (Library.lendingSchema.edit (.remove "Novel")))).outcome {}).1 = .ok c' := ⟨_, rfl⟩
    obtain ⟨-, hothers, hgone, -⟩ := build_without_type rfl rfl (Library.requestOf_resolves _)
      Library.lendingSchema_named hnovel rfl hc hc'
    have hinterfaces : c'.interfaces = c.interfaces.map _ := hothers .interface (.inl (by decide))
    refine ⟨c, c', i, hc, hc', htypes, hgone .object, hi, himplementing, ?_⟩
    rw [hinterfaces, hi]
    simp [Record.withoutImplementor, NamedType.implements, Library.novel, TypeBody.isObject,
      TypeBody.interfaces, hname, himplementing]
  · obtain ⟨c, hc, hset⟩ : ∃ c, ((build (Library.requestOf Library.schema)).outcome {}).1 = .ok c ∧
        c.usesDirectives = true := ⟨_, rfl, rfl⟩
    obtain ⟨c', hc', hunset⟩ : ∃ c', ((build (Library.requestOf
        (Library.schema.edit (.remove "Genre")))).outcome {}).1 = .ok c' ∧
          c'.usesDirectives = false := ⟨_, rfl, rfl⟩
    obtain ⟨-, -, -, -, -, huses⟩ := build_without_type rfl rfl (Library.requestOf_resolves _)
      Library.schema_named hgenre rfl hc hc'
    have hcarries := (huses.1 hset).resolve_left (by simp [hunset])
    exact ⟨c, c', hc, hc', hset, hunset, hcarries.2⟩

end SchemaContext
