import SchemaContext.Proofs.CrossReferences
import SchemaContext.Proofs.DirectiveMaps
import SchemaContext.Proofs.Outcome
import SchemaContext.Proofs.Reachability

/-!
# What documents add to a context

Documents name the introspection enums that they select, and nothing else of them is
looked at. Names are all that the allow list knows; where the type map and the references
of a schema agree on what kind of type a name stands for, the names that documents add
let further enums into the context, and no type of another kind.
-/

namespace SchemaContext

theorem Entries.mem_of_mem_put {m : Entries α} {k : String} {a : α} {e : String × α}
    (h : e ∈ m.put k a) : e = (k, a) ∨ e ∈ m := by
  induction m with
  | nil => exact .inl (List.mem_singleton.1 h)
  | cons e' m ih =>
    by_cases hk : e'.1 = k
    · simp only [put, hk, if_true] at h
      exact (List.mem_cons.1 h).imp_right (List.mem_cons_of_mem _)
    · simp only [put, hk, if_false, List.mem_cons] at h
      rcases h with rfl | h
      · exact .inr List.mem_cons_self
      · exact (ih h).imp_right (List.mem_cons_of_mem _)

section Selected

variable {s : Schema}

theorem Schema.resolve?_of_fieldType? {current : Option NamedType} {name : String} {t : NamedType}
    (h : s.fieldType? current name = some t) : s.resolve? t.name = some t := by
  obtain ⟨hbind, -⟩ := Option.filter_eq_some_iff.1 h
  obtain ⟨parent, -, hresolve⟩ := Option.bind_eq_some_iff.1 hbind
  obtain ⟨n, -, hresolve⟩ := Option.bind_eq_some_iff.1 hresolve
  rwa [resolve?_name hresolve]

mutual

theorem Selection.resolve?_of_mem_fieldTypes {current : Option NamedType} {t : NamedType} :
    (x : Selection) → t ∈ x.fieldTypes s current → s.resolve? t.name = some t
  | .field name selections, h => by
    simp only [Selection.fieldTypes] at h
    rcases List.mem_append.1 h with h | h
    · exact Schema.resolve?_of_fieldType? (Option.mem_toList.1 h)
    · exact resolve?_of_mem_selectionsFieldTypes selections h
  | .spread _, h => by
    rw [Selection.fieldTypes] at h
    exact absurd h List.not_mem_nil
  | .inline on selections, h => by
    simp only [Selection.fieldTypes] at h
    exact resolve?_of_mem_selectionsFieldTypes selections h

theorem resolve?_of_mem_selectionsFieldTypes {current : Option NamedType} {t : NamedType} :
    (xs : List Selection) → t ∈ selectionsFieldTypes s current xs → s.resolve? t.name = some t
  | [], h => by
    rw [selectionsFieldTypes] at h
    exact absurd h List.not_mem_nil
  | x :: rest, h => by
    rw [selectionsFieldTypes] at h
    rcases List.mem_append.1 h with h | h
    · exact Selection.resolve?_of_mem_fieldTypes x h
    · exact resolve?_of_mem_selectionsFieldTypes rest h

end

theorem Document.resolve?_of_mem_fieldTypes {d : Document} {t : NamedType}
    (h : t ∈ d.fieldTypes s) : s.resolve? t.name = some t := by
  obtain ⟨x, -, h⟩ := List.mem_flatMap.1 h
  cases x with
  | operation kind selections _ => exact resolve?_of_mem_selectionsFieldTypes selections h
  | fragment name on selections => exact resolve?_of_mem_selectionsFieldTypes selections h

/-- Some document selects an introspection enum of the name. -/
def Schema.Introspects (s : Schema) (documents : List Document) (n : String) : Prop :=
  ∃ d ∈ documents, ∃ u ∈ d.fieldTypes s, u.isIntrospectionEnum = true ∧ u.name = n

theorem mem_names_introspectionEnums {documents : List Document} {n : String} :
    n ∈ (introspectionEnums s documents).map NamedType.name ↔ s.Introspects documents n := by
  rw [introspectionEnums, mem_map_firstOccurrences]
  simp only [List.mem_map, List.mem_filter, List.mem_flatMap, Schema.Introspects]
  constructor
  · rintro ⟨u, ⟨⟨d, hd, hu⟩, henum⟩, hn⟩
    exact ⟨d, hd, u, hu, henum, hn⟩
  · rintro ⟨d, hd, u, hu, henum, hn⟩
    exact ⟨u, ⟨⟨d, hd, hu⟩, henum⟩, hn⟩

end Selected

namespace Schema

variable {s : Schema} {documents documents₁ documents₂ : List Document} {forced : List Value}
  {n : String}

theorem survives_iff_introspects :
    s.Survives documents forced n ↔ s.Survives [] forced n ∨ s.Introspects documents n := by
  have hnone : ¬ s.Introspects [] n := by simp [Introspects]
  rw [Survives, Survives, mem_names_introspectionEnums, mem_names_introspectionEnums]
  tauto

/-- Documents matter to the allow list by their contents alone. -/
theorem introspects_congr
    (h : ∀ ds, ds ∈ documents₁.map Document.definitions ↔
      ds ∈ documents₂.map Document.definitions) :
    s.Introspects documents₁ n ↔ s.Introspects documents₂ n := by
  have hcontents (documents : List Document) : s.Introspects documents n ↔
      ∃ ds ∈ documents.map Document.definitions, ∃ u ∈ ds.flatMap (Definition.fieldTypes s),
        u.isIntrospectionEnum = true ∧ u.name = n := by
    simp [Introspects, Document.fieldTypes]
  simp only [hcontents, h]

theorem survivors_congr (h : ∀ n, s.Survives documents₁ forced n ↔ s.Survives documents₂ forced n) :
    s.survivors documents₁ forced = s.survivors documents₂ forced := by
  simp only [survivors, h]

end Schema

/-- A change of a finished schema's type map that sets no type but those of the schema, listed or
not. A type is known by its name, which no other type of the schema has. -/
inductive Revision where
  | type (key name : String)
  | foreign (key : String) (f : Foreign)
  | remove (key : String)

/-- The change as an edit. Nothing can be set that the schema does not have. -/
def Revision.edit? (s : Schema) : Revision → Option Edit
  | type key name => (s.resolve? name).map fun t => .set key (.type t)
  | foreign key f => some (.set key (.foreign f))
  | remove key => some (.remove key)

namespace Schema

variable {s : Schema}

def revised (s : Schema) (changes : List Revision) : Schema :=
  (changes.filterMap (Revision.edit? s)).foldl edit s

/-- The type map and the references of a schema agree on what kind of type a name stands for. Types
are told apart by their names alone, so this is all there is to a type map that holds the very
types that references point to. -/
def KindsAgree (s : Schema) : Prop :=
  ∀ e ∈ s.typeMap.entries, ∀ t, e.2 = .type t → ∀ u, s.resolve? t.name = some u → u.kind = t.kind

theorem Closed.kindsAgree (hs : s.Closed) : s.KindsAgree := by
  intro e he t htype u hu
  rw [resolve?_name (hs.resolves he htype), hs.resolves he htype] at hu
  rw [Option.some.inj hu]

theorem KindsAgree.edit (hagree : s.KindsAgree) {change : Edit}
    (hset : ∀ key t, change = .set key (.type t) → s.resolve? t.name = some t) :
    (s.edit change).KindsAgree := by
  intro e he t htype u hu
  have hu : s.resolve? t.name = some u := by cases change <;> exact hu
  cases change with
  | set key entry =>
    rcases Entries.mem_of_mem_put he with rfl | he
    · have ht := hset key t (by rw [← htype])
      rw [Option.some.inj (hu.symm.trans ht)]
    · exact hagree e he t htype u hu
  | remove key => exact hagree e (List.mem_filter.1 he).1 t htype u hu

/-- Edits that set what references find keep the agreement of a schema that was made. -/
theorem kindsAgree_foldl_edit (p : SchemaParts) {changes : List Edit}
    (hset : ∀ key t, .set key (.type t) ∈ changes → (ofParts p).resolve? t.name = some t) :
    (changes.foldl edit (ofParts p)).KindsAgree := by
  have hedits (s : Schema) (hs : ∀ n, s.resolve? n = (ofParts p).resolve? n) (h : s.KindsAgree) :
      (changes.foldl edit s).KindsAgree := by
    induction changes generalizing s with
    | nil => exact h
    | cons change changes ih =>
      refine ih (fun key t ht => hset key t (List.mem_cons_of_mem _ ht)) (s.edit change) ?_ ?_
      · cases change <;> exact hs
      · refine h.edit fun key t ht => ?_
        rw [hs]
        exact hset key t (ht ▸ List.mem_cons_self)
  exact hedits (ofParts p) (fun _ => rfl) (closed_ofParts p).kindsAgree

theorem kindsAgree_revised (p : SchemaParts) (changes : List Revision) :
    ((ofParts p).revised changes).KindsAgree := by
  refine kindsAgree_foldl_edit p fun key t hset => ?_
  obtain ⟨change, -, hedit⟩ := List.mem_filterMap.1 hset
  cases change with
  | type key' name =>
    obtain ⟨u, hu, hset⟩ := Option.map_eq_some_iff.1 hedit
    cases hset
    rwa [resolve?_name hu]
  | foreign key' f => cases hedit
  | remove key' => cases hedit

def Selects (s : Schema) (documents : List Document) (t : NamedType) : Prop :=
  ∃ d ∈ documents, ∃ u ∈ d.fieldTypes s, u.name = t.name

instance (s : Schema) (documents : List Document) : DecidablePred (s.Selects documents) := fun t =>
  inferInstanceAs (Decidable (∃ d ∈ documents, ∃ u ∈ d.fieldTypes s, u.name = t.name))

end Schema

theorem TypeBody.isEnum_iff {b : TypeBody} : b.isEnum = true ↔ b.kind = .enum := by
  cases b <;> simp [isEnum, kind]

theorem not_mem_primitiveNames_of_reserved {n : String} (h : isReservedName n = true) :
    n ∉ primitiveNames := by
  intro hn
  simp only [primitiveNames, List.mem_cons, List.not_mem_nil, or_false] at hn
  rcases hn with rfl | rfl | rfl | rfl | rfl <;> cases h

namespace Schema

variable {s : Schema} {documents documents₁ documents₂ : List Document} {forced : List Value}
  {t : NamedType} {e : String × Entry}

theorem survives_of_kind_ne (hagree : s.KindsAgree) (he : e ∈ s.typeMap.entries)
    (htype : e.2 = .type t) (hk : t.kind ≠ .enum) :
    s.Survives documents forced t.name ↔ s.Survives [] forced t.name := by
  rw [survives_iff_introspects, or_iff_left]
  rintro ⟨d, -, u, hu, henum, hname⟩
  have hresolve := Document.resolve?_of_mem_fieldTypes hu
  rw [hname] at hresolve
  have hkind := hagree e he t htype u hresolve
  exact hk (hkind.symm.trans (TypeBody.isEnum_iff.1 (Bool.and_eq_true_iff.1 henum).1))

/-- Documents add the enums that they select; those that have the name of a primitive scalar, if
there were any, they do not add. -/
theorem survives_enum_iff (hagree : s.KindsAgree) (he : e ∈ s.typeMap.entries)
    (htype : e.2 = .type t) (hk : t.kind = .enum) :
    s.Survives documents forced t.name ↔
      s.Survives [] forced t.name ∨ (t.name ∉ primitiveNames ∧ s.Selects documents t) := by
  rw [survives_iff_introspects]
  constructor
  · rintro (h | ⟨d, hd, u, hu, henum, hname⟩)
    · exact .inl h
    · have hreserved := (Bool.and_eq_true_iff.1 henum).2
      rw [hname] at hreserved
      exact .inr ⟨not_mem_primitiveNames_of_reserved hreserved, d, hd, u, hu, hname⟩
  · rintro (h | ⟨hprimitive, d, hd, u, hu, hname⟩)
    · exact .inl h
    · by_cases hreserved : isReservedName t.name = true
      · have hresolve := Document.resolve?_of_mem_fieldTypes hu
        rw [hname] at hresolve
        have hkind := (hagree e he t htype u hresolve).trans hk
        refine .inr ⟨d, hd, u, hu, Bool.and_eq_true_iff.2 ⟨TypeBody.isEnum_iff.2 hkind, ?_⟩, hname⟩
        rw [hname]
        exact hreserved
      · left
        refine .inr (.inr ⟨hprimitive, fun hprefix => hreserved ?_⟩)
        exact List.isPrefixOf_iff_prefix.2 hprefix

end Schema

theorem Entries.typesOf_filter {es : Entries Entry} (hown : es.Named) (p : String → Bool)
    (k : Kind) :
    Entries.typesOf (es.filter fun e => p e.1) k = (es.typesOf k).filter fun t => p t.name := by
  have htypesOf (es : Entries Entry) : es.typesOf k = es.types.filter fun t => t.kind = k := rfl
  rw [htypesOf, htypesOf, types_filter hown, List.filter_comm]

theorem sublist_of_mapM {f : α → Except ε β} {as as' : List α} {bs bs' : List β}
    (hsub : as.Sublist as') (h : as.mapM f = .ok bs) (h' : as'.mapM f = .ok bs') :
    bs.Sublist bs' := by
  rw [mapM_eq_ok_iff] at h h'
  induction hsub generalizing bs bs' with
  | slnil =>
    cases h
    exact List.nil_sublist _
  | cons a _ ih =>
    cases h' with
    | cons _ hrest => exact (ih h hrest).cons _
  | cons_cons a _ ih =>
    cases h with
    | cons hb hrest =>
      cases h' with
      | cons hb' hrest' =>
        rw [Except.ok.inj (hb.symm.trans hb')]
        exact (ih hrest hrest').cons_cons _

section Contexts

variable {s : Schema} {documents documents₁ documents₂ : List Document} {forced : List Value}
  {directives : List DirectiveDefinition} {c c₁ c₂ : Context Record}

theorem Assembles.mapM_ofKind (hown : s.typeMap.entries.Named)
    (h : Assembles .records s (s.survivors documents forced) directives c) (k : Kind) :
    ((s.typeMap.entries.typesOf k).filter fun t => s.Survives documents forced t.name).mapM
      (Record.ofType s) = .ok (c.ofKind k) := by
  obtain ⟨records, hmade, hk⟩ := h.made
  have htypes := Entries.typesOf_filter hown (fun n => s.Survives documents forced n) k
  rw [← htypes, hk, mapM_eq_ok_iff]
  exact (forall₂_select hmade k).imp fun t x => Failure.ofArguments_eq_ok_iff.1

theorem Entries.mem_typesOf {es : Entries Entry} {k : Kind} {t : NamedType} :
    t ∈ es.typesOf k ↔ ∃ e ∈ es, e.2 = .type t ∧ t.kind = k := by
  have htypesOf : es.typesOf k = es.types.filter fun t => t.kind = k := rfl
  simp only [htypesOf, List.mem_filter, mem_types, decide_eq_true_eq, ← exists_and_right,
    and_assoc]

theorem Assembles.ofKind_eq (hown : s.typeMap.entries.Named) (hagree : s.KindsAgree)
    (h₁ : Assembles .records s (s.survivors documents₁ forced) directives c₁)
    (h₂ : Assembles .records s (s.survivors documents₂ forced) directives c₂) {k : Kind}
    (hk : k ≠ .enum) : c₁.ofKind k = c₂.ofKind k := by
  have hsame : ∀ t ∈ s.typeMap.entries.typesOf k,
      decide (s.Survives documents₁ forced t.name) =
        decide (s.Survives documents₂ forced t.name) := by
    intro t ht
    obtain ⟨e, he, htype, rfl⟩ := Entries.mem_typesOf.1 ht
    rw [decide_eq_decide]
    exact (Schema.survives_of_kind_ne hagree he htype hk).trans
      (Schema.survives_of_kind_ne hagree he htype hk).symm
  have h := h₁.mapM_ofKind hown k
  rw [List.filter_congr hsame, h₂.mapM_ofKind hown k] at h
  exact (Except.ok.inj h).symm

theorem Assembles.mapM_enums (hown : s.typeMap.entries.Named) (hagree : s.KindsAgree)
    (h : Assembles .records s (s.survivors documents forced) directives c) :
    ((s.typeMap.entries.typesOf .enum).filter fun t =>
        s.Survives [] forced t.name ∨ (t.name ∉ primitiveNames ∧ s.Selects documents t)).mapM
      (Record.ofType s) = .ok c.enums := by
  have hsame : ∀ t ∈ s.typeMap.entries.typesOf .enum,
      decide (s.Survives documents forced t.name) = decide
        (s.Survives [] forced t.name ∨ (t.name ∉ primitiveNames ∧ s.Selects documents t)) := by
    intro t ht
    obtain ⟨e, he, htype, hk⟩ := Entries.mem_typesOf.1 ht
    rw [decide_eq_decide]
    exact Schema.survives_enum_iff hagree he htype hk
  have h := h.mapM_ofKind hown .enum
  rwa [List.filter_congr hsame] at h

theorem Assembles.unique {ρ : Type} {t : Transformers ρ} {kept : Entries Entry} {c₁ c₂ : Context ρ}
    (h₁ : Assembles t s kept directives c₁) (h₂ : Assembles t s kept directives c₂) : c₁ = c₂ :=
  Except.ok.inj ((assembled_eq_ok_iff.2 h₁).symm.trans (assembled_eq_ok_iff.2 h₂))

/-- Two contexts of one schema differ in their enums if they differ at all. -/
theorem Assembles.eq_of_enums (hown : s.typeMap.entries.Named) (hagree : s.KindsAgree)
    (h₁ : Assembles .records s (s.survivors documents₁ forced) directives c₁)
    (h₂ : Assembles .records s (s.survivors documents₂ forced) directives c₂)
    (henums : c₁.enums = c₂.enums) : c₁ = c₂ := by
  -- An enum survives in a run exactly if a record of the run has its name.
  have hnames {documents : List Document} {c : Context Record}
      (h : Assembles .records s (s.survivors documents forced) directives c) {t : NamedType}
      (ht : t ∈ s.typeMap.entries.typesOf .enum) :
      s.Survives documents forced t.name ↔ ∃ x ∈ c.enums, x.name = t.name := by
    have hmade := mapM_eq_ok_iff.1 (h.mapM_ofKind hown .enum)
    have hiff := exists_iff_of_forall₂ (p := fun u => u.name = t.name)
      (q := fun x => x.name = t.name) hmade fun u x hx => by
        rw [(Record.describes_of_ofType hx).name_eq]
    refine Iff.trans ?_ hiff
    constructor
    · exact fun hsurvives => ⟨t, List.mem_filter.2 ⟨ht, by simpa using hsurvives⟩, rfl⟩
    · rintro ⟨u, hu, hname⟩
      rw [← hname]
      simpa using (List.mem_filter.1 hu).2
  have hsame : s.survivors documents₁ forced = s.survivors documents₂ forced := by
    apply List.filter_congr
    intro e he
    rw [decide_eq_decide]
    cases htype : e.2 with
    | type t =>
      rw [← hown e he t htype]
      by_cases hk : t.kind = .enum
      · have ht := Entries.mem_typesOf.2 ⟨e, he, htype, hk⟩
        rw [hnames h₁ ht, hnames h₂ ht, henums]
      · exact (Schema.survives_of_kind_ne hagree he htype hk).trans
          (Schema.survives_of_kind_ne hagree he htype hk).symm
    | foreign x =>
      have hdropped {documents : List Document} {c : Context Record}
          (h : Assembles .records s (s.survivors documents forced) directives c) :
          ¬ s.Survives documents forced e.1 := by
        intro hsurvives
        obtain ⟨u, hu⟩ := h.exists_type (Schema.mem_survivors.2 ⟨he, hsurvives⟩)
        cases htype.symm.trans hu
      exact iff_of_false (hdropped h₁) (hdropped h₂)
  rw [hsame] at h₁
  exact h₁.unique h₂

theorem Assembles.usesDirectives_mono {ρ : Type} {t : Transformers ρ} {kept₁ kept₂ : Entries Entry}
    {c₁ c₂ : Context ρ} (hsub : kept₁ ⊆ kept₂) (h₁ : Assembles t s kept₁ directives c₁)
    (h₂ : Assembles t s kept₂ directives c₂) (huses : c₁.usesDirectives = true) :
    c₂.usesDirectives = true := by
  rw [Carrier.anyApplied_eq_ok h₁.uses, exists_carriersWith_iff] at huses
  rw [Carrier.anyApplied_eq_ok h₂.uses, exists_carriersWith_iff]
  refine huses.imp_right (Or.imp_right fun hcarries => ?_)
  obtain ⟨e, he, hcarries⟩ := exists_carriers_iff.1 hcarries
  exact exists_carriers_iff.2 ⟨e, hsub he, hcarries⟩

theorem Assembles.enums_sublist (hown : s.typeMap.entries.Named)
    (hsub : introspectionEnums s documents₁ ⊆ introspectionEnums s documents₂)
    (h₁ : Assembles .records s (s.survivors documents₁ forced) directives c₁)
    (h₂ : Assembles .records s (s.survivors documents₂ forced) directives c₂) :
    c₁.enums.Sublist c₂.enums ∧ (c₁.usesDirectives = true → c₂.usesDirectives = true) := by
  have hsurvives (n : String) : s.Survives documents₁ forced n → s.Survives documents₂ forced n :=
    Or.imp_left fun hn => List.map_subset NamedType.name hsub hn
  constructor
  · have htypes : ((s.typeMap.entries.typesOf .enum).filter fun t =>
        s.Survives documents₁ forced t.name).Sublist
        ((s.typeMap.entries.typesOf .enum).filter fun t => s.Survives documents₂ forced t.name) :=
      List.monotone_filter_right _ fun t => by simpa using hsurvives t.name
    exact sublist_of_mapM htypes (h₁.mapM_ofKind hown .enum) (h₂.mapM_ofKind hown .enum)
  · refine h₁.usesDirectives_mono ?_ h₂
    intro e he
    obtain ⟨he, hkey⟩ := Schema.mem_survivors.1 he
    exact Schema.mem_survivors.2 ⟨he, hsurvives e.1 hkey⟩

end Contexts

/-- Lists of documents hold the same contents: order, number and files do not tell them apart. -/
def SameContents (documents₁ documents₂ : List Document) : Prop :=
  ∀ ds, ds ∈ documents₁.map Document.definitions ↔ ds ∈ documents₂.map Document.definitions

theorem SameContents.symm {documents₁ documents₂ : List Document}
    (h : SameContents documents₁ documents₂) : SameContents documents₂ documents₁ :=
  fun ds => (h ds).symm

theorem SameContents.walked {s : Schema} {documents₁ documents₂ : List Document}
    (h : SameContents documents₁ documents₂)
    (hwalked : (documents₁ : Documents).walked s = .ok documents₁) :
    (documents₂ : Documents).walked s = .ok documents₂ := by
  obtain ⟨-, hall⟩ := Documents.walked_eq_ok_iff.1 hwalked
  refine Documents.walked_eq_ok_iff.2 ⟨rfl, fun d hd => ?_⟩
  obtain ⟨d', hd', hsame⟩ := List.mem_map.1 ((h d.definitions).2 (List.mem_map_of_mem hd))
  have hvariables : d.variableTypes = d'.variableTypes := by
    rw [Document.variableTypes, ← hsame, Document.variableTypes]
  rw [hvariables]
  exact hall d' hd'

/-- What a build comes to depends on the contents of its documents alone, if they can be walked. -/
theorem Request.result_congr {r : Request ρ} {documents₁ documents₂ : List Document}
    (h : SameContents documents₁ documents₂)
    (hwalked : ∀ s, r.source.unwrap = .ok s →
      (documents₁ : Documents).walked s = .ok documents₁) :
    { r with documents := documents₂ }.result = { r with documents := documents₁ }.result := by
  cases hsettled : r.settings.settled with
  | error e =>
    rw [(ends_without_settings (r := { r with documents := documents₁ }) hsettled).1]
    exact (ends_without_settings (r := { r with documents := documents₂ }) hsettled).1
  | ok settings =>
    cases hunwrapped : r.source.unwrap with
    | error e =>
      rw [(ends_without_schema (r := { r with documents := documents₁ }) hsettled rfl
        hunwrapped).1]
      exact (ends_without_schema (r := { r with documents := documents₂ }) hsettled rfl
        hunwrapped).1
    | ok s =>
      have hsurvivors (forced : List Value) :
          s.survivors documents₂ forced = s.survivors documents₁ forced := by
        apply Schema.survivors_congr
        intro n
        rw [Schema.survives_iff_introspects, ← Schema.introspects_congr h,
          ← Schema.survives_iff_introspects]
      rw [result_eq_bind (r := { r with documents := documents₁ }) hsettled hunwrapped,
        result_eq_bind (r := { r with documents := documents₂ }) hsettled hunwrapped,
        hwalked s hunwrapped, h.walked (hwalked s hunwrapped)]
      change (settings.forced >>= _) = (settings.forced >>= _)
      simp only [hsurvivors]

theorem Request.result_eq_ok_of_sameContents {r : Request ρ} {documents₁ documents₂ : List Document}
    (h : SameContents documents₁ documents₂) {c : Context ρ}
    (hc : { r with documents := documents₁ }.result = .ok c) :
    { r with documents := documents₂ }.result = .ok c := by
  rw [result_congr h, hc]
  intro s hunwrapped
  obtain ⟨settings, hsettled, -⟩ := bind_eq_ok_iff.1 hc
  rw [result_eq_bind (r := { r with documents := documents₁ }) hsettled hunwrapped] at hc
  obtain ⟨documents, hwalked, -⟩ := bind_eq_ok_iff.1 hc
  obtain rfl : documents₁ = documents :=
    (Documents.parsed_map_document documents₁).symm.trans (Documents.parsed_of_walked hwalked)
  exact hwalked

namespace Library

def kindQuery : Document :=
  { definitions := [.operation .query [.field "__type" [.field "kind" []]]], file := none }

def revisedSchema : Schema := (Schema.ofParts parts).revised [.remove "__DirectiveLocation"]

theorem revisedSchema_entries :
    revisedSchema.typeMap.entries ⊆ (Schema.ofParts parts).typeMap.entries :=
  List.filter_subset_self _

theorem exists_revised (documents : List Document)
    (hwalked : (documents : Documents).walked revisedSchema = .ok documents) :
    ∃ c, ((build { requestOf revisedSchema with documents }).outcome {}).1 = .ok c := by
  have hclosed := Schema.closed_ofParts parts
  refine exists_build (r := { requestOf revisedSchema with documents }) rfl
    (Request.tells_of_default rfl) ⟨rfl, rfl, rfl⟩ ?_ (by decide) ?_ ?_
  · exact hwalked.trans (congrArg Except.ok (Documents.parsed_map_document documents).symm)
  · intro e he
    obtain ⟨t, -, htype⟩ := hclosed.own e (revisedSchema_entries (Schema.mem_survivors.1 he).1)
    exact ⟨t, htype⟩
  · intro c hc
    refine ⟨_, Carrier.applied_of_nodes_nil (parts_nodes (fun e he => ?_) c hc)⟩
    exact revisedSchema_entries (Schema.mem_survivors.1 he).1

end Library

end SchemaContext
