import SchemaContext.Proofs.Deprecation
import SchemaContext.Proofs.DirectiveMaps

/-!
# Contexts of schemas that lose syntax nodes

Where the directives of every element are those that its deprecation reason stands for,
nothing in a context depends on the syntax nodes: each record of a schema is the record
of the schema without nodes, and so is the flag that tells of directives. Two schemas
that differ in their nodes only are compared through the schema that both of them are
without any.
-/

namespace SchemaContext

namespace Carrier

variable {s s' : Schema} {c : Carrier}

/-- The directives of the element are those that its deprecation reason stands for. -/
def Reports (s : Schema) (c : Carrier) : Prop := c.applied s = .ok c.reported

theorem reports_bare (s : Schema) (c : Carrier) : c.bare.Reports s := applied_of_nodes_nil rfl

theorem Reports.applied_bare (h : c.Reports s) : c.bare.applied s' = c.applied s :=
  (reports_bare s' c).trans h.symm

theorem anyApplied_of_reports {cs : List Carrier} (h : ∀ c ∈ cs, c.Reports s) :
    anyApplied s cs = .ok (cs.any fun c => c.deprecation.isSome) := by
  induction cs with
  | nil => rfl
  | cons c cs ih =>
    have hc : c.applied s = .ok c.reported := h c List.mem_cons_self
    have hrest := ih fun c hc => h c (List.mem_cons_of_mem _ hc)
    rw [anyApplied, hc, List.any_cons, reported]
    cases c.deprecation with
    | none => exact hrest
    | some reason => rfl

end Carrier

section Records

variable {s : Schema}

theorem ArgumentRecord.ofInputValue_bare {a : InputValue} (h : a.carrier.Reports s) :
    ofInputValue s.bare a.bare = ofInputValue s a := by
  have happlied : a.bare.carrier.applied s.bare = a.carrier.applied s := h.applied_bare
  simp only [ofInputValue, happlied, a.bare_type, s.typeUse_bare]
  rfl

theorem ArgumentRecord.mapM_ofInputValue_bare {as : List InputValue}
    (h : ∀ c ∈ as.map InputValue.carrier, c.Reports s) :
    (as.map InputValue.bare).mapM (ofInputValue s.bare) = as.mapM (ofInputValue s) :=
  mapM_map_eq fun _ ha => ofInputValue_bare (h _ (List.mem_map_of_mem ha))

theorem FieldRecord.ofField_bare {f : Field} (h : ∀ c ∈ f.carriers, c.Reports s) :
    ofField s.bare f.bare = ofField s f := by
  have happlied : f.bare.carrier.applied s.bare = f.carrier.applied s :=
    (h _ List.mem_cons_self).applied_bare
  have hargs := ArgumentRecord.mapM_ofInputValue_bare fun c hc => h c (List.mem_cons_of_mem _ hc)
  simp only [ofField, happlied, f.bare_type, f.bare_args, s.typeUse_bare, hargs]
  rfl

theorem FieldRecord.mapM_ofField_bare {fs : List Field}
    (h : ∀ c ∈ fs.flatMap Field.carriers, c.Reports s) :
    (fs.map Field.bare).mapM (ofField s.bare) = fs.mapM (ofField s) :=
  mapM_map_eq fun f hf => ofField_bare fun c hc => h c (List.mem_flatMap.2 ⟨f, hf, hc⟩)

theorem FieldRecord.ofInputField_bare {f : InputValue} (h : f.carrier.Reports s) :
    ofInputField s.bare f.bare = ofInputField s f := by
  have happlied : f.bare.carrier.applied s.bare = f.carrier.applied s := h.applied_bare
  simp only [ofInputField, happlied, f.bare_type, s.typeUse_bare]
  rfl

theorem EnumValueRecord.ofEnumValue_bare {v : EnumValue} (h : v.carrier.Reports s) :
    ofEnumValue s.bare v.bare = ofEnumValue s v := by
  have happlied : v.bare.carrier.applied s.bare = v.carrier.applied s := h.applied_bare
  simp only [ofEnumValue, happlied]
  rfl

/-- A type whose elements report their reasons has the same record without nodes. -/
theorem Record.ofType_bare {t : NamedType} (h : ∀ c ∈ t.carriers, c.Reports s) :
    ofType s.bare t.bare = ofType s t := by
  have happlied : t.bare.carrier.applied s.bare = t.carrier.applied s :=
    (h _ List.mem_cons_self).applied_bare
  have hparts : ∀ c ∈ t.body.carriers, c.Reports s := fun c hc => h c (List.mem_cons_of_mem _ hc)
  unfold ofType
  cases hb : t.body with
  | object interfaces fields =>
    rw [hb] at hparts
    simp only [NamedType.bare_body, hb, TypeBody.bare, happlied,
      FieldRecord.mapM_ofField_bare hparts]
    rfl
  | inputObject oneOf fields =>
    rw [hb] at hparts
    have hfields : (fields.map InputValue.bare).mapM (FieldRecord.ofInputField s.bare)
        = fields.mapM (FieldRecord.ofInputField s) :=
      mapM_map_eq fun f hf => FieldRecord.ofInputField_bare (hparts _ (List.mem_map_of_mem hf))
    simp only [NamedType.bare_body, hb, TypeBody.bare, happlied, hfields]
    rfl
  | interface interfaces fields =>
    rw [hb] at hparts
    simp only [NamedType.bare_body, hb, TypeBody.bare, happlied, t.bare_name,
      s.implementingTypes_bare, FieldRecord.mapM_ofField_bare hparts]
    rfl
  | enum values =>
    rw [hb] at hparts
    have hvalues : (values.map EnumValue.bare).mapM (EnumValueRecord.ofEnumValue s.bare)
        = values.mapM (EnumValueRecord.ofEnumValue s) :=
      mapM_map_eq fun v hv => EnumValueRecord.ofEnumValue_bare (hparts _ (List.mem_map_of_mem hv))
    simp only [NamedType.bare_body, hb, TypeBody.bare, happlied, hvalues]
    rfl
  | union members =>
    simp only [NamedType.bare_body, hb, TypeBody.bare, happlied]
    rfl
  | scalar reading =>
    simp only [NamedType.bare_body, hb, TypeBody.bare, ScalarRecord.ofType, happlied]
    rfl

theorem DirectiveRecord.ofDefinition_bare {d : DirectiveDefinition}
    (h : ∀ c ∈ d.args.map InputValue.carrier, c.Reports s) :
    ofDefinition s.bare d.bare = ofDefinition s d := by
  simp only [ofDefinition, DirectiveDefinition.bare, ArgumentRecord.mapM_ofInputValue_bare h]

end Records

section Assembly

variable {s : Schema} {kept : Entries Entry} {directives : List DirectiveDefinition}
  {c : Context Record}

theorem makes_bare_iff {e : String × Entry} {r : Kind × Record}
    (h : ∀ c ∈ e.2.carriers, c.Reports s) :
    Makes .records s.bare (e.1, e.2.bare) r ↔ Makes .records s e r := by
  obtain ⟨key, t | f⟩ := e
  · have hrecord : Transformers.records.ofType t.kind s.bare t.bare
        = Transformers.records.ofType t.kind s t :=
      congrArg Failure.ofArguments (Record.ofType_bare h)
    constructor
    · rintro ⟨_, ht, hk, hx⟩
      cases ht
      rw [t.kind_bare] at hk hx
      exact ⟨t, rfl, hk, hrecord ▸ hx⟩
    · rintro ⟨_, ht, hk, hx⟩
      cases ht
      refine ⟨t.bare, rfl, t.kind_bare.trans hk, ?_⟩
      rw [t.kind_bare, hrecord, hx]
  · constructor
    · rintro ⟨_, ht, -⟩
      cases ht
    · rintro ⟨_, ht, -⟩
      cases ht

theorem forall₂_makes_bare_iff {records : List (Kind × Record)}
    (h : ∀ c ∈ kept.values.flatMap Entry.carriers, c.Reports s) :
    List.Forall₂ (Makes .records s.bare) (kept.mapValues Entry.bare) records ↔
      List.Forall₂ (Makes .records s) kept records := by
  induction kept generalizing records with
  | nil => cases records <;> simp [Entries.mapValues]
  | cons e kept ih =>
    have hhead : ∀ c ∈ e.2.carriers, c.Reports s := fun c hc => h c (List.mem_append_left _ hc)
    have htail : ∀ c ∈ (Entries.values kept).flatMap Entry.carriers, c.Reports s :=
      fun c hc => h c (List.mem_append_right _ hc)
    cases records with
    | nil => simp [Entries.mapValues]
    | cons r records =>
      change List.Forall₂ _ ((e.1, e.2.bare) :: Entries.mapValues Entry.bare kept) _ ↔ _
      rw [List.forall₂_cons, List.forall₂_cons, makes_bare_iff hhead, ih htail]

theorem ofDirectives_bare
    (h : ∀ c ∈ directives.flatMap (fun d => d.args.map InputValue.carrier), c.Reports s) :
    Transformers.records.ofDirectives s.bare (directives.map DirectiveDefinition.bare)
      = Transformers.records.ofDirectives s directives := by
  unfold Transformers.records
  apply congrArg Failure.ofArguments
  apply mapM_map_eq
  intro d hd
  rw [DirectiveRecord.ofDefinition_bare]
  exact fun c hc => h c (List.mem_flatMap.2 ⟨d, hd, hc⟩)

theorem usesDirectives_bare (h : ∀ c ∈ s.carriersWith kept.values, c.Reports s) :
    s.bare.usesDirectives (kept.mapValues Entry.bare).values = s.usesDirectives kept.values := by
  have hbare : ∀ c ∈ (s.carriersWith kept.values).map Carrier.bare, c.Reports s.bare := by
    intro c hc
    obtain ⟨c, -, rfl⟩ := List.mem_map.1 hc
    exact Carrier.reports_bare s.bare c
  rw [Schema.usesDirectives, Schema.usesDirectives, Schema.carriersWith_bare,
    Carrier.anyApplied_of_reports hbare, Carrier.anyApplied_of_reports h, List.any_map]
  rfl

/-- A context of a schema whose elements report their reasons is one of the schema without nodes. -/
theorem assembles_bare_iff (h : ∀ c ∈ s.carriersWith kept.values, c.Reports s)
    (hds : directives ⊆ s.directives) :
    Assembles .records s.bare (kept.mapValues Entry.bare)
        (directives.map DirectiveDefinition.bare) { c with schema := some s.bare } ↔
      Assembles .records s kept directives { c with schema := some s } := by
  have hschema : s.bare.carrier.applied s.bare = s.carrier.applied s :=
    (h _ (List.mem_append_left _ List.mem_cons_self)).applied_bare
  have hkept (records : List (Kind × Record)) :
      List.Forall₂ (Makes .records s.bare) (kept.mapValues Entry.bare) records ↔
        List.Forall₂ (Makes .records s) kept records :=
    forall₂_makes_bare_iff fun c hc => h c (List.mem_append_right _ hc)
  have hdefined := ofDirectives_bare fun c hc => h c (Schema.arguments_subset_carriersWith hds hc)
  constructor
  · rintro ⟨⟨records, hmade, hk⟩, hd, hu, ha, -⟩
    exact ⟨⟨records, (hkept records).1 hmade, hk⟩, hdefined ▸ hd, usesDirectives_bare h ▸ hu,
      hschema ▸ ha, rfl⟩
  · rintro ⟨⟨records, hmade, hk⟩, hd, hu, ha, -⟩
    refine ⟨⟨records, (hkept records).2 hmade, hk⟩, ?_, ?_, ?_, rfl⟩
    · rw [hdefined, hd]
    · rw [usesDirectives_bare h, hu]
    · rw [hschema, ha]

end Assembly

namespace Schema

variable {s s' : Schema} {documents : List Document} {forced : List Value}

def carriers (s : Schema) : List Carrier := s.carriersWith s.typeMap.entries.values

/-- The same schema, some of whose elements have no nodes any more. -/
structure StripsTo (s s' : Schema) : Prop where
  same : s'.bare = s.bare
  stripped : List.Forall₂ (fun c c' => c' = c ∨ c' = c.bare) s.carriers s'.carriers

theorem StripsTo.agrees (h : s.StripsTo s') (ha : ∀ c ∈ s.carriers, c.Agrees) :
    ∀ c ∈ s'.carriers, c.Agrees := by
  have hkept (cs cs' : List Carrier)
      (h : List.Forall₂ (fun c c' => c' = c ∨ c' = c.bare) cs cs') (ha : ∀ c ∈ cs, c.Agrees) :
      ∀ c ∈ cs', c.Agrees := by
    induction h with
    | nil => simp
    | @cons c c' cs cs' hc _ ih =>
      rw [List.forall_mem_cons] at ha ⊢
      refine ⟨?_, ih ha.2⟩
      rcases hc with rfl | rfl
      · exact ha.1
      · exact fun hne => absurd rfl hne
  exact hkept _ _ h.stripped ha

theorem StripsTo.standardDeprecation (h : s.StripsTo s') (hs : s.StandardDeprecation) :
    s'.StandardDeprecation := by
  have hnamed (s : Schema) :
      (s.directives.filter fun d => d.name == "deprecated").map DirectiveDefinition.bare =
        s.bare.directives.filter fun d => d.name == "deprecated" := by
    rw [bare, List.filter_map]
    rfl
  have hbody (s : Schema) : s.bare.body? "String" = (s.body? "String").map TypeBody.bare := by
    rw [body?, resolve?_bare, body?, Option.map_map, Option.map_map]
    rfl
  have htext : (s'.body? "String").map TypeBody.bare = some .scalar := by
    rw [← hbody, h.same, hbody, hs.text]
    rfl
  obtain ⟨b, hb, hscalar⟩ := Option.map_eq_some_iff.1 htext
  refine ⟨?_, ?_⟩
  · rw [hnamed, h.same, ← hnamed, hs.only]
  · rw [hb]
    cases b <;> cases hscalar
    rfl

theorem mem_carriers_of_survivors {c : Carrier}
    (h : c ∈ s.carriersWith (s.survivors documents forced).values) : c ∈ s.carriers := by
  rcases List.mem_append.1 h with h | h
  · exact List.mem_append_left _ h
  · obtain ⟨e, he, hc⟩ := List.mem_flatMap.1 h
    have he : e ∈ s.typeMap.entries.values :=
      (List.filter_sublist.map Prod.snd).subset he
    exact List.mem_append_right _ (List.mem_flatMap.2 ⟨e, he, hc⟩)

/-- The context of a schema with standard deprecations is that of the schema without nodes. -/
theorem assembles_survivors_iff {settings : Settings} {c : Context Record}
    (hs : s.StandardDeprecation) (ha : ∀ c ∈ s.carriers, c.Agrees) :
    Assembles .records s (s.survivors documents forced) (settings.recordedDirectives s)
        { c with schema := some s } ↔
      Assembles .records s.bare (s.bare.survivors documents forced)
        (settings.recordedDirectives s.bare) { c with schema := some s.bare } := by
  rw [survivors_bare, recordedDirectives_bare]
  symm
  apply assembles_bare_iff
  · exact fun c hc => Carrier.applied_of_agrees hs (ha c (mem_carriers_of_survivors hc))
  · exact List.filter_subset_self _

end Schema

theorem build_withSource {r : Request Record} {source' : Source} {j : Journal} {s s' : Schema}
    (htells : r.Tells) (hs : r.source.unwrap = .ok s) (hs' : source'.unwrap = .ok s')
    (hwalk : r.documents.walked s = .ok r.documents.parsed →
      r.documents.walked s' = .ok r.documents.parsed)
    (h : ∀ (settings : Settings) (forced : List Value) (c : Context Record),
      Assembles r.transformers s (s.survivors r.documents.parsed forced)
          (settings.recordedDirectives s) { c with schema := some s } →
        Assembles r.transformers s' (s'.survivors r.documents.parsed forced)
          (settings.recordedDirectives s') { c with schema := some s' })
    {c : Context Record} (hc : ((build r).outcome j).1 = .ok c) :
    ((build { r with source := source' }).outcome j).1 = .ok { c with schema := some s' } := by
  obtain ⟨settings, s₀, forced, ⟨hresolved, hunwrapped, helements⟩, hwalked, hhash,
    hassembles⟩ := build_returns hc
  obtain rfl : s = s₀ := Except.ok.inj (hs.symm.trans hunwrapped)
  have hown : { c with schema := some s } = c := by rw [← hassembles.schema]
  rw [← hown] at hassembles
  have hr' : { r with source := source' }.Resolves j settings s' forced :=
    ⟨hresolved, hs', helements⟩
  exact hr'.returns htells (hwalk hwalked) hhash (h settings forced c hassembles)

/-- Where syntax and deprecation reasons agree, nodes can be taken from any elements of a schema: a
build returns a context as before, and the same one in every field that comparison looks at. It may
have chosen no sink, one of the library, or any whose refusals have texts. -/
theorem build_stripsTo {r : Request Record} {source' : Source} {j : Journal} {s s' : Schema}
    (htells : r.Tells) (ht : r.transformers = .records) (hs : r.source.unwrap = .ok s)
    (hs' : source'.unwrap = .ok s') (hstandard : s.StandardDeprecation)
    (hagree : ∀ c ∈ s.carriers, c.Agrees) (hstrip : s.StripsTo s') :
    (∀ c, ((build r).outcome j).1 = .ok c →
      ((build { r with source := source' }).outcome j).1 = .ok { c with schema := some s' }) ∧
    (∀ c, ((build { r with source := source' }).outcome j).1 = .ok c →
      ((build r).outcome j).1 = .ok { c with schema := some s }) ∧
    ∀ c c', ((build r).outcome j).1 = .ok c →
      ((build { r with source := source' }).outcome j).1 = .ok c' →
      (c'.map Record.toValue).fields.compared = (c.map Record.toValue).fields.compared := by
  have hassembles (settings : Settings) (forced : List Value) (c : Context Record) :
      Assembles .records s (s.survivors r.documents.parsed forced) (settings.recordedDirectives s)
          { c with schema := some s } ↔
        Assembles .records s' (s'.survivors r.documents.parsed forced)
          (settings.recordedDirectives s') { c with schema := some s' } := by
    rw [Schema.assembles_survivors_iff hstandard hagree,
      Schema.assembles_survivors_iff (hstrip.standardDeprecation hstandard) (hstrip.agrees hagree),
      hstrip.same]
  have hwalk : r.documents.walked s' = r.documents.walked s := by
    refine Documents.walked_congr fun _ _ t _ => ?_
    rw [← s'.variableFault?_bare, hstrip.same, s.variableFault?_bare]
  have hforth (c : Context Record) (hc : ((build r).outcome j).1 = .ok c) :
      ((build { r with source := source' }).outcome j).1 = .ok { c with schema := some s' } := by
    refine build_withSource htells hs hs' (hwalk ▸ id) ?_ hc
    intro settings forced c
    rw [ht]
    exact (hassembles settings forced c).1
  have hback (c : Context Record)
      (hc : ((build { r with source := source' }).outcome j).1 = .ok c) :
      ((build r).outcome j).1 = .ok { c with schema := some s } := by
    refine @build_withSource { r with source := source' } r.source j s' s htells hs' hs
      (hwalk ▸ id) ?_ c hc
    intro settings forced c
    rw [ht]
    exact (hassembles settings forced c).2
  refine ⟨hforth, hback, ?_⟩
  intro c c' hc hc'
  obtain rfl : { c with schema := some s' } = c' := Except.ok.inj ((hforth c hc).symm.trans hc')
  rfl

namespace Library

def plainGenre : NamedType :=
  { name := "Genre", description := none, definition := none, extensions := []
    body := .enum
      [{ name := "POETRY", value := .str "POETRY", description := none, deprecation := none
         node := none },
       { name := "VERSE", value := .str "VERSE", description := none
         deprecation := some "POETRY", node := none }] }

/-- The library's schema, which has lost the syntax of its genres and kept that of its books. -/
def plainSchema : Schema :=
  { schema with
    definitions := [book, plainGenre] ++ BuiltIn.types
    typeMap := schema.typeMap.put "Genre" (.type plainGenre) }

theorem schema_standardDeprecation : schema.StandardDeprecation := ⟨rfl, rfl⟩

theorem schema_agrees : ∀ c ∈ schema.carriers, c.Agrees := by
  repeat
    refine List.forall_mem_cons.2 ⟨?_, ?_⟩
    · first
        | exact fun h => absurd rfl h
        | exact fun _ => rfl
        | exact fun _ => ⟨_, rfl, .inl rfl⟩
  exact List.forall_mem_nil _

theorem schema_stripsTo : schema.StripsTo plainSchema := by
  refine ⟨rfl, ?_⟩
  repeat
    refine .cons ?_ ?_
    · first
        | exact .inl rfl
        | exact .inr rfl
  exact .nil

end Library

/-- The library's context has the deprecated genre, with and without the genres' syntax. -/
theorem build_stripsTo_library :
    ∃ c, ((build Library.request).outcome {}).1 = .ok c ∧ c.usesDirectives = true ∧
      ((build { Library.request with source := .schema Library.plainSchema }).outcome {}).1
        = .ok { c with schema := some Library.plainSchema } := by
  refine ⟨_, rfl, rfl, ?_⟩
  exact (build_stripsTo (r := Library.request) (j := {}) (Request.tells_of_default rfl) rfl rfl rfl
    Library.schema_standardDeprecation Library.schema_agrees Library.schema_stripsTo).1 _ rfl

end SchemaContext
