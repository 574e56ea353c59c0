import SchemaContext.Proofs.FirstFailure
import SchemaContext.Proofs.Outcome
import SchemaContext.Proofs.Readability

/-!
# The order in which directives are read

An assembly of default records reads the directives of one element after the other: for
each type what is inside it and then the type, a field after its arguments; then the
arguments of the directives, and last the schema. It fails exactly as this reading does,
at the first element whose directives cannot be read. The search for a use of directives
goes through the same elements in another order, and meets no failure of its own.
-/

namespace SchemaContext

def Field.readingOrder (f : Field) : List Carrier := f.args.map InputValue.carrier ++ [f.carrier]

def TypeBody.readingOrder : TypeBody → List Carrier
  | object _ fields | interface _ fields => fields.flatMap Field.readingOrder
  | inputObject _ fields => fields.map InputValue.carrier
  | enum values => values.map EnumValue.carrier
  | union _ | scalar _ => []

def NamedType.readingOrder (t : NamedType) : List Carrier := t.body.readingOrder ++ [t.carrier]

def DirectiveDefinition.readingOrder (ds : List DirectiveDefinition) : List Carrier :=
  ds.flatMap fun d => d.args.map InputValue.carrier

/-- The elements of a schema, of its types only the given ones, as they are read: the types in
order, then the arguments of the directives, then the schema itself. -/
def Schema.readingOrder (s : Schema) (types : List NamedType) : List Carrier :=
  types.flatMap NamedType.readingOrder
    ++ (DirectiveDefinition.readingOrder s.directives ++ [s.carrier])

section Records

variable {s : Schema}

theorem ArgumentRecord.failsAs (a : InputValue) :
    FailsAs (ofInputValue s a) (a.carrier.applied s) :=
  (FailsAs.refl _).bind_pure

theorem ArgumentRecord.mapM_failsAs (as : List InputValue) :
    FailsAs (as.mapM (ofInputValue s)) ((as.map InputValue.carrier).mapM (Carrier.applied s)) :=
  FailsAs.mapM_map as failsAs

theorem FieldRecord.failsAs (f : Field) :
    FailsAs (ofField s f) (f.readingOrder.mapM (Carrier.applied s)) :=
  (ArgumentRecord.mapM_failsAs f.args).append fun _ _ => (FailsAs.single f.carrier).bind_pure

theorem FieldRecord.mapM_failsAs (fs : List Field) :
    FailsAs (fs.mapM (ofField s)) ((fs.flatMap Field.readingOrder).mapM (Carrier.applied s)) :=
  FailsAs.mapM fun f _ => failsAs f

theorem FieldRecord.mapM_input_failsAs (fs : List InputValue) :
    FailsAs (fs.mapM (ofInputField s)) ((fs.map InputValue.carrier).mapM (Carrier.applied s)) :=
  FailsAs.mapM_map fs fun _ => (FailsAs.refl _).bind_pure

theorem EnumValueRecord.mapM_failsAs (vs : List EnumValue) :
    FailsAs (vs.mapM (ofEnumValue s)) ((vs.map EnumValue.carrier).mapM (Carrier.applied s)) :=
  FailsAs.mapM_map vs fun _ => (FailsAs.refl _).bind_pure

theorem Record.failsAs (t : NamedType) :
    FailsAs (ofType s t) (t.readingOrder.mapM (Carrier.applied s)) := by
  have htype : FailsAs (t.carrier.applied s) ([t.carrier].mapM (Carrier.applied s)) :=
    FailsAs.single t.carrier
  unfold ofType NamedType.readingOrder
  cases t.body with
  | object interfaces fields =>
    exact (FieldRecord.mapM_failsAs fields).append fun _ _ => htype.bind_pure
  | inputObject oneOf fields =>
    exact (FieldRecord.mapM_input_failsAs fields).append fun _ _ => htype.bind_pure
  | interface interfaces fields =>
    exact (FieldRecord.mapM_failsAs fields).append fun _ _ => htype.bind_pure
  | enum values => exact (EnumValueRecord.mapM_failsAs values).append fun _ _ => htype.bind_pure
  | union members => exact htype.bind_pure
  | scalar reading => exact htype.bind_pure.bind_pure

theorem DirectiveRecord.mapM_failsAs (ds : List DirectiveDefinition) :
    FailsAs (ds.mapM fun d => Record.directive <$> ofDefinition s d)
      ((DirectiveDefinition.readingOrder ds).mapM (Carrier.applied s)) := by
  refine FailsAs.mapM fun d _ => ?_
  rw [map_eq_pure_bind]
  exact (ArgumentRecord.mapM_failsAs d.args).bind_pure.bind_pure

end Records

def Schema.read (s : Schema) (c : Carrier) : Except Failure Applied :=
  Failure.ofArguments (c.applied s)

section Assembly

variable {s : Schema} {kept : Entries Entry}

theorem Schema.mapM_read (cs : List Carrier) :
    cs.mapM s.read = Failure.ofArguments (cs.mapM (Carrier.applied s)) :=
  mapM_mapError Failure.argument (Carrier.applied s) cs

theorem dispatched_failsAs (key : String) (t : NamedType) :
    FailsAs (dispatched .records s (key, .type t)) (t.readingOrder.mapM s.read) := by
  rw [Schema.mapM_read]
  exact (Record.failsAs t).mapError Failure.argument |>.bind_pure

theorem mapM_dispatched_failsAs (htypes : ∀ e ∈ kept, ∃ t, e.2 = .type t) :
    FailsAs (kept.mapM (dispatched .records s))
      ((kept.types.flatMap NamedType.readingOrder).mapM s.read) := by
  induction kept with
  | nil => exact FailsAs.ok [] []
  | cons e kept ih =>
    obtain ⟨⟨t, ht⟩, hkept⟩ := List.forall_mem_cons.1 htypes
    obtain ⟨key, entry⟩ := e
    subst ht
    have horder : Entries.types ((key, .type t) :: kept) = t :: Entries.types kept := rfl
    rw [List.mapM_cons, horder, List.flatMap_cons]
    exact (dispatched_failsAs key t).append fun _ _ => (ih hkept).bind_pure

theorem ofDirectives_failsAs (ds : List DirectiveDefinition) :
    FailsAs (Transformers.records.ofDirectives s ds)
      ((DirectiveDefinition.readingOrder ds).mapM s.read) := by
  rw [Schema.mapM_read]
  exact (DirectiveRecord.mapM_failsAs ds).mapError Failure.argument

/-- Where the types and the arguments of the directives could be read, the search for a use of
directives fails only if the schema itself cannot be read, and as this does. -/
theorem usesDirectives_failsAs {entries : List Entry}
    (hread : ∀ c ∈ DirectiveDefinition.readingOrder s.directives ++ entries.flatMap Entry.carriers,
      c.Readable s) : FailsAs (s.usesDirectives entries) (s.carrier.applied s) := by
  have hrest : s.carriersWith entries = s.carrier ::
      (DirectiveDefinition.readingOrder s.directives ++ entries.flatMap Entry.carriers) := rfl
  rw [Schema.usesDirectives, hrest, Carrier.anyApplied]
  refine (FailsAs.refl (s.carrier.applied s)).bind_ok fun m _ => ?_
  cases m with
  | nil => exact Carrier.exists_anyApplied hread
  | cons d m => exact ⟨true, rfl⟩

theorem readable_of_made {records : List (Kind × Record)} {defined : List Record}
    (hrecords : kept.mapM (dispatched .records s) = .ok records)
    (hdefined : Transformers.records.ofDirectives s s.directives = .ok defined) :
    ∀ c ∈ DirectiveDefinition.readingOrder s.directives ++ kept.values.flatMap Entry.carriers,
      c.Readable s := by
  have hmade : List.Forall₂ (Makes .records s) kept records :=
    (mapM_eq_ok_iff.1 hrecords).imp fun _ _ => dispatched_eq_ok_iff.1
  intro c hc
  rcases List.mem_append.1 hc with hc | hc
  · obtain ⟨m, -, hm⟩ := exists_mem_of_forall₂ (applied_definedDirectives hdefined).flip hc
    exact ⟨m, hm⟩
  · obtain ⟨m, -, hm⟩ := exists_mem_of_forall₂ (applied_kept hmade).flip hc
    exact ⟨m, hm⟩

/-- The assembly of default records fails as the reading in order does. -/
theorem assembled_failsAs (htypes : ∀ e ∈ kept, ∃ t, e.2 = .type t) :
    FailsAs (assembled .records s kept s.directives)
      ((s.readingOrder kept.types).mapM s.read) := by
  refine (mapM_dispatched_failsAs htypes).append fun records hrecords => ?_
  refine (ofDirectives_failsAs s.directives).append fun defined hdefined => ?_
  have huses : FailsAs (Failure.ofArguments (s.usesDirectives kept.values)) (s.read s.carrier) :=
    (usesDirectives_failsAs (readable_of_made hrecords hdefined)).mapError Failure.argument
  refine (huses.trans (FailsAs.single s.carrier)).bind_ok fun uses h => ?_
  obtain ⟨applied, happlied⟩ := huses.succeeds_iff.1 ⟨uses, h⟩
  exact ⟨_, bind_eq_ok_iff.2 ⟨applied, happlied, rfl⟩⟩

end Assembly

/-- A fault of the first of the elements whose directives cannot be read. -/
def Schema.FirstFault (s : Schema) (cs : List Carrier) (fault : ArgumentFault) : Prop :=
  ∃ before c after, cs = before ++ c :: after ∧ (∀ b ∈ before, b.Readable s) ∧
    c.applied s = .error fault

theorem Schema.exists_read_iff {s : Schema} {c : Carrier} :
    (∃ m, s.read c = .ok m) ↔ c.Readable s := by
  simp only [read, Failure.ofArguments_eq_ok_iff]
  rfl

theorem Schema.mapM_read_eq_error_iff {s : Schema} {cs : List Carrier} {f : Failure} :
    cs.mapM s.read = .error f ↔ ∃ fault, s.FirstFault cs fault ∧ f = .argument fault := by
  have hfirst (fault : ArgumentFault) :
      cs.mapM (Carrier.applied s) = .error fault ↔ s.FirstFault cs fault := mapM_eq_error_iff
  rw [mapM_read, Failure.ofArguments, mapError_eq_error_iff]
  simp only [hfirst, @eq_comm _ f]

/-- An assembly of types into default records returns a context exactly if the directives of every
element can be read; otherwise it fails with the fault of the first element, in reading order, for
which they cannot. Where the settings leave out no directive, a build whose documents can be walked
comes to what the assembly of its survivors comes to, whatever sink of the library it reports to.
The search for a use of directives fails, where all records could be made, only as the reading of
the schema itself does. -/
theorem build_reads_in_order :
    (∀ {s : Schema} {kept : Entries Entry} {j : Journal}, (∀ e ∈ kept, ∃ t, e.2 = .type t) →
      ((∃ c, ((assemble .records s kept s.directives).outcome j).1 = .ok c) ↔
        ∀ c ∈ s.readingOrder kept.types, c.Readable s) ∧
      ∀ f, ((assemble .records s kept s.directives).outcome j).1 = .error f ↔
        ∃ fault, s.FirstFault (s.readingOrder kept.types) fault ∧ f = .argument fault) ∧
    (∀ {r : Request Record} {j : Journal} {settings : Settings} {s : Schema} {forced : List Value},
      r.transformers = .records → r.Tells → r.Resolves j settings s forced →
      r.documents.walked s = .ok r.documents.parsed →
      (∀ v ∈ forced, v.unhashable? = none) →
      settings.includeSpecifiedDirectives.truthy = true →
        ((build r).outcome j).1 =
          ((assemble .records s (s.survivors r.documents.parsed forced)
            s.directives).outcome j).1) ∧
    (∀ {s : Schema} {kept : Entries Entry} {records : List (Kind × Record)} {defined : List Record}
        {fault : ArgumentFault},
      kept.mapM (dispatched .records s) = .ok records →
      Transformers.records.ofDirectives s s.directives = .ok defined →
      s.usesDirectives kept.values = .error fault → s.carrier.applied s = .error fault) := by
  refine ⟨?_, ?_, ?_⟩
  · intro s kept j htypes
    have hfails := assembled_failsAs (s := s) htypes
    rw [assemble_yields _ s kept s.directives j]
    constructor
    · rw [hfails.succeeds_iff, exists_mapM_iff]
      simp only [Schema.exists_read_iff]
    · intro f
      rw [hfails f, Schema.mapM_read_eq_error_iff]
  · intro r j settings s forced ht htells hr hwalked hforced hinclude
    have hall : settings.recordedDirectives s = s.directives := by
      simp [Settings.recordedDirectives, hinclude]
    rw [build_yields htells j, hr.result_eq hwalked hforced,
      assemble_yields _ s _ s.directives j, ht, hall]
  · intro s kept records defined fault hrecords hdefined huses
    exact (usesDirectives_failsAs (readable_of_made hrecords hdefined) fault).1 huses

namespace Library

/-- A use of a directive whose argument is not of the type that the directive declares. -/
def misprint (text : String) : List DirectiveUse := [⟨"deprecated", [("reason", .int text)]⟩]

/-- The genres with a misprint on the type and one on a value. -/
def misprintedGenre : NamedType :=
  { genre with
    definition := some (misprint "1")
    body := .enum
      [{ name := "VERSE", value := .str "VERSE", description := none, deprecation := none
         node := some (misprint "2") }] }

def misprintedDefinition : Schema := { schema with definition := some (misprint "3") }

def misprintedSchema : Schema :=
  { misprintedDefinition with typeMap := schema.typeMap.put "Genre" (.type misprintedGenre) }

def misprintedRequest : Request Record := { request with source := .schema misprintedSchema }

theorem misprintedRequest_resolves :
    misprintedRequest.Resolves {} { forcedTypes := .tuple [.str "String"] } misprintedSchema
      [.str "String"] :=
  ⟨rfl, rfl, rfl⟩

end Library

/-- Of three misprints in the library the one on an enum value is met first and ends the build. The
one on the schema's definition alone is met by the search, and by the reading of the definition. -/
theorem build_reads_misprints_in_order :
    ((build Library.misprintedRequest).outcome {}).1 =
        .error (.argument (.invalid "reason" (.int "2"))) ∧
      Library.misprintedSchema.FirstFault
        (Library.misprintedSchema.readingOrder
          (Library.misprintedSchema.survivors [] [.str "String"]).types)
        (.invalid "reason" (.int "2")) ∧
      Library.misprintedDefinition.carrier.applied Library.misprintedDefinition =
        .error (.invalid "reason" (.int "3")) := by
  have hfails : ((build Library.misprintedRequest).outcome {}).1 =
      .error (.argument (.invalid "reason" (.int "2"))) := rfl
  have htypes : ∀ e ∈ Library.misprintedSchema.survivors [] [.str "String"],
      ∃ t, e.2 = .type t := by
    have hsome : ∀ e ∈ Library.misprintedSchema.survivors [] [.str "String"],
        e.2.type?.isSome = true := by decide
    intro e he
    have hsome := hsome e he
    cases htype : e.2 with
    | type t => exact ⟨t, rfl⟩
    | foreign x => simp [htype, Entry.type?] at hsome
  have hforced : ∀ v ∈ [Value.str "String"], v.unhashable? = none := by simp [Value.unhashable?]
  refine ⟨hfails, ?_, ?_⟩
  · rw [build_reads_in_order.2.1 rfl (Request.tells_of_default rfl)
      Library.misprintedRequest_resolves rfl hforced rfl] at hfails
    obtain ⟨fault, hfault, heq⟩ := ((build_reads_in_order.1 htypes).2 _).1 hfails
    cases heq
    exact hfault
  · have hsearch : Library.misprintedDefinition.usesDirectives
        (Library.misprintedDefinition.survivors [] [.str "String"]).values =
          .error (.invalid "reason" (.int "3")) := rfl
    obtain ⟨records, hrecords⟩ : ∃ records,
        (Library.misprintedDefinition.survivors [] [.str "String"]).mapM
          (dispatched .records Library.misprintedDefinition) = .ok records := ⟨_, rfl⟩
    obtain ⟨defined, hdefined⟩ : ∃ defined, Transformers.records.ofDirectives
        Library.misprintedDefinition Library.misprintedDefinition.directives = .ok defined :=
      ⟨_, rfl⟩
    exact build_reads_in_order.2.2 hrecords hdefined hsearch

end SchemaContext
