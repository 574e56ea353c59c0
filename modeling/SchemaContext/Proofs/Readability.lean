import SchemaContext.Proofs.DirectiveMaps

/-!
# Builds that return

Nothing but the directives of elements can keep a record from being made. Where those of
every element can be read, each type has a record, the search for a use of directives
comes to an end, and a build whose survivors are all types returns a context.
-/

namespace SchemaContext

namespace Carrier

variable {s : Schema}

def Readable (s : Schema) (c : Carrier) : Prop := ∃ m, c.applied s = .ok m

theorem exists_anyApplied {cs : List Carrier} (h : ∀ c ∈ cs, c.Readable s) :
    ∃ b, anyApplied s cs = .ok b := by
  induction cs with
  | nil => exact ⟨false, rfl⟩
  | cons c cs ih =>
    obtain ⟨m, hm⟩ := h c List.mem_cons_self
    obtain ⟨b, hb⟩ := ih fun c hc => h c (List.mem_cons_of_mem _ hc)
    rw [anyApplied, hm]
    cases m with
    | nil => exact ⟨b, hb⟩
    | cons d m => exact ⟨true, rfl⟩

end Carrier

section Records

variable {s : Schema}

theorem exists_argument {a : InputValue} (h : a.carrier.Readable s) :
    ∃ r : ArgumentRecord, r.Describes s a := by
  obtain ⟨directives, ha⟩ := h
  exact ⟨⟨_, _, _, _, directives⟩, rfl, rfl, rfl, rfl, ha⟩

theorem exists_arguments {as : List InputValue}
    (h : ∀ c ∈ as.map InputValue.carrier, c.Readable s) :
    ∃ rs, List.Forall₂ (ArgumentRecord.Describes s) as rs :=
  exists_forall₂ fun _ ha => exists_argument (h _ (List.mem_map_of_mem ha))

theorem exists_fields {fs : List Field} (h : ∀ c ∈ fs.flatMap Field.carriers, c.Readable s) :
    ∃ rs, List.Forall₂ (FieldRecord.Describes s) fs rs := by
  apply exists_forall₂
  intro f hf
  have hcarriers : ∀ c ∈ f.carriers, c.Readable s :=
    fun c hc => h c (List.mem_flatMap.2 ⟨f, hf, hc⟩)
  obtain ⟨directives, hdirectives⟩ := hcarriers _ List.mem_cons_self
  obtain ⟨arguments, harguments⟩ :=
    exists_arguments fun c hc => hcarriers c (List.mem_cons_of_mem _ hc)
  exact ⟨⟨_, _, _, arguments, _, directives⟩, rfl, rfl, rfl, harguments, rfl, hdirectives⟩

theorem exists_record {t : NamedType} (h : ∀ c ∈ t.carriers, c.Readable s) :
    ∃ r : Record, r.Describes s t := by
  obtain ⟨directives, ht⟩ := h _ List.mem_cons_self
  have hparts : ∀ c ∈ t.body.carriers, c.Readable s := fun c hc => h c (List.mem_cons_of_mem _ hc)
  cases hb : t.body with
  | object interfaces fields =>
    rw [hb] at hparts
    obtain ⟨records, hrecords⟩ := exists_fields hparts
    exact ⟨.type ⟨_, _, records, interfaces, _, directives⟩,
      .object hb rfl rfl hrecords rfl ht⟩
  | inputObject oneOf fields =>
    rw [hb] at hparts
    have hfields : ∃ rs, List.Forall₂ (FieldRecord.DescribesInput s) fields rs := by
      apply exists_forall₂
      intro f hf
      obtain ⟨directives, hdirectives⟩ := hparts _ (List.mem_map_of_mem hf)
      exact ⟨⟨_, _, _, [], _, directives⟩, rfl, rfl, rfl, rfl, rfl, hdirectives⟩
    obtain ⟨records, hrecords⟩ := hfields
    exact ⟨.type ⟨_, _, records, [], _, directives⟩,
      .inputObject hb rfl rfl hrecords rfl rfl ht⟩
  | interface interfaces fields =>
    rw [hb] at hparts
    obtain ⟨records, hrecords⟩ := exists_fields hparts
    exact ⟨.interface ⟨_, _, records, _, directives⟩,
      .interface hb rfl rfl hrecords rfl ht⟩
  | enum values =>
    rw [hb] at hparts
    have hvalues : ∃ rs, List.Forall₂ (EnumValueRecord.Describes s) values rs := by
      apply exists_forall₂
      intro v hv
      obtain ⟨directives, hdirectives⟩ := hparts _ (List.mem_map_of_mem hv)
      exact ⟨⟨_, _, _, _, directives⟩, rfl, rfl, rfl, rfl, hdirectives⟩
    obtain ⟨records, hrecords⟩ := hvalues
    exact ⟨.enum ⟨_, _, records, directives⟩, .enum hb rfl rfl hrecords ht⟩
  | union members => exact ⟨.union ⟨_, _, members, directives⟩, .union hb rfl rfl ht⟩
  | scalar reading => exact ⟨.scalar ⟨_, _, directives⟩, .scalar hb rfl rfl ht⟩

theorem exists_definedDirectives {ds : List DirectiveDefinition}
    (h : ∀ c ∈ ds.flatMap (fun d => d.args.map InputValue.carrier), c.Readable s) :
    ∃ rs, Transformers.records.ofDirectives s ds = .ok rs := by
  simp only [Transformers.records_ofDirectives_eq_ok_iff]
  apply exists_forall₂
  intro d hd
  obtain ⟨arguments, harguments⟩ :=
    exists_arguments fun c hc => h c (List.mem_flatMap.2 ⟨d, hd, hc⟩)
  exact ⟨_, ⟨_, _, _, arguments, _⟩, ⟨rfl, rfl, rfl, harguments, rfl⟩, rfl⟩

end Records

/-- A context can be assembled of kept types if the directives of all elements can be read. -/
theorem exists_assembles {s : Schema} {kept : Entries Entry} {directives : List DirectiveDefinition}
    (htypes : ∀ e ∈ kept, ∃ t, e.2 = .type t)
    (hread : ∀ c ∈ s.carriersWith kept.values, c.Readable s)
    (hd : directives ⊆ s.directives) :
    ∃ c, Assembles .records s kept directives c := by
  have hmade : ∃ records, List.Forall₂ (Makes .records s) kept records := by
    apply exists_forall₂
    intro e he
    obtain ⟨t, ht⟩ := htypes e he
    have hcarriers : ∀ c ∈ t.carriers, c.Readable s := by
      intro c hc
      apply hread c
      apply List.mem_append_right
      refine List.mem_flatMap.2 ⟨e.2, List.mem_map_of_mem he, ?_⟩
      rw [ht]
      exact hc
    obtain ⟨r, hr⟩ := exists_record hcarriers
    exact ⟨(t.kind, r), t, ht, rfl, Transformers.records_ofType_eq_ok_iff.2 hr⟩
  obtain ⟨records, hrecords⟩ := hmade
  obtain ⟨defined, hdefined⟩ :=
    exists_definedDirectives fun c hc => hread c (Schema.arguments_subset_carriersWith hd hc)
  obtain ⟨uses, huses⟩ := Carrier.exists_anyApplied hread
  obtain ⟨applied, happlied⟩ := hread _ (List.mem_append_left _ List.mem_cons_self)
  exact ⟨Context.ofRecords records defined applied uses s,
    ⟨records, hrecords, fun k => by rw [Context.ofKind_ofRecords]⟩, hdefined, huses, happlied, rfl⟩

/-- A build returns a context if its documents can be walked, all survivors are types and all
directives can be read. -/
theorem exists_build {r : Request Record} {j : Journal} {settings : Settings} {s : Schema}
    {forced : List Value} (ht : r.transformers = .records) (htells : r.Tells)
    (hr : r.Resolves j settings s forced)
    (hwalked : r.documents.walked s = .ok r.documents.parsed)
    (hforced : ∀ v ∈ forced, v.unhashable? = none)
    (htypes : ∀ e ∈ s.survivors r.documents.parsed forced, ∃ t, e.2 = .type t)
    (hread : ∀ c ∈ s.carriersWith (s.survivors r.documents.parsed forced).values, c.Readable s) :
    ∃ c, ((build r).outcome j).1 = .ok c := by
  have hrecorded : settings.recordedDirectives s ⊆ s.directives := List.filter_subset_self _
  obtain ⟨c, hc⟩ := exists_assembles htypes hread hrecorded
  rw [← ht] at hc
  exact ⟨c, hr.returns htells hwalked hforced hc⟩

end SchemaContext
