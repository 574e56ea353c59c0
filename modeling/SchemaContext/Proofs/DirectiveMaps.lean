import SchemaContext.Proofs.KindLists

/-!
# Directive maps of a context

The flag of a context is computed by a search of its own through the elements of the
schema, the maps of its records by the transformers. The two visit the same elements:
the maps of a record are the applied directives of the carriers of its type, in the same
order. The only element that the search visits and no record shows is an argument of a
directive that gets no record.
-/

namespace SchemaContext

def FieldRecord.directiveMaps (r : FieldRecord) : List Applied :=
  r.directives :: r.arguments.map ArgumentRecord.directives

def Record.directiveMaps : Record → List Applied
  | type r => r.directives :: r.fields.flatMap FieldRecord.directiveMaps
  | interface r => r.directives :: r.fields.flatMap FieldRecord.directiveMaps
  | enum r => r.directives :: r.values.map EnumValueRecord.directives
  | union r => [r.directives]
  | scalar r => [r.directives]
  | directive r => r.arguments.map ArgumentRecord.directives

/-- Every directive map in a context: its own, and those of its records at any depth. -/
def Context.directiveMaps (c : Context Record) : List Applied :=
  c.directives :: c.placed.flatMap (fun r => r.2.directiveMaps)
    ++ c.definedDirectives.flatMap Record.directiveMaps

namespace Carrier

variable {s : Schema}

/-- Whether the directives of an element can be read and there are some. -/
def Carries (s : Schema) (c : Carrier) : Prop := ∃ m, c.applied s = .ok m ∧ m ≠ []

theorem carries_iff {c : Carrier} {m : Applied} (h : c.applied s = .ok m) :
    c.Carries s ↔ m ≠ [] := by
  constructor
  · rintro ⟨m', hm, hne⟩
    obtain rfl : m = m' := Except.ok.inj (h.symm.trans hm)
    exact hne
  · exact fun hne => ⟨m, h, hne⟩

/-- The search tells whether one of the elements carries a directive, unless it fails. -/
theorem anyApplied_eq_ok {cs : List Carrier} {b : Bool} (h : anyApplied s cs = .ok b) :
    b = true ↔ ∃ c ∈ cs, c.Carries s := by
  induction cs with
  | nil =>
    cases h
    simp
  | cons c cs ih =>
    rw [anyApplied] at h
    obtain ⟨m, hm, h⟩ := bind_eq_ok_iff.1 h
    cases m with
    | nil => simp [carries_iff hm, ih h]
    | cons d m =>
      cases h
      simp [carries_iff hm]

theorem exists_carries_iff {cs : List Carrier} {ms : List Applied}
    (h : List.Forall₂ (fun c m => c.applied s = .ok m) cs ms) :
    (∃ c ∈ cs, c.Carries s) ↔ ∃ m ∈ ms, m ≠ [] :=
  exists_iff_of_forall₂ h fun _ _ hm => carries_iff hm

end Carrier

section Records

variable {s : Schema}

theorem applied_arguments {as : List InputValue} {rs : List ArgumentRecord}
    (h : List.Forall₂ (ArgumentRecord.Describes s) as rs) :
    List.Forall₂ (fun c m => c.applied s = .ok m) (as.map InputValue.carrier)
      (rs.map ArgumentRecord.directives) :=
  List.rel_map (fun _ _ hr => hr.directives) h

theorem applied_fields {fs : List Field} {rs : List FieldRecord}
    (h : List.Forall₂ (FieldRecord.Describes s) fs rs) :
    List.Forall₂ (fun c m => c.applied s = .ok m) (fs.flatMap Field.carriers)
      (rs.flatMap FieldRecord.directiveMaps) :=
  List.rel_flatMap h fun _ _ hr => .cons hr.directives (applied_arguments hr.arguments)

theorem applied_inputFields {fs : List InputValue} {rs : List FieldRecord}
    (h : List.Forall₂ (FieldRecord.DescribesInput s) fs rs) :
    List.Forall₂ (fun c m => c.applied s = .ok m) (fs.map InputValue.carrier)
      (rs.flatMap FieldRecord.directiveMaps) := by
  induction h with
  | nil => exact .nil
  | @cons f r fs rs hr _ ih =>
    have hmaps : r.directiveMaps = [r.directives] := by
      rw [FieldRecord.directiveMaps, hr.arguments, List.map_nil]
    rw [List.flatMap_cons, hmaps]
    exact .cons hr.directives ih

theorem applied_carriers {t : NamedType} {r : Record} (h : r.Describes s t) :
    List.Forall₂ (fun c m => c.applied s = .ok m) t.carriers r.directiveMaps := by
  cases h with
  | object body _ _ parts _ directives =>
    rw [NamedType.carriers, body]
    exact .cons directives (applied_fields parts)
  | inputObject body _ _ parts _ _ directives =>
    rw [NamedType.carriers, body]
    exact .cons directives (applied_inputFields parts)
  | interface body _ _ parts _ directives =>
    rw [NamedType.carriers, body]
    exact .cons directives (applied_fields parts)
  | enum body _ _ parts directives =>
    rw [NamedType.carriers, body]
    exact .cons directives (List.rel_map (fun _ _ hr => hr.directives) parts)
  | union body _ _ directives =>
    rw [NamedType.carriers, body]
    exact .cons directives .nil
  | scalar body _ _ directives =>
    rw [NamedType.carriers, body]
    exact .cons directives .nil

theorem applied_kept {kept : Entries Entry} {records : List (Kind × Record)}
    (h : List.Forall₂ (Makes .records s) kept records) :
    List.Forall₂ (fun c m => c.applied s = .ok m) (kept.values.flatMap Entry.carriers)
      (records.flatMap fun r => r.2.directiveMaps) := by
  induction h with
  | nil => exact .nil
  | @cons e r kept records hmade _ ih =>
    obtain ⟨type, he, -, hx⟩ := hmade
    have hcarriers : e.2.carriers = type.carriers := by rw [he, Entry.carriers]
    rw [Entries.values, List.map_cons, List.flatMap_cons, List.flatMap_cons, hcarriers]
    exact List.rel_append (applied_carriers (Transformers.records_ofType_eq_ok_iff.1 hx)) ih

theorem applied_definedDirectives {ds : List DirectiveDefinition} {rs : List Record}
    (h : Transformers.records.ofDirectives s ds = .ok rs) :
    List.Forall₂ (fun c m => c.applied s = .ok m)
      (ds.flatMap fun d => d.args.map InputValue.carrier) (rs.flatMap Record.directiveMaps) := by
  refine List.rel_flatMap (Transformers.records_ofDirectives_eq_ok_iff.1 h) ?_
  rintro d r ⟨x, hx, rfl⟩
  exact applied_arguments hx.arguments

theorem Schema.arguments_subset_carriersWith {ds : List DirectiveDefinition} {entries : List Entry}
    (hds : ds ⊆ s.directives) :
    ds.flatMap (fun d => d.args.map InputValue.carrier) ⊆ s.carriersWith entries := by
  intro c hc
  obtain ⟨d, hd, hc⟩ := List.mem_flatMap.1 hc
  apply List.mem_append_left
  exact List.mem_cons_of_mem _ (List.mem_flatMap.2 ⟨d, hds hd, hc⟩)

/-- The elements that the search goes through carry a directive somewhere if the schema does, an
argument of one of its directives, or a kept type. -/
theorem exists_carriersWith_iff {entries : List Entry} :
    (∃ c ∈ s.carriersWith entries, c.Carries s) ↔
      s.carrier.Carries s ∨ (∃ d ∈ s.directives, ∃ a ∈ d.args, a.carrier.Carries s) ∨
        ∃ c ∈ entries.flatMap Entry.carriers, c.Carries s := by
  rw [Schema.carriersWith, List.cons_append, List.exists_mem_cons_iff]
  simp only [List.mem_append, or_and_right, exists_or]
  refine or_congr_right (or_congr_left ?_)
  constructor
  · rintro ⟨c, hc, hcarries⟩
    obtain ⟨d, hd, hc⟩ := List.mem_flatMap.1 hc
    obtain ⟨a, ha, rfl⟩ := List.mem_map.1 hc
    exact ⟨d, hd, a, ha, hcarries⟩
  · rintro ⟨d, hd, a, ha, hcarries⟩
    exact ⟨a.carrier, List.mem_flatMap.2 ⟨d, hd, List.mem_map_of_mem ha⟩, hcarries⟩

theorem exists_carriers_iff {es : Entries Entry} {p : Carrier → Prop} :
    (∃ c ∈ es.values.flatMap Entry.carriers, p c) ↔ ∃ e ∈ es, ∃ c ∈ e.2.carriers, p c := by
  rw [Entries.values, List.flatMap_map]
  constructor
  · rintro ⟨c, hc, hp⟩
    obtain ⟨e, he, hc⟩ := List.mem_flatMap.1 hc
    exact ⟨e, he, c, hc, hp⟩
  · rintro ⟨e, he, c, hc, hp⟩
    exact ⟨c, List.mem_flatMap.2 ⟨e, he, hc⟩, hp⟩

theorem exists_recorded_iff (settings : Settings) {p : DirectiveDefinition → Prop} :
    (∃ d ∈ s.directives, p d) ↔
      (∃ d ∈ settings.recordedDirectives s, p d) ∨
        (settings.includeSpecifiedDirectives.truthy = false ∧
          ∃ d ∈ s.directives, BuiltIn.isBuiltInDirective d.name = true ∧ p d) := by
  simp only [Settings.recordedDirectives, List.mem_filter, Bool.or_eq_true, Bool.not_eq_true']
  constructor
  · rintro ⟨d, hd, hp⟩
    cases hi : settings.includeSpecifiedDirectives.truthy with
    | true => exact .inl ⟨d, ⟨hd, .inl rfl⟩, hp⟩
    | false =>
      cases hb : BuiltIn.isBuiltInDirective d.name with
      | true => exact .inr ⟨rfl, d, hd, hb, hp⟩
      | false => exact .inl ⟨d, ⟨hd, .inr hb⟩, hp⟩
  · rintro (⟨d, ⟨hd, -⟩, hp⟩ | ⟨-, d, hd, -, hp⟩)
    · exact ⟨d, hd, hp⟩
    · exact ⟨d, hd, hp⟩

theorem exists_directiveMaps_iff {c : Context Record} :
    (∃ m ∈ c.directiveMaps, m ≠ []) ↔
      c.directives ≠ [] ∨ (∃ m ∈ c.definedDirectives.flatMap Record.directiveMaps, m ≠ []) ∨
        ∃ m ∈ c.placed.flatMap fun r => r.2.directiveMaps, m ≠ [] := by
  rw [Context.directiveMaps, List.cons_append, List.exists_mem_cons_iff]
  simp only [List.mem_append, or_and_right, exists_or]
  exact or_congr_right or_comm

theorem recorded_arguments_carry_iff {ds : List DirectiveDefinition} {rs : List Record}
    (h : Transformers.records.ofDirectives s ds = .ok rs) :
    (∃ d ∈ ds, ∃ a ∈ d.args, a.carrier.Carries s) ↔
      ∃ m ∈ rs.flatMap Record.directiveMaps, m ≠ [] := by
  rw [← Carrier.exists_carries_iff (applied_definedDirectives h)]
  simp [List.mem_flatMap, and_assoc]

theorem Assembles.usesDirectives_iff {settings : Settings} {kept : Entries Entry}
    {c : Context Record} (h : Assembles .records s kept (settings.recordedDirectives s) c) :
    c.usesDirectives = true ↔
      (∃ m ∈ c.directiveMaps, m ≠ []) ∨
        (settings.includeSpecifiedDirectives.truthy = false ∧ ∃ d ∈ s.directives,
          BuiltIn.isBuiltInDirective d.name = true ∧ ∃ a ∈ d.args, a.carrier.Carries s) := by
  obtain ⟨records, hmade, hk⟩ := h.made
  have hplaced : (∃ m ∈ records.flatMap fun r => r.2.directiveMaps, m ≠ []) ↔
      ∃ m ∈ c.placed.flatMap fun r => r.2.directiveMaps, m ≠ [] := by
    have hperm := (placed_perm hk).flatMap_right fun r => r.2.directiveMaps
    simp only [hperm.mem_iff]
  rw [Carrier.anyApplied_eq_ok h.uses, exists_carriersWith_iff, Carrier.carries_iff h.applied,
    exists_recorded_iff settings, recorded_arguments_carry_iff h.defined,
    Carrier.exists_carries_iff (applied_kept hmade), hplaced, exists_directiveMaps_iff]
  exact (or_congr_right or_right_comm).trans or_assoc.symm

end Records

/-- The flag of a context that a build returns is set exactly if one of the context's directive maps
is not empty, or if an argument of a built-in directive that gets no record carries a directive.
The settings can only leave out records of directives; where they leave out none, the maps of the
context decide. -/
theorem build_usesDirectives_iff {r : Request Record} {j : Journal} {c : Context Record}
    (ht : r.transformers = .records) (h : ((build r).outcome j).1 = .ok c) :
    ∃ settings s, (r.settings.resolve.outcome j).1 = .ok settings ∧ r.source.unwrap = .ok s ∧
      (c.usesDirectives = true ↔
        (∃ m ∈ c.directiveMaps, m ≠ []) ∨
          (settings.includeSpecifiedDirectives.truthy = false ∧ ∃ d ∈ s.directives,
            BuiltIn.isBuiltInDirective d.name = true ∧ ∃ a ∈ d.args, a.carrier.Carries s)) ∧
      (settings.includeSpecifiedDirectives.truthy = true →
        (c.usesDirectives = true ↔ ∃ m ∈ c.directiveMaps, m ≠ [])) := by
  obtain ⟨settings, s, forced, hr, -, -, hassembles⟩ := build_returns h
  rw [ht] at hassembles
  have huses := hassembles.usesDirectives_iff
  refine ⟨settings, s, hr.resolved, hr.unwrapped, huses, ?_⟩
  intro hinclude
  simpa [hinclude] using huses

/-- Only an enum value of the library has a directive, and the flag is set. -/
theorem build_usesDirectives_library :
    Library.request.transformers = .records ∧ ∃ c, ((build Library.request).outcome {}).1 = .ok c ∧
      c.usesDirectives = true ∧ (∃ m ∈ c.directiveMaps, m ≠ []) ∧
      c.directiveMaps.flatten = Carrier.deprecated "POETRY" := by
  refine ⟨rfl, _, rfl, rfl, ?_, rfl⟩
  obtain ⟨settings, s, hs, -, -, hmaps⟩ :=
    build_usesDirectives_iff (r := Library.request) (j := {}) rfl rfl
  cases hs
  exact (hmaps rfl).1 rfl

end SchemaContext
