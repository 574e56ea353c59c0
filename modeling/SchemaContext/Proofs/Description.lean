import SchemaContext.Proofs.Success

/-!
# What records describe

A relation between the elements of a schema and their records, one rule for each kind of
element. A record is made of an element exactly if it describes the element, so that a
record's parts, and the directives read for them, can be taken from the rules.
-/

namespace SchemaContext

variable {s : Schema}

structure ArgumentRecord.Describes (s : Schema) (a : InputValue) (r : ArgumentRecord) : Prop where
  name : r.name = a.name
  type : r.type = s.typeUse a.type
  description : r.description = a.description
  default : r.default = a.default.getD .null
  directives : a.carrier.applied s = .ok r.directives

structure FieldRecord.Describes (s : Schema) (f : Field) (r : FieldRecord) : Prop where
  name : r.name = f.name
  type : r.type = s.typeUse f.type
  description : r.description = f.description
  arguments : List.Forall₂ (ArgumentRecord.Describes s) f.args r.arguments
  deprecation : r.deprecation = f.deprecation
  directives : f.carrier.applied s = .ok r.directives

/-- A record of a field of an input object. -/
structure FieldRecord.DescribesInput (s : Schema) (f : InputValue) (r : FieldRecord) : Prop where
  name : r.name = f.name
  type : r.type = s.typeUse f.type
  description : r.description = f.description
  arguments : r.arguments = []
  deprecation : r.deprecation = f.deprecation
  directives : f.carrier.applied s = .ok r.directives

structure EnumValueRecord.Describes (s : Schema) (v : EnumValue) (r : EnumValueRecord) : Prop where
  name : r.name = v.name
  value : r.value = v.value
  description : r.description = v.description
  deprecation : r.deprecation = v.deprecation
  directives : v.carrier.applied s = .ok r.directives

structure DirectiveRecord.Describes (s : Schema) (d : DirectiveDefinition) (r : DirectiveRecord) :
    Prop where
  name : r.name = d.name
  description : r.description = d.description
  locations : r.locations = d.locations
  arguments : List.Forall₂ (ArgumentRecord.Describes s) d.args r.arguments
  isRepeatable : r.isRepeatable = d.repeatable

/-- A record of a named type, by the kind of the type. -/
inductive Record.Describes (s : Schema) (t : NamedType) : Record → Prop
  | object {fields : List Field} {r : TypeRecord} (body : t.body = .object r.interfaces fields)
      (name : r.name = t.name) (description : r.description = t.description)
      (parts : List.Forall₂ (FieldRecord.Describes s) fields r.fields)
      (isInput : r.isInput = false) (directives : t.carrier.applied s = .ok r.directives) :
      Describes s t (.type r)
  | inputObject {oneOf : Bool} {fields : List InputValue} {r : TypeRecord}
      (body : t.body = .inputObject oneOf fields)
      (name : r.name = t.name) (description : r.description = t.description)
      (parts : List.Forall₂ (FieldRecord.DescribesInput s) fields r.fields)
      (interfaces : r.interfaces = []) (isInput : r.isInput = true)
      (directives : t.carrier.applied s = .ok r.directives) : Describes s t (.type r)
  | interface {interfaces : List String} {fields : List Field} {r : InterfaceRecord}
      (body : t.body = .interface interfaces fields)
      (name : r.name = t.name) (description : r.description = t.description)
      (parts : List.Forall₂ (FieldRecord.Describes s) fields r.fields)
      (implementing : r.implementingTypes = s.implementingTypes t.name)
      (directives : t.carrier.applied s = .ok r.directives) : Describes s t (.interface r)
  | enum {values : List EnumValue} {r : EnumRecord} (body : t.body = .enum values)
      (name : r.name = t.name) (description : r.description = t.description)
      (parts : List.Forall₂ (EnumValueRecord.Describes s) values r.values)
      (directives : t.carrier.applied s = .ok r.directives) : Describes s t (.enum r)
  | union {r : UnionRecord} (body : t.body = .union r.possibleTypes)
      (name : r.name = t.name) (description : r.description = t.description)
      (directives : t.carrier.applied s = .ok r.directives) : Describes s t (.union r)
  | scalar {r : ScalarRecord} {reading : ScalarReading} (body : t.body = .scalar reading)
      (name : r.name = t.name) (description : r.description = t.description)
      (directives : t.carrier.applied s = .ok r.directives) : Describes s t (.scalar r)

theorem ArgumentRecord.ofInputValue_eq_ok_iff {a : InputValue} {r : ArgumentRecord} :
    ofInputValue s a = .ok r ↔ r.Describes s a := by
  unfold ofInputValue
  rw [bind_eq_ok_iff]
  constructor
  · rintro ⟨directives, ha, h⟩
    cases h
    exact ⟨rfl, rfl, rfl, rfl, ha⟩
  · rintro ⟨hn, ht, hd, hv, ha⟩
    obtain ⟨name, type, description, default, directives⟩ := r
    subst hn ht hd hv
    exact ⟨directives, ha, rfl⟩

theorem FieldRecord.ofField_eq_ok_iff {f : Field} {r : FieldRecord} :
    ofField s f = .ok r ↔ r.Describes s f := by
  unfold ofField
  rw [bind_eq_ok_iff]
  simp only [mapM_eq_ok_iff, ArgumentRecord.ofInputValue_eq_ok_iff]
  constructor
  · rintro ⟨arguments, hargs, h⟩
    obtain ⟨directives, hf, h⟩ := bind_eq_ok_iff.1 h
    cases h
    exact ⟨rfl, rfl, rfl, hargs, rfl, hf⟩
  · rintro ⟨hn, ht, hd, hargs, hr, hf⟩
    obtain ⟨name, type, description, arguments, deprecation, directives⟩ := r
    subst hn ht hd hr
    exact ⟨arguments, hargs, bind_eq_ok_iff.2 ⟨directives, hf, rfl⟩⟩

theorem FieldRecord.ofInputField_eq_ok_iff {f : InputValue} {r : FieldRecord} :
    ofInputField s f = .ok r ↔ r.DescribesInput s f := by
  unfold ofInputField
  rw [bind_eq_ok_iff]
  constructor
  · rintro ⟨directives, hf, h⟩
    cases h
    exact ⟨rfl, rfl, rfl, rfl, rfl, hf⟩
  · rintro ⟨hn, ht, hd, hargs, hr, hf⟩
    obtain ⟨name, type, description, arguments, deprecation, directives⟩ := r
    subst hn ht hd hargs hr
    exact ⟨directives, hf, rfl⟩

theorem EnumValueRecord.ofEnumValue_eq_ok_iff {v : EnumValue} {r : EnumValueRecord} :
    ofEnumValue s v = .ok r ↔ r.Describes s v := by
  unfold ofEnumValue
  rw [bind_eq_ok_iff]
  constructor
  · rintro ⟨directives, hv, h⟩
    cases h
    exact ⟨rfl, rfl, rfl, rfl, hv⟩
  · rintro ⟨hn, hw, hd, hr, hv⟩
    obtain ⟨name, value, description, deprecation, directives⟩ := r
    subst hn hw hd hr
    exact ⟨directives, hv, rfl⟩

theorem DirectiveRecord.ofDefinition_eq_ok_iff {d : DirectiveDefinition} {r : DirectiveRecord} :
    ofDefinition s d = .ok r ↔ r.Describes s d := by
  unfold ofDefinition
  rw [bind_eq_ok_iff]
  simp only [mapM_eq_ok_iff, ArgumentRecord.ofInputValue_eq_ok_iff]
  constructor
  · rintro ⟨arguments, hargs, h⟩
    cases h
    exact ⟨rfl, rfl, rfl, hargs, rfl⟩
  · rintro ⟨hn, hd, hl, hargs, hr⟩
    obtain ⟨name, description, locations, arguments, isRepeatable⟩ := r
    subst hn hd hl hr
    exact ⟨arguments, hargs, rfl⟩

theorem Record.describes_of_ofType {t : NamedType} {r : Record} (h : ofType s t = .ok r) :
    r.Describes s t := by
  unfold ofType at h
  cases hb : t.body with
  | object interfaces fields =>
    simp only [hb] at h
    obtain ⟨records, hf, h⟩ := bind_eq_ok_iff.1 h
    obtain ⟨directives, ht, h⟩ := bind_eq_ok_iff.1 h
    cases h
    simp only [mapM_eq_ok_iff, FieldRecord.ofField_eq_ok_iff] at hf
    exact .object hb rfl rfl hf rfl ht
  | inputObject oneOf fields =>
    simp only [hb] at h
    obtain ⟨records, hf, h⟩ := bind_eq_ok_iff.1 h
    obtain ⟨directives, ht, h⟩ := bind_eq_ok_iff.1 h
    cases h
    simp only [mapM_eq_ok_iff, FieldRecord.ofInputField_eq_ok_iff] at hf
    exact .inputObject hb rfl rfl hf rfl rfl ht
  | interface interfaces fields =>
    simp only [hb] at h
    obtain ⟨records, hf, h⟩ := bind_eq_ok_iff.1 h
    obtain ⟨directives, ht, h⟩ := bind_eq_ok_iff.1 h
    cases h
    simp only [mapM_eq_ok_iff, FieldRecord.ofField_eq_ok_iff] at hf
    exact .interface hb rfl rfl hf rfl ht
  | enum values =>
    simp only [hb] at h
    obtain ⟨records, hv, h⟩ := bind_eq_ok_iff.1 h
    obtain ⟨directives, ht, h⟩ := bind_eq_ok_iff.1 h
    cases h
    simp only [mapM_eq_ok_iff, EnumValueRecord.ofEnumValue_eq_ok_iff] at hv
    exact .enum hb rfl rfl hv ht
  | union members =>
    simp only [hb] at h
    obtain ⟨directives, ht, h⟩ := bind_eq_ok_iff.1 h
    cases h
    exact .union hb rfl rfl ht
  | scalar reading =>
    simp only [hb] at h
    obtain ⟨record, hr, h⟩ := bind_eq_ok_iff.1 h
    cases h
    obtain ⟨directives, ht, h⟩ := bind_eq_ok_iff.1 hr
    cases h
    exact .scalar hb rfl rfl ht

theorem Record.Describes.ofType {t : NamedType} {r : Record} (h : r.Describes s t) :
    ofType s t = .ok r := by
  unfold Record.ofType
  cases h with
  | @object fields r hb hn hd hf hi ht =>
    obtain ⟨name, description, records, interfaces, isInput, directives⟩ := r
    subst hn hd hi
    simp only [hb, bind_eq_ok_iff, mapM_eq_ok_iff, FieldRecord.ofField_eq_ok_iff]
    exact ⟨records, hf, directives, ht, rfl⟩
  | @inputObject oneOf fields r hb hn hd hf hs hi ht =>
    obtain ⟨name, description, records, interfaces, isInput, directives⟩ := r
    subst hn hd hs hi
    simp only [hb, bind_eq_ok_iff, mapM_eq_ok_iff, FieldRecord.ofInputField_eq_ok_iff]
    exact ⟨records, hf, directives, ht, rfl⟩
  | @interface interfaces fields r hb hn hd hf hs ht =>
    obtain ⟨name, description, records, implementing, directives⟩ := r
    subst hn hd hs
    simp only [hb, bind_eq_ok_iff, mapM_eq_ok_iff, FieldRecord.ofField_eq_ok_iff]
    exact ⟨records, hf, directives, ht, rfl⟩
  | @enum values r hb hn hd hv ht =>
    obtain ⟨name, description, records, directives⟩ := r
    subst hn hd
    simp only [hb, bind_eq_ok_iff, mapM_eq_ok_iff, EnumValueRecord.ofEnumValue_eq_ok_iff]
    exact ⟨records, hv, directives, ht, rfl⟩
  | @union r hb hn hd ht =>
    obtain ⟨name, description, possible, directives⟩ := r
    subst hn hd
    simp only [hb, bind_eq_ok_iff]
    exact ⟨directives, ht, rfl⟩
  | @scalar r reading hb hn hd ht =>
    obtain ⟨name, description, directives⟩ := r
    subst hn hd
    simp only [hb, bind_eq_ok_iff, ScalarRecord.ofType]
    exact ⟨_, ⟨directives, ht, rfl⟩, rfl⟩

theorem Record.ofType_eq_ok_iff {t : NamedType} {r : Record} :
    ofType s t = .ok r ↔ r.Describes s t := ⟨describes_of_ofType, Describes.ofType⟩

namespace Transformers

theorem records_ofType_eq_ok_iff {k : Kind} {t : NamedType} {r : Record} :
    records.ofType k s t = .ok r ↔ r.Describes s t := by
  rw [records, Failure.ofArguments_eq_ok_iff, Record.ofType_eq_ok_iff]

theorem records_ofDirectives_eq_ok_iff {ds : List DirectiveDefinition} {rs : List Record} :
    records.ofDirectives s ds = .ok rs ↔
      List.Forall₂ (fun d r => ∃ x : DirectiveRecord, x.Describes s d ∧ .directive x = r)
        ds rs := by
  simp only [records, Failure.ofArguments_eq_ok_iff, mapM_eq_ok_iff, map_eq_ok_iff,
    DirectiveRecord.ofDefinition_eq_ok_iff]

end Transformers

theorem Record.Describes.name_eq {t : NamedType} {r : Record} (h : r.Describes s t) :
    r.name = t.name := by
  cases h <;> assumption

end SchemaContext
