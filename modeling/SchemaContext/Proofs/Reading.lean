import SchemaContext.Proofs.Outcome

/-!
# Schemas that read alike

Reading the directives of an element asks a schema for two things only: which directives
it declares, and what the body of the type is to which a reference points. Schemas that
agree on these read every literal, every default and every application of a directive
alike. Elements with the same directives have the same records there, but for the
types that implement an interface, which are looked for in the type map.
-/

namespace SchemaContext

/-- The second schema declares the same directives, and its references point to types with the same
bodies. -/
structure Schema.ReadsAs (s s' : Schema) : Prop where
  directives : s'.directives = s.directives
  bodies : ∀ n, s'.body? n = s.body? n

namespace Schema.ReadsAs

variable {s s' : Schema}

section Coercion

theorem leafValue?_eq (h : s.ReadsAs s') (type : String) (l : Literal) :
    Literal.leafValue? s' type l = Literal.leafValue? s type l := by
  simp only [Literal.leafValue?, h.bodies]

mutual

theorem coerce?_eq (h : s.ReadsAs s') :
    (l : Literal) → (t : TypeRef) → l.coerce? s' t = l.coerce? s t
  | .var _, _ => by simp [Literal.coerce?]
  | .null, _ => by simp [Literal.coerce?]
  | .list items, t => by
    cases t with
    | list item required => simp only [Literal.coerce?, h.coerceItems?_eq items]
    | named n required => simp only [Literal.coerce?, h.leafValue?_eq]
  | .object fields, t => by
    simp only [Literal.coerce?, h.bodies, h.leafValue?_eq, h.readFields_eq fields]
  | .int _, _ => by simp only [Literal.coerce?, h.leafValue?_eq]
  | .float _, _ => by simp only [Literal.coerce?, h.leafValue?_eq]
  | .string _, _ => by simp only [Literal.coerce?, h.leafValue?_eq]
  | .bool _, _ => by simp only [Literal.coerce?, h.leafValue?_eq]
  | .enum _, _ => by simp only [Literal.coerce?, h.leafValue?_eq]

theorem coerceItems?_eq (h : s.ReadsAs s') : (items : List Literal) → (t : TypeRef) →
    Literal.coerceItems? s' items t = Literal.coerceItems? s items t
  | [], _ => by simp [Literal.coerceItems?]
  | l :: rest, t => by simp only [Literal.coerceItems?, h.coerce?_eq l, h.coerceItems?_eq rest]

theorem readFields_eq (h : s.ReadsAs s') : (fields : List (String × Literal)) →
    Literal.readFields s' fields = Literal.readFields s fields
  | [] => by simp [Literal.readFields]
  | (k, l) :: rest => by simp only [Literal.readFields, h.coerce?_eq l, h.readFields_eq rest]

end

theorem leafInput_eq (h : s.ReadsAs s') (type : String) (v : Value) :
    v.leafInput s' type = v.leafInput s type := by
  simp only [Value.leafInput, h.bodies]

mutual

theorem coerceInput_eq (h : s.ReadsAs s') :
    (v : Value) → (t : TypeRef) → v.coerceInput s' t = v.coerceInput s t
  | .null, _ => by simp [Value.coerceInput]
  | .list items, t => by
    cases t with
    | list item required => simp only [Value.coerceInput, h.coerceInputItems_eq items]
    | named n required => simp only [Value.coerceInput, h.leafInput_eq]
  | .dict entries, t => by
    simp only [Value.coerceInput, h.bodies, h.leafInput_eq, h.readEntries_eq entries]
  | .bool _, _ => by simp only [Value.coerceInput, h.leafInput_eq]
  | .int _, _ => by simp only [Value.coerceInput, h.leafInput_eq]
  | .float _, _ => by simp only [Value.coerceInput, h.leafInput_eq]
  | .str _, _ => by simp only [Value.coerceInput, h.leafInput_eq]
  | .undefined, _ => by simp only [Value.coerceInput, h.leafInput_eq]
  | .notNumber, _ => by simp only [Value.coerceInput, h.leafInput_eq]
  | .constant _, _ => by simp only [Value.coerceInput, h.leafInput_eq]
  | .tuple _, _ => by simp only [Value.coerceInput, h.leafInput_eq]
  | .frozen _, _ => by simp only [Value.coerceInput, h.leafInput_eq]
  | .record _ _, _ => by simp only [Value.coerceInput, h.leafInput_eq]
  | .object _ _, _ => by simp only [Value.coerceInput, h.leafInput_eq]

theorem coerceInputItems_eq (h : s.ReadsAs s') : (items : List Value) → (t : TypeRef) →
    Value.coerceInputItems s' items t = Value.coerceInputItems s items t
  | [], _ => by simp [Value.coerceInputItems]
  | v :: rest, t => by
    simp only [Value.coerceInputItems, h.coerceInput_eq v, h.coerceInputItems_eq rest]

theorem readEntries_eq (h : s.ReadsAs s') : (entries : List (Value × Value)) →
    Value.readEntries s' entries = Value.readEntries s entries
  | [] => by simp [Value.readEntries]
  | (k, v) :: rest => by simp only [Value.readEntries, h.coerceInput_eq v, h.readEntries_eq rest]

end

end Coercion

section Directives

theorem valueIn_eq (h : s.ReadsAs s') (a : InputValue) (args : List (String × Literal)) :
    a.valueIn s' args = a.valueIn s args := by
  have hdefault : a.defaultValue? s' = a.defaultValue? s := by
    simp only [InputValue.defaultValue?, h.coerceInput_eq, Schema.refersTo, h.bodies]
    rfl
  simp only [InputValue.valueIn, InputValue.absent, hdefault, h.coerce?_eq]

theorem argumentsOf_eq (h : s.ReadsAs s') (d : DirectiveDefinition) (use : DirectiveUse) :
    d.argumentsOf s' use = d.argumentsOf s use := by
  simp only [DirectiveDefinition.argumentsOf, h.valueIn_eq]

theorem applied_eq (h : s.ReadsAs s') (c : Carrier) : c.applied s' = c.applied s := by
  have hone : Carrier.applyOne s' c = Carrier.applyOne s c := by
    funext found d
    simp only [Carrier.applyOne, h.argumentsOf_eq]
  rw [Carrier.applied, Carrier.applied, hone, h.directives]

end Directives

section Records

theorem typeUse_eq (h : s.ReadsAs s') (t : TypeRef) : s'.typeUse t = s.typeUse t := by
  simp only [Schema.typeUse, h.bodies]

theorem ofInputValue_eq (h : s.ReadsAs s') :
    ArgumentRecord.ofInputValue s' = ArgumentRecord.ofInputValue s := by
  funext a
  simp only [ArgumentRecord.ofInputValue, h.applied_eq, h.typeUse_eq]

theorem ofField_eq (h : s.ReadsAs s') : FieldRecord.ofField s' = FieldRecord.ofField s := by
  funext f
  simp only [FieldRecord.ofField, h.applied_eq, h.typeUse_eq, h.ofInputValue_eq]

theorem ofInputField_eq (h : s.ReadsAs s') :
    FieldRecord.ofInputField s' = FieldRecord.ofInputField s := by
  funext f
  simp only [FieldRecord.ofInputField, h.applied_eq, h.typeUse_eq]

theorem ofEnumValue_eq (h : s.ReadsAs s') :
    EnumValueRecord.ofEnumValue s' = EnumValueRecord.ofEnumValue s := by
  funext v
  simp only [EnumValueRecord.ofEnumValue, h.applied_eq]

theorem ofDirectives_eq (h : s.ReadsAs s') :
    Transformers.records.ofDirectives s' = Transformers.records.ofDirectives s := by
  funext ds
  simp only [Transformers.records, DirectiveRecord.ofDefinition, h.ofInputValue_eq]

/-- Types that differ in their nodes at most have the same record if their directives are the same,
unless they are interfaces that are implemented by others. -/
theorem ofType_eq (h : s.ReadsAs s') {t t' : NamedType} (hname : t'.name = t.name)
    (hdescription : t'.description = t.description) (hbody : t'.body = t.body)
    (happlied : t'.carrier.applied s' = t.carrier.applied s)
    (himplementing : t.kind = .interface →
      s'.implementingTypes t.name = s.implementingTypes t.name) :
    Record.ofType s' t' = Record.ofType s t := by
  unfold Record.ofType
  rw [hbody, hname, hdescription]
  cases hb : t.body with
  | interface interfaces fields =>
    have hinterface : t.kind = .interface := by rw [NamedType.kind, hb, TypeBody.kind]
    simp only [h.ofField_eq, happlied, himplementing hinterface]
  | scalar reading => simp only [ScalarRecord.ofType, happlied, hname, hdescription]
  | _ => simp only [h.ofField_eq, h.ofInputField_eq, h.ofEnumValue_eq, happlied]

end Records

end Schema.ReadsAs

theorem Carrier.anyApplied_congr {s s' : Schema} {cs cs' : List Carrier}
    (h : List.Forall₂ (fun c c' => c'.applied s' = c.applied s) cs cs') :
    anyApplied s' cs' = anyApplied s cs := by
  induction h with
  | nil => rfl
  | cons hc _ ih => rw [anyApplied, anyApplied, hc, ih]

/-- The context with another schema behind it, which comparison does not look at. -/
def Context.withSchema (c : Context ρ) (s : Schema) : Context ρ := { c with schema := some s }

/-- Where the same is made of what is kept, and the same directives are found, the contexts are the
same, or there is none for the same reason. -/
theorem assembled_congr {s s' : Schema} {kept kept' : Entries Entry}
    {directives : List DirectiveDefinition}
    (hmade : kept'.mapM (dispatched .records s') = kept.mapM (dispatched .records s))
    (hdefined : Transformers.records.ofDirectives s' directives =
      Transformers.records.ofDirectives s directives)
    (huses : s'.usesDirectives kept'.values = s.usesDirectives kept.values)
    (happlied : s'.carrier.applied s' = s.carrier.applied s) :
    assembled .records s' kept' directives =
      (fun c => c.withSchema s') <$> assembled .records s kept directives := by
  simp only [assembled, hmade, hdefined, huses, happlied, map_bind, map_pure]
  rfl

end SchemaContext
