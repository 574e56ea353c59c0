import SchemaContext.Context.Build
import SchemaContext.Proofs.GivenDocuments
import SchemaContext.Proofs.Survivors

/-!
# Schemas without syntax nodes

A schema whose syntax nodes are all taken away, as one that was never written down. What
references and documents find in it is what they find in the schema, without its nodes:
names, kinds, fields and arguments stay where they are. Only the directives of elements
are looked for elsewhere.
-/

namespace SchemaContext

namespace InputValue

def bare (v : InputValue) : InputValue := { v with node := none }

@[simp] theorem bare_name (v : InputValue) : v.bare.name = v.name := rfl

@[simp] theorem bare_type (v : InputValue) : v.bare.type = v.type := rfl

end InputValue

namespace Field

def bare (f : Field) : Field := { f with args := f.args.map InputValue.bare, node := none }

@[simp] theorem bare_name (f : Field) : f.bare.name = f.name := rfl

@[simp] theorem bare_type (f : Field) : f.bare.type = f.type := rfl

@[simp] theorem bare_args (f : Field) : f.bare.args = f.args.map InputValue.bare := rfl

end Field

def EnumValue.bare (v : EnumValue) : EnumValue := { v with node := none }

namespace TypeBody

def bare : TypeBody → TypeBody
  | object interfaces fields => object interfaces (fields.map Field.bare)
  | interface interfaces fields => interface interfaces (fields.map Field.bare)
  | inputObject oneOf fields => inputObject oneOf (fields.map InputValue.bare)
  | enum values => enum (values.map EnumValue.bare)
  | union members => union members
  | scalar reading => scalar reading

@[simp] theorem kind_bare (b : TypeBody) : b.bare.kind = b.kind := by cases b <;> rfl

@[simp] theorem interfaces_bare (b : TypeBody) : b.bare.interfaces = b.interfaces := by
  cases b <;> rfl

@[simp] theorem isObject_bare (b : TypeBody) : b.bare.isObject = b.isObject := by cases b <;> rfl

@[simp] theorem isEnum_bare (b : TypeBody) : b.bare.isEnum = b.isEnum := by cases b <;> rfl

@[simp] theorem isOutput_bare (b : TypeBody) : b.bare.isOutput = b.isOutput := by cases b <;> rfl

@[simp] theorem isComposite_bare (b : TypeBody) : b.bare.isComposite = b.isComposite := by
  cases b <;> rfl

end TypeBody

namespace NamedType

def bare (t : NamedType) : NamedType :=
  { t with definition := none, extensions := [], body := t.body.bare }

@[simp] theorem bare_name (t : NamedType) : t.bare.name = t.name := rfl

@[simp] theorem bare_body (t : NamedType) : t.bare.body = t.body.bare := rfl

@[simp] theorem kind_bare (t : NamedType) : t.bare.kind = t.kind := t.body.kind_bare

@[simp] theorem isIntrospectionEnum_bare (t : NamedType) :
    t.bare.isIntrospectionEnum = t.isIntrospectionEnum := by
  simp [isIntrospectionEnum]

end NamedType

def Entry.bare : Entry → Entry
  | type t => type t.bare
  | foreign f => foreign f

def DirectiveDefinition.bare (d : DirectiveDefinition) : DirectiveDefinition :=
  { d with args := d.args.map InputValue.bare }

def TypeMap.bare (m : TypeMap) : TypeMap :=
  { entries := m.entries.mapValues Entry.bare
    distinct := by
      unfold Entries.Distinct
      rw [Entries.keys_mapValues]
      exact m.distinct }

namespace Schema

def bare (s : Schema) : Schema :=
  { s with
    definitions := s.definitions.map NamedType.bare
    typeMap := s.typeMap.bare
    directives := s.directives.map DirectiveDefinition.bare
    definition := none
    extensions := [] }

variable (s : Schema)

theorem entries_bare : s.bare.typeMap.entries = s.typeMap.entries.mapValues Entry.bare := rfl

theorem resolve?_bare (n : String) : s.bare.resolve? n = (s.resolve? n).map NamedType.bare := by
  rw [resolve?, resolve?, bare, List.find?_map]
  rfl

theorem typeUse_bare (t : TypeRef) : s.bare.typeUse t = s.typeUse t := by
  simp [typeUse, body?, resolve?_bare, Function.comp_def]

theorem implementingTypes_bare (n : String) :
    s.bare.implementingTypes n = s.implementingTypes n := by
  unfold implementingTypes
  rw [entries_bare, Entries.values_mapValues, List.filterMap_map]
  apply List.filterMap_congr
  rintro (t | f) _
  · simp [Entry.bare]
  · rfl

theorem filter_map_bare {p : TypeBody → Bool} (hp : ∀ b, p b.bare = p b) (t : Option NamedType) :
    (t.map NamedType.bare).filter (fun t => p t.body)
      = (t.filter fun t => p t.body).map NamedType.bare := by
  cases t with
  | none => rfl
  | some t => by_cases h : p t.body <;> simp [Option.filter, hp, h]

theorem bind_resolve?_bare (n : Option String) :
    n.bind s.bare.resolve? = (n.bind s.resolve?).map NamedType.bare := by
  cases n with
  | none => rfl
  | some n => exact s.resolve?_bare n

theorem root?_bare (k : OperationKind) : s.bare.root? k = (s.root? k).map NamedType.bare := by
  have hroot (n : Option String) :
      (n.bind s.bare.resolve?).filter (fun t => t.body.isObject) =
        ((n.bind s.resolve?).filter fun t => t.body.isObject).map NamedType.bare := by
    rw [bind_resolve?_bare, filter_map_bare TypeBody.isObject_bare]
  cases k with
  | query => exact hroot s.query
  | mutation => exact hroot s.mutation
  | subscription => exact hroot s.subscription

theorem behind?_bare (e : Entry) : s.bare.behind? e.bare = (s.behind? e).map NamedType.bare := by
  cases e with
  | type t => rfl
  | foreign f =>
    cases h : f.wraps with
    | none => simp [behind?, Entry.bare, h]
    | some w => simp [behind?, Entry.bare, h, s.resolve?_bare]

theorem condition?_bare (n : String) :
    s.bare.condition? n = (s.condition? n).map NamedType.bare := by
  unfold condition?
  rw [← filter_map_bare TypeBody.isOutput_bare, TypeMap.get?, entries_bare,
    Entries.get?_mapValues]
  cases h : s.typeMap.entries.get? n with
  | none => simp [TypeMap.get?, h]
  | some e => simp [TypeMap.get?, h, s.behind?_bare]

theorem fieldTypeName?_bare (parent : NamedType) (field : String) :
    s.bare.fieldTypeName? parent.bare field = s.fieldTypeName? parent field := by
  unfold fieldTypeName?
  cases hb : parent.body with
  | object interfaces fields => simp [bare, hb, TypeBody.bare, Function.comp_def]
  | interface interfaces fields => simp [bare, hb, TypeBody.bare, Function.comp_def]
  | _ => simp [bare, hb, TypeBody.bare]

theorem fieldType?_bare (current : Option NamedType) (field : String) :
    s.bare.fieldType? (current.map NamedType.bare) field
      = (s.fieldType? current field).map NamedType.bare := by
  unfold fieldType?
  rw [filter_map_bare TypeBody.isComposite_bare, ← filter_map_bare TypeBody.isOutput_bare]
  cases current.filter fun t => t.body.isComposite with
  | none => rfl
  | some parent =>
    simp only [Option.map_some, Option.bind_some, fieldTypeName?_bare, bind_resolve?_bare]

end Schema

mutual

theorem Selection.fieldTypes_bare (s : Schema) (current : Option NamedType) :
    (x : Selection) →
      x.fieldTypes s.bare (current.map NamedType.bare) = (x.fieldTypes s current).map NamedType.bare
  | .field name selections => by
    simp only [Selection.fieldTypes, s.fieldType?_bare, selectionsFieldTypes_bare s _ selections,
      List.map_append, Option.toList_map]
  | .spread _ => by simp [Selection.fieldTypes]
  | .inline none selections => selectionsFieldTypes_bare s current selections
  | .inline (some name) selections => by
    unfold Selection.fieldTypes
    simp only [s.condition?_bare, selectionsFieldTypes_bare s _ selections]

theorem selectionsFieldTypes_bare (s : Schema) (current : Option NamedType) :
    (xs : List Selection) →
      selectionsFieldTypes s.bare (current.map NamedType.bare) xs
        = (selectionsFieldTypes s current xs).map NamedType.bare
  | [] => by simp [selectionsFieldTypes]
  | x :: rest => by
    unfold selectionsFieldTypes
    rw [x.fieldTypes_bare s current, selectionsFieldTypes_bare s current rest, List.map_append]

end

theorem Document.fieldTypes_bare (s : Schema) (d : Document) :
    d.fieldTypes s.bare = (d.fieldTypes s).map NamedType.bare := by
  unfold fieldTypes
  rw [List.map_flatMap]
  apply List.flatMap_congr
  rintro (⟨kind, selections, _⟩ | ⟨name, on, selections⟩) _
  · simp only [Definition.fieldTypes, s.root?_bare, selectionsFieldTypes_bare]
  · simp only [Definition.fieldTypes, s.condition?_bare, selectionsFieldTypes_bare]

namespace Schema

variable {s : Schema} {documents : List Document} {forced : List Value}

theorem mem_introspectionNames_bare {n : String} :
    n ∈ (introspectionEnums s.bare documents).map NamedType.name ↔
      n ∈ (introspectionEnums s documents).map NamedType.name := by
  have hselected : documents.flatMap (Document.fieldTypes s.bare) =
      (documents.flatMap (Document.fieldTypes s)).map NamedType.bare := by
    rw [List.map_flatMap]
    exact List.flatMap_congr fun d _ => d.fieldTypes_bare s
  simp only [introspectionEnums, mem_map_firstOccurrences, hselected, List.filter_map,
    List.map_map, Function.comp_def, NamedType.isIntrospectionEnum_bare, NamedType.bare_name]

theorem survives_bare {key : String} :
    s.bare.Survives documents forced key ↔ s.Survives documents forced key := by
  rw [Survives, Survives, mem_introspectionNames_bare]

theorem survivors_bare :
    s.bare.survivors documents forced = (s.survivors documents forced).mapValues Entry.bare := by
  rw [survivors, survivors, entries_bare, Entries.mapValues, Entries.mapValues, List.filter_map]
  congr 1
  apply List.filter_congr
  intro e _
  simp only [Function.comp_apply, survives_bare]

theorem variableFault?_bare (t : TypeRef) : s.bare.variableFault? t = s.variableFault? t := by
  refine variableFault?_congr fun required => ?_
  rw [TypeMap.get?, entries_bare, Entries.get?_mapValues, TypeMap.get?]
  cases s.typeMap.entries.get? t.name with
  | none => rfl
  | some e => cases e <;> rfl

theorem recordedDirectives_bare (settings : Settings) :
    settings.recordedDirectives s.bare
      = (settings.recordedDirectives s).map DirectiveDefinition.bare := by
  rw [Settings.recordedDirectives, Settings.recordedDirectives, bare, List.filter_map]
  rfl

end Schema

namespace Carrier

def bare (c : Carrier) : Carrier := { c with nodes := [] }

end Carrier

section Carriers

variable {s : Schema}

theorem arguments_carriers_bare (as : List InputValue) :
    (as.map InputValue.bare).map InputValue.carrier
      = (as.map InputValue.carrier).map Carrier.bare := by
  rw [List.map_map, List.map_map]
  rfl

theorem fields_carriers_bare (fs : List Field) :
    (fs.map Field.bare).flatMap Field.carriers = (fs.flatMap Field.carriers).map Carrier.bare := by
  rw [List.flatMap_map, List.map_flatMap]
  apply List.flatMap_congr
  intro f _
  rw [Field.carriers, Field.carriers, List.map_cons, ← arguments_carriers_bare]
  rfl

theorem TypeBody.carriers_bare (b : TypeBody) :
    b.bare.carriers = b.carriers.map Carrier.bare := by
  cases b with
  | object interfaces fields => exact fields_carriers_bare fields
  | interface interfaces fields => exact fields_carriers_bare fields
  | inputObject oneOf fields => exact arguments_carriers_bare fields
  | enum values =>
    rw [bare, carriers, carriers, List.map_map, List.map_map]
    rfl
  | union members => rfl
  | scalar reading => rfl

theorem Entry.carriers_bare (e : Entry) : e.bare.carriers = e.carriers.map Carrier.bare := by
  cases e with
  | type t =>
    change t.bare.carrier :: t.body.bare.carriers = _
    rw [t.body.carriers_bare]
    rfl
  | foreign f => rfl

theorem Schema.carriersWith_bare (kept : Entries Entry) :
    s.bare.carriersWith (kept.mapValues Entry.bare).values
      = (s.carriersWith kept.values).map Carrier.bare := by
  have hentries : (kept.mapValues Entry.bare).values.flatMap Entry.carriers =
      (kept.values.flatMap Entry.carriers).map Carrier.bare := by
    rw [Entries.values_mapValues, List.flatMap_map, List.map_flatMap]
    exact List.flatMap_congr fun e _ => e.carriers_bare
  have hdirectives : s.bare.directives.flatMap (fun d => d.args.map InputValue.carrier) =
      (s.directives.flatMap fun d => d.args.map InputValue.carrier).map Carrier.bare := by
    rw [bare, List.flatMap_map, List.map_flatMap]
    exact List.flatMap_congr fun d _ => arguments_carriers_bare d.args
  rw [carriersWith, carriersWith, hentries, hdirectives, List.map_append, List.map_cons]
  rfl

end Carriers
end SchemaContext
