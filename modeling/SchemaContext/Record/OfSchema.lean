import SchemaContext.Record.Basic

/-!
# Records of a schema's elements

The record of each kind of element. Making a record reads the directives applied to
the element and to everything inside it, and fails with the first that cannot be read:
of a type its fields in order, then the type; of a field its arguments in order, then
the field; of an enum its values, then the enum.
-/

namespace SchemaContext

namespace Schema

/-- The wrappers of a reference and the kind of the type it points to. -/
def typeUse (s : Schema) (t : TypeRef) : TypeUse :=
  { resolved := t.resolve, kind := (s.body? t.name).map TypeBody.kind }

/-- The names of the object types in the type map that declare an interface, in order. -/
def implementingTypes (s : Schema) (interface : String) : List String :=
  s.typeMap.entries.values.filterMap fun e =>
    match e with
    | .type t =>
      if t.body.isObject && t.body.interfaces.contains interface then some t.name else none
    | .foreign _ => none

end Schema

namespace ArgumentRecord

def ofInputValue (s : Schema) (a : InputValue) : Except ArgumentFault ArgumentRecord := do
  return { name := a.name
           type := s.typeUse a.type
           description := a.description
           default := a.default.getD .null
           directives := ← a.carrier.applied s }

end ArgumentRecord

namespace FieldRecord

def ofField (s : Schema) (f : Field) : Except ArgumentFault FieldRecord := do
  return { name := f.name
           type := s.typeUse f.type
           description := f.description
           arguments := ← f.args.mapM (ArgumentRecord.ofInputValue s)
           deprecation := f.deprecation
           directives := ← f.carrier.applied s }

/-- An input field is a field without arguments. -/
def ofInputField (s : Schema) (f : InputValue) : Except ArgumentFault FieldRecord := do
  return { name := f.name
           type := s.typeUse f.type
           description := f.description
           arguments := []
           deprecation := f.deprecation
           directives := ← f.carrier.applied s }

end FieldRecord

namespace EnumValueRecord

def ofEnumValue (s : Schema) (v : EnumValue) : Except ArgumentFault EnumValueRecord := do
  return { name := v.name
           value := v.value
           description := v.description
           deprecation := v.deprecation
           directives := ← v.carrier.applied s }

end EnumValueRecord

namespace ScalarRecord

/-- What every type has: a name, a description and directives. -/
def ofType (s : Schema) (t : NamedType) : Except ArgumentFault ScalarRecord := do
  return { name := t.name, description := t.description, directives := ← t.carrier.applied s }

end ScalarRecord

namespace DirectiveRecord

def ofDefinition (s : Schema) (d : DirectiveDefinition) : Except ArgumentFault DirectiveRecord := do
  return { name := d.name
           description := d.description
           locations := d.locations
           arguments := ← d.args.mapM (ArgumentRecord.ofInputValue s)
           isRepeatable := d.repeatable }

end DirectiveRecord

namespace Record

/-- The record of a named type. Input objects share the class of objects and list no interfaces. -/
def ofType (s : Schema) (t : NamedType) : Except ArgumentFault Record :=
  match t.body with
  | .object interfaces fields => do
    return .type
      { name := t.name
        description := t.description
        fields := ← fields.mapM (FieldRecord.ofField s)
        interfaces
        isInput := false
        directives := ← t.carrier.applied s }
  | .inputObject _ fields => do
    return .type
      { name := t.name
        description := t.description
        fields := ← fields.mapM (FieldRecord.ofInputField s)
        interfaces := []
        isInput := true
        directives := ← t.carrier.applied s }
  | .interface _ fields => do
    return .interface
      { name := t.name
        description := t.description
        fields := ← fields.mapM (FieldRecord.ofField s)
        implementingTypes := s.implementingTypes t.name
        directives := ← t.carrier.applied s }
  | .enum values => do
    return .enum
      { name := t.name
        description := t.description
        values := ← values.mapM (EnumValueRecord.ofEnumValue s)
        directives := ← t.carrier.applied s }
  | .union members => do
    return .union
      { name := t.name
        description := t.description
        possibleTypes := members
        directives := ← t.carrier.applied s }
  | .scalar _ => do return .scalar (← ScalarRecord.ofType s t)

end Record
end SchemaContext
