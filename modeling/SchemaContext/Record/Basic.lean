import SchemaContext.Record.Layout
import SchemaContext.Directive.Applied
import SchemaContext.Schema.Kind

/-!
# Records

A record describes one element of a schema in the shape that templates consume. Other
types are named, not nested, so that the lists of a context stay independent of each
other. `toValue` lays a record out by the fields of its class.
-/

namespace SchemaContext

/-- The type of a field or an argument: its wrappers, and the kind of the type inside them. -/
structure TypeUse where
  resolved : ResolvedType
  kind : Option Kind
  deriving DecidableEq, Repr

structure ArgumentRecord where
  name : String
  type : TypeUse
  description : Option String
  /-- Null also where there is no default. -/
  default : Value
  directives : Applied

structure FieldRecord where
  name : String
  type : TypeUse
  description : Option String
  arguments : List ArgumentRecord
  deprecation : Option String
  directives : Applied

structure TypeRecord where
  name : String
  description : Option String
  fields : List FieldRecord
  interfaces : List String
  isInput : Bool
  directives : Applied

structure EnumValueRecord where
  name : String
  value : Value
  description : Option String
  deprecation : Option String
  directives : Applied

structure EnumRecord where
  name : String
  description : Option String
  values : List EnumValueRecord
  directives : Applied

structure UnionRecord where
  name : String
  description : Option String
  possibleTypes : List String
  directives : Applied

structure InterfaceRecord where
  name : String
  description : Option String
  fields : List FieldRecord
  implementingTypes : List String
  directives : Applied

structure ScalarRecord where
  name : String
  description : Option String
  directives : Applied

structure DirectiveRecord where
  name : String
  description : Option String
  locations : List String
  arguments : List ArgumentRecord
  isRepeatable : Bool

/-- A record that stands in a list of a context. -/
inductive Record where
  | type (r : TypeRecord)
  | enum (r : EnumRecord)
  | union (r : UnionRecord)
  | interface (r : InterfaceRecord)
  | scalar (r : ScalarRecord)
  | directive (r : DirectiveRecord)

namespace ResolvedType

def wrapperEntries (t : ResolvedType) : Entries Value :=
  [("is_required", .bool t.isRequired), ("is_array", .bool t.isArray),
   ("is_nullable_array", .bool t.isNullableArray), ("dimension_of_array", .int t.dimension)]

def toValue (t : ResolvedType) : Value :=
  .record .resolvedType (("name", .str t.name) :: t.wrapperEntries)

end ResolvedType

namespace TypeUse

def name (t : TypeUse) : String := t.resolved.name

/-- Whether the type inside the wrappers is of a kind. -/
def isOf (t : TypeUse) (k : Kind) : Bool := t.kind == some k

end TypeUse

namespace ArgumentRecord

def toValue (r : ArgumentRecord) : Value :=
  .record .argument <|
    [("name", .str r.name), ("type", .str r.type.name), ("description", .ofText r.description),
     ("default_value", r.default)]
    ++ r.type.resolved.wrapperEntries ++
    [("is_scalar", .bool (r.type.isOf .scalar)), ("is_enum", .bool (r.type.isOf .enum)),
     ("is_input_type", .bool (r.type.isOf .inputObject)), ("directives", r.directives.toValue)]

end ArgumentRecord

namespace FieldRecord

def toValue (r : FieldRecord) : Value :=
  .record .field <|
    [("name", .str r.name), ("type", .str r.type.name), ("description", .ofText r.description),
     ("arguments", .tuple (r.arguments.map ArgumentRecord.toValue))]
    ++ r.type.resolved.wrapperEntries ++
    [("is_type", .bool (r.type.isOf .object)), ("is_scalar", .bool (r.type.isOf .scalar)),
     ("is_interface", .bool (r.type.isOf .interface)), ("is_union", .bool (r.type.isOf .union)),
     ("is_input_type", .bool (r.type.isOf .inputObject)), ("is_enum", .bool (r.type.isOf .enum)),
     ("is_deprecated", .bool r.deprecation.isSome),
     ("deprecation_reason", .ofText r.deprecation), ("directives", r.directives.toValue)]

end FieldRecord

namespace TypeRecord

def toValue (r : TypeRecord) : Value :=
  .record .type
    [("name", .str r.name), ("description", .ofText r.description),
     ("fields", .tuple (r.fields.map FieldRecord.toValue)), ("interfaces", .ofNames r.interfaces),
     ("is_input_type", .bool r.isInput), ("directives", r.directives.toValue)]

end TypeRecord

namespace EnumValueRecord

def toValue (r : EnumValueRecord) : Value :=
  .record .enumValue
    [("name", .str r.name), ("value", r.value), ("description", .ofText r.description),
     ("is_deprecated", .bool r.deprecation.isSome), ("deprecation_reason", .ofText r.deprecation),
     ("directives", r.directives.toValue)]

end EnumValueRecord

namespace EnumRecord

def toValue (r : EnumRecord) : Value :=
  .record .enum
    [("name", .str r.name), ("description", .ofText r.description),
     ("values", .tuple (r.values.map EnumValueRecord.toValue)),
     ("directives", r.directives.toValue)]

end EnumRecord

namespace UnionRecord

def toValue (r : UnionRecord) : Value :=
  .record .union
    [("name", .str r.name), ("description", .ofText r.description),
     ("possible_types", .ofNames r.possibleTypes), ("directives", r.directives.toValue)]

end UnionRecord

namespace InterfaceRecord

def toValue (r : InterfaceRecord) : Value :=
  .record .interface
    [("name", .str r.name), ("description", .ofText r.description),
     ("fields", .tuple (r.fields.map FieldRecord.toValue)),
     ("implementing_types", .ofNames r.implementingTypes), ("directives", r.directives.toValue)]

end InterfaceRecord

namespace ScalarRecord

def toValue (r : ScalarRecord) : Value :=
  .record .scalar
    [("name", .str r.name), ("description", .ofText r.description),
     ("directives", r.directives.toValue)]

end ScalarRecord

namespace DirectiveRecord

def toValue (r : DirectiveRecord) : Value :=
  .record .directive
    [("name", .str r.name), ("description", .ofText r.description),
     ("locations", .ofNames r.locations),
     ("arguments", .tuple (r.arguments.map ArgumentRecord.toValue)),
     ("is_repeatable", .bool r.isRepeatable)]

end DirectiveRecord

namespace Record

def name : Record → String
  | type r => r.name
  | enum r => r.name
  | union r => r.name
  | interface r => r.name
  | scalar r => r.name
  | directive r => r.name

def toValue : Record → Value
  | type r => r.toValue
  | enum r => r.toValue
  | union r => r.toValue
  | interface r => r.toValue
  | scalar r => r.toValue
  | directive r => r.toValue

end Record
end SchemaContext
