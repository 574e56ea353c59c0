import SchemaContext.Value.Basic

/-!
# Layout of the record classes

Each record class has a fixed list of fields, each with the value that it takes
when none is given, and a list of derived entries, which tell of one of the fields
whether it is empty.
-/

namespace SchemaContext
namespace RecordClass

/-- How deeply lists are wrapped around a named type, and where null is allowed. -/
def wrapperFields : Entries Value :=
  [("is_required", .bool false), ("is_array", .bool false), ("is_nullable_array", .bool false),
   ("dimension_of_array", .int 0)]

/-- The fields of a class in order, with the values they take when none is given. -/
def fields : RecordClass → Entries Value
  | type =>
    [("name", .null), ("description", .null), ("fields", .tuple []), ("interfaces", .tuple []),
     ("is_input_type", .bool false), ("directives", .frozen [])]
  | field =>
    [("name", .null), ("type", .null), ("description", .null), ("arguments", .tuple [])]
      ++ wrapperFields ++
    [("is_type", .bool false), ("is_scalar", .bool false), ("is_interface", .bool false),
     ("is_union", .bool false), ("is_input_type", .bool false), ("is_enum", .bool false),
     ("is_deprecated", .bool false), ("deprecation_reason", .null), ("directives", .frozen [])]
  | argument =>
    [("name", .null), ("type", .null), ("description", .null), ("default_value", .null)]
      ++ wrapperFields ++
    [("is_scalar", .bool false), ("is_enum", .bool false), ("is_input_type", .bool false),
     ("directives", .frozen [])]
  | enum =>
    [("name", .null), ("description", .null), ("values", .tuple []), ("directives", .frozen [])]
  | enumValue =>
    [("name", .null), ("value", .null), ("description", .null), ("is_deprecated", .bool false),
     ("deprecation_reason", .null), ("directives", .frozen [])]
  | union =>
    [("name", .null), ("description", .null), ("possible_types", .tuple []),
     ("directives", .frozen [])]
  | interface =>
    [("name", .null), ("description", .null), ("fields", .tuple []),
     ("implementing_types", .tuple []), ("directives", .frozen [])]
  | scalar => [("name", .null), ("description", .null), ("directives", .frozen [])]
  | directive =>
    [("name", .null), ("description", .null), ("locations", .tuple []), ("arguments", .tuple []),
     ("is_repeatable", .bool false)]
  | resolvedType => ("name", .null) :: wrapperFields

/-- Each derived entry with the field of which it says that it is not empty. -/
def derived : RecordClass → List (String × String)
  | type =>
    [("has_fields", "fields"), ("has_interfaces", "interfaces"), ("uses_directives", "directives")]
  | field => [("has_arguments", "arguments"), ("uses_directives", "directives")]
  | enum => [("uses_directives", "directives")]
  | union => [("has_possible_types", "possible_types")]
  | interface =>
    [("has_fields", "fields"), ("has_implementing_types", "implementing_types")]
  | directive => [("has_arguments", "arguments")]
  | argument | enumValue | scalar | resolvedType => []

def all : List RecordClass :=
  [type, field, argument, enum, enumValue, union, interface, scalar, directive, resolvedType]

def name (c : RecordClass) : String := (Value.record c []).sort

def ofName? (s : String) : Option RecordClass := all.find? fun c => c.name == s

/-- A record with the given fields; the others take their usual values. -/
def make (c : RecordClass) (given : Entries Value) : Value :=
  .record c (c.fields.map fun e => (e.1, (given.get? e.1).getD e.2))

theorem ofName?_name (c : RecordClass) : ofName? c.name = some c := by cases c <;> rfl

end RecordClass
end SchemaContext
