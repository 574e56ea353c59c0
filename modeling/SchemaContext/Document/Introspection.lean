import SchemaContext.Document.Basic
import SchemaContext.Filter
import SchemaContext.FirstOccurrences

/-!
# Introspection enums

Templates need the introspection enums that a query can return, and no other type of
the introspection system. They are found by walking the documents: every field whose
type is an enum with a reserved name contributes that enum, each enum once, in the
order in which it is first met.
-/

namespace SchemaContext

def NamedType.isIntrospectionEnum (t : NamedType) : Bool :=
  t.body.isEnum && isReservedName t.name

/-- Whether an entry of a type map is an introspection enum. -/
def Entry.isIntrospectionEnum (e : Entry) : Bool := e.type?.any NamedType.isIntrospectionEnum

/-- The introspection enums that documents select, each where it is first met. Names are unique
within a schema, so that a type is told from others by its name. -/
def introspectionEnums (s : Schema) (documents : List Document) : List NamedType :=
  firstOccurrences NamedType.name
    ((documents.flatMap (Document.fieldTypes s)).filter NamedType.isIntrospectionEnum)

/-- Whether the type map has a type under its own name. -/
def Schema.mapsToItself (s : Schema) (t : NamedType) : Bool :=
  ((s.typeMap.get? t.name).bind Entry.type?).any fun u => u.name == t.name

end SchemaContext
