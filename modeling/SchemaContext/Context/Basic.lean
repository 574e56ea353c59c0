import SchemaContext.Context.Fields
import SchemaContext.Record.Basic

/-!
# Contexts

A context is what templates are given: for each kind of type a list of records in the
order of the type map, the records of the defined directives, the directives applied
to the schema itself, and whether directives are applied anywhere. Presence flags are
derived from the lists.

The lists hold what the transformers make: `Record`s by default, any values otherwise.
-/

namespace SchemaContext

structure Context (ρ : Type) where
  types : List ρ
  inputTypes : List ρ
  enums : List ρ
  unions : List ρ
  scalars : List ρ
  interfaces : List ρ
  definedDirectives : List ρ
  /-- The directives applied to the schema. -/
  directives : Applied
  usesDirectives : Bool
  /-- The schema that the context was built from. It plays no part in equality. -/
  schema : Option Schema

namespace Context

/-- The list of a kind. -/
def ofKind (c : Context ρ) : Kind → List ρ
  | .object => c.types
  | .inputObject => c.inputTypes
  | .enum => c.enums
  | .union => c.unions
  | .interface => c.interfaces
  | .scalar => c.scalars

def map (f : ρ → σ) (c : Context ρ) : Context σ :=
  { types := c.types.map f
    inputTypes := c.inputTypes.map f
    enums := c.enums.map f
    unions := c.unions.map f
    scalars := c.scalars.map f
    interfaces := c.interfaces.map f
    definedDirectives := c.definedDirectives.map f
    directives := c.directives
    usesDirectives := c.usesDirectives
    schema := c.schema }

/-- The records of a kind among records of all kinds. -/
def select (k : Kind) (records : List (Kind × ρ)) : List ρ :=
  records.filterMap fun r => if r.1 = k then some r.2 else none

/-- The context of records that know their kinds. -/
def ofRecords (records : List (Kind × ρ)) (definedDirectives : List ρ) (directives : Applied)
    (usesDirectives : Bool) (schema : Schema) : Context ρ :=
  { types := select .object records
    inputTypes := select .inputObject records
    enums := select .enum records
    unions := select .union records
    scalars := select .scalar records
    interfaces := select .interface records
    definedDirectives
    directives
    usesDirectives
    schema := some schema }

@[simp] theorem ofKind_ofRecords (records : List (Kind × ρ)) (defined : List ρ) (a : Applied)
    (u : Bool) (s : Schema) (k : Kind) :
    (ofRecords records defined a u s).ofKind k = select k records := by
  cases k <;> rfl

/-- The named lists of a context, in the order of its fields. -/
def lists (c : Context ρ) : List (String × List ρ) :=
  [("types", c.types), ("input_types", c.inputTypes), ("enums", c.enums), ("unions", c.unions),
   ("scalars", c.scalars), ("interfaces", c.interfaces),
   ("defined_directives", c.definedDirectives)]

/-- The schema as a value: an object that plain data does not show. -/
def schemaValue (c : Context ρ) : Value :=
  match c.schema with
  | some _ => .constant "GraphQLSchema"
  | none => .null

/-- The fields of a context, each list as a tuple. -/
def fields (c : Context Value) : Fields :=
  { lists := c.lists.map fun l => (l.1, .tuple l.2)
    directives := c.directives.toValue
    usesDirectives := .bool c.usesDirectives
    schema := c.schemaValue }

/-- A context as plain data for templates; the schema is kept as it is. -/
def toEntries (c : Context Value) : Entries Value := c.fields.plainEntries

end Context
end SchemaContext
