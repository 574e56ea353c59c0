import SchemaContext.Schema.BuiltIn

/-!
# Operation documents

A document is a list of operations and fragments. `fieldTypes` gives the named type of
every field that a document selects, in document order and each field before the
fields inside it, as far as the schema tells: an operation starts at the root type of
its sort, a fragment and an inline fragment with a type condition at the type that the
type map has under that name. Spreads are not followed; the fragment they name is a
definition of the document, and is walked as one.
-/

namespace SchemaContext

inductive Selection where
  | field (name : String) (selections : List Selection)
  | spread (fragment : String)
  | inline (on : Option String) (selections : List Selection)

inductive OperationKind where
  | query | mutation | subscription
  deriving DecidableEq, Repr

inductive Definition where
  /-- An operation, with the types of its variables behind its selections. -/
  | operation (kind : OperationKind) (selections : List Selection)
      (variableTypes : List TypeRef := [])
  | fragment (name : String) (on : String) (selections : List Selection)

/-- A parsed document, with the file it came from if it came from one. -/
structure Document where
  definitions : List Definition
  file : Option String

namespace OperationKind

def ofName? : String → Option OperationKind
  | "query" => some query
  | "mutation" => some mutation
  | "subscription" => some subscription
  | _ => none

end OperationKind

namespace Schema

/-- The type at which the operations of a sort start; only an object type can be one. -/
def root? (s : Schema) (k : OperationKind) : Option NamedType :=
  let name? :=
    match k with
    | .query => s.query
    | .mutation => s.mutation
    | .subscription => s.subscription
  (name?.bind s.resolve?).filter fun t => t.body.isObject

/-- The type behind an entry: the type itself, or the one that a foreign object wraps. -/
def behind? (s : Schema) : Entry → Option NamedType
  | .type t => some t
  | .foreign f => f.wraps.bind fun w => s.resolve? w.name

/-- The type that a type condition names: one behind an entry that a field could have. -/
def condition? (s : Schema) (name : String) : Option NamedType :=
  ((s.typeMap.get? name).bind s.behind?).filter fun t => t.body.isOutput

/-- The reference behind a field of a type: its own fields, or those that every schema adds. Those
by which the schema describes itself belong to the query root alone, which is known by its name,
since names are unique within a schema. -/
def fieldTypeName? (s : Schema) (parent : NamedType) (field : String) : Option String :=
  if field = "__schema" ∧ s.query = some parent.name then some "__Schema"
  else if field = "__type" ∧ s.query = some parent.name then some "__Type"
  else if field = "__typename" then some "String"
  else
    match parent.body with
    | .object _ fields | .interface _ fields =>
      (fields.find? fun f => f.name == field).map fun f => f.type.name
    | _ => none

/-- The named type of a field selected where the current type is `current`. -/
def fieldType? (s : Schema) (current : Option NamedType) (field : String) : Option NamedType :=
  ((current.filter fun t => t.body.isComposite).bind fun parent =>
    (s.fieldTypeName? parent field).bind s.resolve?).filter fun t => t.body.isOutput

end Schema

mutual

/-- The types of the fields of one selection, the current type being given. -/
def Selection.fieldTypes (s : Schema) (current : Option NamedType) : Selection → List NamedType
  | .field name selections =>
    let type := s.fieldType? current name
    type.toList ++ selectionsFieldTypes s type selections
  | .spread _ => []
  | .inline on selections =>
    let type :=
      match on with
      | some name => s.condition? name
      | none => current
    selectionsFieldTypes s type selections

/-- The types of the fields of a sequence of selections. -/
def selectionsFieldTypes (s : Schema) (current : Option NamedType) : List Selection → List NamedType
  | [] => []
  | selection :: rest =>
    selection.fieldTypes s current ++ selectionsFieldTypes s current rest

end

namespace Definition

def fieldTypes (s : Schema) : Definition → List NamedType
  | operation kind selections _ => selectionsFieldTypes s (s.root? kind) selections
  | fragment _ on selections => selectionsFieldTypes s (s.condition? on) selections

/-- The types of the variables of a definition. Only operations have variables. -/
def variableTypes : Definition → List TypeRef
  | operation _ _ variableTypes => variableTypes
  | fragment _ _ _ => []

end Definition

namespace Document

/-- The named types of all fields that a document selects, as far as the schema tells. -/
def fieldTypes (s : Schema) (d : Document) : List NamedType :=
  d.definitions.flatMap (Definition.fieldTypes s)

end Document
end SchemaContext
