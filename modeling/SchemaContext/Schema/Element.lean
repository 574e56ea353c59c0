import SchemaContext.Directive.Applied
import SchemaContext.Failure
import SchemaContext.Schema.Kind

/-!
# Elements of a schema

An element is the schema itself, an entry of its type map, one of its directives, or
something inside these. What is inside an element is held in collections by name:
the fields of a type, the values of an enum, the arguments of a field or a directive.
A step of a path names a collection and a part in it.
-/

namespace SchemaContext

inductive Element where
  | schema (s : Schema)
  | entry (e : Entry)
  | field (f : Field)
  | inputField (v : InputValue)
  | argument (v : InputValue)
  | value (v : EnumValue)
  | directive (d : DirectiveDefinition)
  /-- What stands for a directive that the schema does not have. -/
  | nothing

/-- A collection and the name of a part in it. -/
structure PathStep where
  collection : String
  name : String

namespace Element

/-- The name of an element's sort, as messages write it. -/
def sort : Element → String
  | schema _ => "GraphQLSchema"
  | entry (.foreign _) => "ForeignType"
  | entry (.type t) =>
    match t.kind with
    | .object => "GraphQLObjectType"
    | .inputObject => "GraphQLInputObjectType"
    | .enum => "GraphQLEnumType"
    | .union => "GraphQLUnionType"
    | .interface => "GraphQLInterfaceType"
    | .scalar => "GraphQLScalarType"
  | field _ => "GraphQLField"
  | inputField _ => "GraphQLInputField"
  | argument _ => "GraphQLArgument"
  | value _ => "GraphQLEnumValue"
  | directive _ => "GraphQLDirective"
  | nothing => (Value.null).sort

/-- Where the directives applied to an element are found; the definition of a directive has none. -/
def carrier : Element → Carrier
  | schema s => s.carrier
  | entry (.foreign f) => f.carrier
  | entry (.type t) => t.carrier
  | field f => f.carrier
  | inputField v | argument v => v.carrier
  | value v => v.carrier
  | directive _ | nothing => ⟨[], none⟩

/-- The parts in a collection of an element, if the element has that collection. -/
def parts? : Element → String → Option (Entries Element)
  | entry (.type t), collection =>
    match t.body, collection with
    | .object _ fields, "fields" | .interface _ fields, "fields" =>
      some (fields.map fun f => (f.name, field f))
    | .inputObject _ fields, "fields" => some (fields.map fun f => (f.name, inputField f))
    | .enum values, "values" => some (values.map fun v => (v.name, value v))
    | _, _ => none
  | field f, "args" => some (f.args.map fun a => (a.name, argument a))
  | directive d, "args" => some (d.args.map fun a => (a.name, argument a))
  | _, _ => none

def part (e : Element) (step : PathStep) : Except Failure Element :=
  match e.parts? step.collection with
  | none => .error (.missingAttribute e.sort step.collection)
  | some parts =>
    match parts.get? step.name with
    | some p => .ok p
    | none => .error (.missingKey (.str step.name))

/-- The part of an element to which a path leads. -/
def descend (e : Element) (path : List PathStep) : Except Failure Element := path.foldlM part e

end Element

namespace Schema

/-- The entry of the type map under a key that should be there. -/
def entryAt (s : Schema) (key : String) : Except Failure Entry :=
  match s.typeMap.get? key with
  | some e => .ok e
  | none => .error (.missingKey (.str key))

/-- The type that a reference by name points to and that should be there. -/
def typeNamed (s : Schema) (name : String) : Except Failure NamedType :=
  match s.resolve? name with
  | some t => .ok t
  | none => .error (.missingKey (.str name))

/-- The first directive of a name. -/
def directiveElement (s : Schema) (name : String) : Element :=
  match s.directives.find? fun d => d.name == name with
  | some d => .directive d
  | none => .nothing

/-- The directives applied to an element. -/
def appliedTo (s : Schema) (e : Element) : Except Failure Applied :=
  Failure.ofArguments (e.carrier.applied s)

end Schema
end SchemaContext
