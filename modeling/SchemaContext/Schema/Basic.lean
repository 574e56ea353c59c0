import SchemaContext.Schema.TypeRef
import SchemaContext.Schema.Literal

/-!
# Schemas

A schema holds the definitions that references by name point to, and a type map: an
ordered map from keys to type objects, which is what a context is built from. The two
are kept apart because the type map can be edited after the schema is finished, so
that a key differs from the name of its type, a type is missing, or a foreign object
stands where a type should; references keep pointing to the definitions.

An element that directives can be applied to (the schema itself, a type, a field, an
argument, an enum value) is seen through its `Carrier`: the syntax nodes that define
and extend it, and its deprecation reason.
-/

namespace SchemaContext

/-- A directive applied on a syntax node, with its arguments as written. -/
structure DirectiveUse where
  name : String
  args : List (String × Literal)

/-- The syntax nodes of an element, each with the directives applied on it, and the element's
deprecation reason. The reason is independent of the nodes. -/
structure Carrier where
  nodes : List (List DirectiveUse)
  deprecation : Option String

/-- An argument or an input field. -/
structure InputValue where
  name : String
  type : TypeRef
  default : Option Value
  description : Option String
  deprecation : Option String
  node : Option (List DirectiveUse)

structure Field where
  name : String
  type : TypeRef
  args : List InputValue
  description : Option String
  deprecation : Option String
  node : Option (List DirectiveUse)

structure EnumValue where
  name : String
  value : Value
  description : Option String
  deprecation : Option String
  node : Option (List DirectiveUse)

/-- How a scalar reads what is given for it. -/
structure ScalarReading where
  /-- The value of a literal, if the scalar admits it. -/
  literal : Literal → Option Value := fun l => some l.untyped
  /-- What the scalar makes of a value that it admits. -/
  value : Value → Value := id

/-- What makes a type one of its kind. Interfaces and members are references by name. -/
inductive TypeBody where
  | object (interfaces : List String) (fields : List Field)
  | interface (interfaces : List String) (fields : List Field)
  | inputObject (oneOf : Bool) (fields : List InputValue)
  | enum (values : List EnumValue)
  | union (members : List String)
  | scalar (reading : ScalarReading := {})

structure NamedType where
  name : String
  description : Option String
  definition : Option (List DirectiveUse)
  extensions : List (List DirectiveUse)
  body : TypeBody

/-- What a list of a type, or a required type, is made of: the type by name, and whether null is
excluded at the outermost layer. -/
structure Wrapper where
  name : String
  required : Bool
  deriving DecidableEq, Repr

/-- An object that is no type of a schema. It may have a name and a deprecation reason, and it may
be a list of a type or a required type, which are no types by themselves. -/
structure Foreign where
  text : String
  name : Option String
  deprecation : Option String
  /-- The name of the object's class. -/
  sort : String := "object"
  wraps : Option Wrapper := none
  deriving DecidableEq, Repr

/-- What stands under a key of a type map. -/
inductive Entry where
  | type (t : NamedType)
  | foreign (f : Foreign)

structure DirectiveDefinition where
  name : String
  locations : List String
  args : List InputValue
  repeatable : Bool
  description : Option String

/-- The types of a schema by key, in order. -/
structure TypeMap where
  entries : Entries Entry
  distinct : entries.Distinct := by exact Entries.distinct_nil

structure Schema where
  definitions : List NamedType
  typeMap : TypeMap
  query : Option String
  mutation : Option String
  subscription : Option String
  directives : List DirectiveDefinition
  definition : Option (List DirectiveUse)
  extensions : List (List DirectiveUse)

namespace InputValue

def carrier (v : InputValue) : Carrier := ⟨v.node.toList, v.deprecation⟩

end InputValue

namespace Field

def carrier (f : Field) : Carrier := ⟨f.node.toList, f.deprecation⟩

/-- The field and its arguments. -/
def carriers (f : Field) : List Carrier := f.carrier :: f.args.map InputValue.carrier

end Field

namespace EnumValue

def carrier (v : EnumValue) : Carrier := ⟨v.node.toList, v.deprecation⟩

end EnumValue

namespace TypeBody

def interfaces : TypeBody → List String
  | object interfaces _ | interface interfaces _ => interfaces
  | _ => []

/-- The elements inside a type that can carry directives. -/
def carriers : TypeBody → List Carrier
  | object _ fields | interface _ fields => fields.flatMap Field.carriers
  | inputObject _ fields => fields.map InputValue.carrier
  | enum values => values.map EnumValue.carrier
  | union _ | scalar _ => []

/-- The names of the types that a type refers to, in the order of reference. -/
def references : TypeBody → List String
  | object interfaces fields | interface interfaces fields =>
    interfaces ++ fields.flatMap fun f => f.type.name :: f.args.map fun a => a.type.name
  | inputObject _ fields => fields.map fun f => f.type.name
  | union members => members
  | enum _ | scalar _ => []

def isObject : TypeBody → Bool
  | object _ _ => true
  | _ => false

def isInterface : TypeBody → Bool
  | interface _ _ => true
  | _ => false

def isInputObject : TypeBody → Bool
  | inputObject _ _ => true
  | _ => false

def isEnum : TypeBody → Bool
  | enum _ => true
  | _ => false

def isUnion : TypeBody → Bool
  | union _ => true
  | _ => false

def isScalar : TypeBody → Bool
  | scalar _ => true
  | _ => false

/-- Objects, interfaces and unions can be selected from. -/
def isComposite (b : TypeBody) : Bool := b.isObject || b.isInterface || b.isUnion

/-- All but input objects can be the type of a field. -/
def isOutput (b : TypeBody) : Bool := !b.isInputObject

end TypeBody

namespace NamedType

def carrier (t : NamedType) : Carrier := ⟨t.definition.toList ++ t.extensions, none⟩

/-- The type and every element inside it that can carry directives. -/
def carriers (t : NamedType) : List Carrier := t.carrier :: t.body.carriers

end NamedType

namespace Foreign

def carrier (f : Foreign) : Carrier := ⟨[], f.deprecation⟩

end Foreign

namespace Entry

def carriers : Entry → List Carrier
  | type t => t.carriers
  | foreign f => [f.carrier]

def type? : Entry → Option NamedType
  | type t => some t
  | foreign _ => none

end Entry

namespace TypeMap

def empty : TypeMap := { entries := [] }

def size (m : TypeMap) : Nat := m.entries.length

def keys (m : TypeMap) : List String := m.entries.keys

def get? (m : TypeMap) (key : String) : Option Entry := m.entries.get? key

/-- A known key keeps its place, a new key goes last. -/
def put (m : TypeMap) (key : String) (e : Entry) : TypeMap :=
  ⟨m.entries.put key e, m.distinct.put key e⟩

def erase (m : TypeMap) (key : String) : TypeMap := ⟨m.entries.erase key, m.distinct.erase key⟩

end TypeMap

namespace Schema

def carrier (s : Schema) : Carrier := ⟨s.definition.toList ++ s.extensions, none⟩

/-- The type that a reference by name points to. -/
def resolve? (s : Schema) (name : String) : Option NamedType :=
  s.definitions.find? fun t => t.name == name

/-- The body of the type that a reference by name points to. -/
def body? (s : Schema) (name : String) : Option TypeBody := (s.resolve? name).map NamedType.body

/-- Whether a reference by name points to a type with a property. -/
def refersTo (s : Schema) (p : TypeBody → Bool) (name : String) : Bool :=
  (s.body? name).any p

end Schema
end SchemaContext
