import SchemaContext.Schema.Basic

/-!
# Kinds of types

A named type is of one of six kinds. Each kind has a route: the transformer that makes
a record of a type of that kind, and the list of the context that receives the record.
-/

namespace SchemaContext

inductive Kind where
  | object | inputObject | enum | union | interface | scalar
  deriving DecidableEq, Repr

namespace Kind

/-- All kinds, in the order of their routes. -/
def all : List Kind := [object, inputObject, enum, union, interface, scalar]

theorem mem_all (k : Kind) : k ∈ all := by cases k <;> simp [all]

theorem all_nodup : all.Nodup := by simp [all]

def name : Kind → String
  | object => "OBJECT"
  | inputObject => "INPUT_OBJECT"
  | enum => "ENUM"
  | union => "UNION"
  | interface => "INTERFACE"
  | scalar => "SCALAR"

/-- The transformer of a kind. -/
def transformer : Kind → String
  | object => "object_type"
  | inputObject => "input_object_type"
  | enum => "enum_type"
  | union => "union_type"
  | interface => "interface_type"
  | scalar => "scalar_type"

/-- The list of the context that receives the records of a kind. -/
def target : Kind → String
  | object => "types"
  | inputObject => "input_types"
  | enum => "enums"
  | union => "unions"
  | interface => "interfaces"
  | scalar => "scalars"

def ofName? (s : String) : Option Kind := all.find? fun k => k.name == s

theorem ofName?_name (k : Kind) : ofName? k.name = some k := by cases k <;> rfl

/-- The names of the kinds that are not among the given ones, in alphabetical order. -/
def namesWithout (known : List Kind) : List String :=
  ((all.filter fun k => !known.contains k).map name).mergeSort fun a b => decide (a ≤ b)

end Kind

namespace TypeBody

def kind : TypeBody → Kind
  | object _ _ => .object
  | interface _ _ => .interface
  | inputObject _ _ => .inputObject
  | enum _ => .enum
  | union _ => .union
  | scalar _ => .scalar

end TypeBody

def NamedType.kind (t : NamedType) : Kind := t.body.kind

end SchemaContext
