import SchemaContext.Entries
import SchemaContext.Number.Binary64

/-!
# Values

The data that settings, argument defaults, enum values, directive arguments,
events and records are made of. Besides plain data (null, Booleans, numbers, text,
lists and dictionaries) a value can be a tuple, a read-only mapping, a record of
one of the record classes or an object of another class with named fields. Sequences
and mappings keep their order. The keys of a mapping are values themselves, though
nearly always texts.
-/

namespace SchemaContext

/-- The record classes of a context, and the description of a reference's wrappers. -/
inductive RecordClass where
  | type | field | argument | enum | enumValue | union | interface | scalar | directive
  | resolvedType
  deriving DecidableEq, Repr

inductive Value where
  | null
  | bool (b : Bool)
  | int (n : Int)
  | float (x : Binary64)
  | str (s : String)
  /-- A value that a variable would have supplied. -/
  | undefined
  /-- The value of a number whose text names none: one NaN, the same wherever it arises. -/
  | notNumber
  /-- A constant known by its name, such as a member of an enumeration. A member that is itself a
  tuple, a mapping or an instance of a class with fields is no constant, but what it is. -/
  | constant (name : String)
  | list (items : List Value)
  | tuple (items : List Value)
  | dict (entries : List (Value × Value))
  | frozen (entries : List (Value × Value))
  | record (cls : RecordClass) (fields : List (String × Value))
  /-- An object of a class that is no record class. -/
  | object (cls : String) (fields : List (String × Value))
  deriving Inhabited

/-- Keys with their values, in the order in which the keys first came. -/
abbrev Mapping := List (Value × Value)

/-- The mapping whose keys are texts. -/
def Mapping.ofEntries (m : Entries Value) : Mapping := m.map fun e => (.str e.1, e.2)

namespace Value

/-- The name of a value's sort, as messages write it. -/
def sort : Value → String
  | null => "NoneType"
  | bool _ => "bool"
  | int _ => "int"
  | float _ => "float"
  | str _ => "str"
  | undefined => "UndefinedType"
  | notNumber => "float"
  | constant name => (name.takeWhile (· ≠ '.')).toString
  | list _ => "list"
  | tuple _ => "tuple"
  | dict _ => "dict"
  | frozen _ => "mappingproxy"
  | record cls _ =>
    match cls with
    | .type => "Type"
    | .field => "Field"
    | .argument => "Argument"
    | .enum => "Enum"
    | .enumValue => "EnumValue"
    | .union => "Union"
    | .interface => "Interface"
    | .scalar => "Scalar"
    | .directive => "Directive"
    | .resolvedType => "ResolvedType"
  | object cls _ => cls

/-- Null, false, zero, the empty text and the empty collections count as false. -/
def truthy : Value → Bool
  | null => false
  | bool b => b
  | int n => n ≠ 0
  | float x => !x.isZero
  | str s => !s.isEmpty
  | undefined => false
  | notNumber => true
  | constant _ => true
  | list items | tuple items => !items.isEmpty
  | dict entries | frozen entries => !entries.isEmpty
  | record _ _ | object _ _ => true

/-- What going through a value meets: items, keys or characters; `none` if nothing can be met. -/
def elements? : Value → Option (List Value)
  | str s => some (s.toList.map fun c => str c.toString)
  | list items | tuple items => some items
  | dict entries | frozen entries => some (entries.map Prod.fst)
  | _ => none

/-- The number of elements, if the value has elements. -/
def length? (v : Value) : Option Nat := v.elements?.map List.length

mutual

/-- The sort of the part that keeps a value out of a set, if there is one. -/
def unhashable? : Value → Option String
  | list _ => some "list"
  | dict _ => some "dict"
  | tuple items => unhashableItem? items
  | frozen _ => some "mappingproxy"
  | record _ fields => unhashableField? fields
  | object cls _ => some cls
  | _ => none

def unhashableItem? : List Value → Option String
  | [] => none
  | v :: rest => (unhashable? v).or (unhashableItem? rest)

def unhashableField? : List (String × Value) → Option String
  | [] => none
  | (_, v) :: rest => (unhashable? v).or (unhashableField? rest)

end

/-- The value of a field of a record or another object. -/
def field? : Value → String → Option Value
  | record _ fields, name | object _ fields, name => Entries.get? fields name
  | _, _ => none

/-- The entries of a mapping, read-only or not. -/
def entries? : Value → Option Mapping
  | dict entries | frozen entries => some entries
  | _ => none

/-- A text, or null where there is none. -/
def ofText (t : Option String) : Value :=
  match t with
  | some s => str s
  | none => null

def ofNames (names : List String) : Value := tuple (names.map str)

/-- A dictionary whose keys are texts. -/
def ofEntries (m : Entries Value) : Value := dict (Mapping.ofEntries m)

/-- A read-only mapping whose keys are texts. -/
def frozenOf (m : Entries Value) : Value := frozen (Mapping.ofEntries m)

/-- The text of a text value. -/
def text? : Value → Option String
  | str s => some s
  | _ => none

end Value
end SchemaContext
