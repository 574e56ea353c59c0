import SchemaContext.Value.Access

/-!
# The fields of a context

What templates, comparisons and callers see of a context: its fields by name. A caller
can make a context of any values; only its directives are looked at, since they are
copied into read-only maps. What is not what it should be shows when it is used:
`plainEntries` is the context as plain data, and `fault?` what stands against it.
-/

namespace SchemaContext
namespace Context

/-- The names of the lists, in the order of the fields. -/
def listNames : List String :=
  ["types", "input_types", "enums", "unions", "scalars", "interfaces", "defined_directives"]

structure Fields where
  /-- What stands in the place of each list. -/
  lists : Entries Value
  directives : Value
  usesDirectives : Value
  schema : Value

namespace Fields

/-- The class of contexts. -/
def className : String := "TemplateContext"

/-- The fields that equality looks at. -/
def compared (f : Fields) : Entries Value :=
  f.lists ++ [("directives", f.directives), ("uses_directives", f.usesDirectives)]

def all (f : Fields) : Entries Value := ("raw_schema", f.schema) :: f.compared

/-- A context as an object with fields. -/
def toValue (f : Fields) : Value := .object className f.all

/-- The presence flags: of each list whether it is not empty. -/
def flags (f : Fields) : Entries Value :=
  f.lists.map fun l => ("has_" ++ l.1, .bool ((l.2.length?.getD 0) ≠ 0))

/-- The items of what stands in the place of a list, as plain data. -/
def plainList (v : Value) : Value := .list ((v.elements?.getD []).map Value.toPlain)

/-- A context as plain data for templates; the schema is kept as it is. -/
def plainEntries (f : Fields) : Entries Value :=
  f.lists.mapValues plainList ++ f.flags
    ++ [("directives", f.directives.toPlain), ("uses_directives", f.usesDirectives),
        ("raw_schema", f.schema)]

/-- Why the items of what stands in the place of a list cannot be turned into plain data. -/
def listFault? (v : Value) : Option Failure :=
  match v.elements? with
  | none => some (.notIterable v.sort)
  | some items => (items.findSome? Value.lengthless?).map .noLength

/-- Why a context cannot be turned into plain data. -/
def fault? (f : Fields) : Option Failure :=
  (f.lists.findSome? fun l => listFault? l.2).or (f.directives.lengthless?.map .noLength)

/-- A context as plain data, if it can be turned into it. -/
def toEntries (f : Fields) : Except Failure (Entries Value) :=
  match f.fault? with
  | some fault => .error fault
  | none => .ok f.plainEntries

/-- The value of an attribute: a field or a presence flag. -/
def lookup (f : Fields) (name : String) : Except Failure Value :=
  match f.all.get? name with
  | some v => .ok v
  | none =>
    match f.lists.find? fun l => "has_" ++ l.1 == name with
    | some l => return .bool ((← l.2.length) ≠ 0)
    | none => .error (.missingAttribute className name)

/-- Equality of contexts, the schemas left aside. -/
def equal (comparison : Value.Comparison) (f g : Fields) : Bool :=
  Value.equal comparison (.object className f.compared) (.object className g.compared)

/-- The fields of a context made by hand; a list that is not given is empty. -/
def ofGiven (given : Entries Value) : Except Failure Fields :=
  let known := listNames ++ ["directives", "uses_directives"]
  match given.keys.find? fun k => !known.contains k with
  | some k => .error (.unknownField className k)
  | none => do
    return { lists := listNames.map fun name => (name, (given.get? name).getD (.tuple []))
             directives := ← ((given.get? "directives").getD .null).freeze
             usesDirectives := (given.get? "uses_directives").getD (.bool false)
             schema := .null }

end Fields
end Context
end SchemaContext
