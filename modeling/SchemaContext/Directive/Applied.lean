import SchemaContext.Directive.Argument

/-!
# Applied directives

The directives applied to an element, as a map from directive names to arguments.
Where the element has syntax nodes, the map holds every directive of the schema that
is applied on one of them, with the arguments of its first application, definition
before extensions. Where it has none, a deprecation reason counts as an applied
`@deprecated`.
-/

namespace SchemaContext

/-- Directive names with the arguments applied. -/
abbrev Applied := Entries (Entries Value)

namespace Applied

/-- As a value, the map and every map of arguments in it are read-only. -/
def toValue (a : Applied) : Value := .frozenOf (a.mapValues Value.frozenOf)

end Applied

namespace Carrier

/-- The first application of a directive on the nodes. -/
def firstUse? (c : Carrier) (directive : String) : Option DirectiveUse :=
  c.nodes.findSome? fun node => node.find? fun use => use.name == directive

/-- The map that tells of a deprecation where there is no syntax to tell of it. -/
def deprecated (reason : String) : Applied := [("deprecated", [("reason", .str reason)])]

/-- Puts what one declared directive contributes. -/
def applyOne (s : Schema) (c : Carrier) (found : Applied) (d : DirectiveDefinition) :
    Except ArgumentFault Applied :=
  match c.firstUse? d.name with
  | none => .ok found
  | some use => return found.put d.name (← d.argumentsOf s use)

/-- The directives applied to an element. -/
def applied (s : Schema) (c : Carrier) : Except ArgumentFault Applied :=
  if c.nodes.isEmpty then
    .ok (match c.deprecation with
      | some reason => deprecated reason
      | none => [])
  else s.directives.foldlM (applyOne s c) []

/-- Whether a directive is applied to one of the elements. The search ends with the first that has
one, so a fault further on does not show. -/
def anyApplied (s : Schema) : List Carrier → Except ArgumentFault Bool
  | [] => .ok false
  | c :: rest => do
    let found ← c.applied s
    if found.isEmpty then anyApplied s rest else return true

end Carrier

namespace Schema

/-- The elements in which a use of directives is looked for: the schema, the arguments of its
directives, the given types and what is inside them. -/
def carriersWith (s : Schema) (entries : List Entry) : List Carrier :=
  s.carrier :: s.directives.flatMap (fun d => d.args.map InputValue.carrier)
    ++ entries.flatMap Entry.carriers

/-- Whether a directive is applied anywhere in the schema, of its types only the given ones
being looked at. -/
def usesDirectives (s : Schema) (entries : List Entry) : Except ArgumentFault Bool :=
  Carrier.anyApplied s (s.carriersWith entries)

end Schema
end SchemaContext
