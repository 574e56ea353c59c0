import SchemaContext.Failure
import SchemaContext.Schema.Kind

/-!
# Classification of types

Every type under a key of a type map is of one of the six kinds; a foreign object is of
none, which is a failure. Each kind must have a route and a class of types.
-/

namespace SchemaContext

namespace Entry

/-- The name that a failure gives a foreign object: the given one unless it is empty, else the
object's own, else its text. -/
def shownName (f : Foreign) (name : Option String) : String :=
  match name with
  | some n => if n.isEmpty then f.name.getD f.text else n
  | none => f.name.getD f.text

/-- The type under a key of a type map; a foreign object is of no kind. -/
def classify (e : Entry) (name : Option String) : Except Failure NamedType :=
  match e with
  | type t => .ok t
  | foreign f => .error (.unclassifiable (some (shownName f name)) f.text)

end Entry

namespace Kind

/-- Every kind must have a route and a class of types. -/
def checkExhaustive (routed classed : List Kind) : Except Failure Unit :=
  let routes := namesWithout routed
  let classes := namesWithout classed
  if routes.isEmpty && classes.isEmpty then .ok () else .error (.unrouted routes classes)

end Kind
end SchemaContext
