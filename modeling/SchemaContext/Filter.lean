import SchemaContext.Value.Access

/-!
# Which types reach the context

Primitive scalars and the reserved names of the introspection system are dropped from
a type map unless they are on the allow list. The order of the map is kept.
-/

namespace SchemaContext

/-- The scalars that every schema has and templates know already. -/
def primitiveNames : List String := ["String", "Int", "Boolean", "ID", "Float"]

/-- How the reserved names of the introspection system begin. -/
def reservedStart : String := "__"

def isPrimitiveName (name : String) : Bool := primitiveNames.contains name

def isReservedName (name : String) : Bool := reservedStart.toList.isPrefixOf name.toList

/-- Whether an entry of a type map is kept. -/
def survives (allowed : List String) (name : String) : Bool :=
  allowed.contains name || (!isPrimitiveName name && !isReservedName name)

/-- The entries of a type map that are kept. -/
def filterTypes (allowed : List String) (types : Entries α) : Entries α :=
  types.filter fun e => survives allowed e.1

/-- The names on an allow list. Its items may be values of any sort that can be in a set, but only
a text names a type. -/
def allowedNames (items : List Value) : Except Failure (List String) := do
  let items ← items.mapM Value.hashable
  return items.filterMap Value.text?

theorem mem_filterTypes {allowed : List String} {types : Entries α} {e : String × α} :
    e ∈ filterTypes allowed types ↔ e ∈ types ∧ survives allowed e.1 := by
  simp [filterTypes]

theorem filterTypes_sublist (allowed : List String) (types : Entries α) :
    (filterTypes allowed types).Sublist types := List.filter_sublist

end SchemaContext
