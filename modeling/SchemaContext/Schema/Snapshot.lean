import SchemaContext.Filter
import SchemaContext.Journal.Basic

/-!
# Snapshots of a schema's types

What is given as a schema may be a schema, a schema inside a wrapper, or something
else, which is refused. A snapshot keeps the type map as it was when the snapshot was
taken: later edits of the schema do not reach it, and it refuses to be written to.
-/

namespace SchemaContext

/-- What is given as a schema. -/
inductive Source where
  | schema (s : Schema)
  | wrapped (s : Schema)
  | other (sort : String)

namespace Source

/-- The schema itself. -/
def unwrap : Source → Except Failure Schema
  | schema s | wrapped s => .ok s
  | other sort => .error (.notSchema (.schema sort))

def isSchema : Source → Bool
  | schema _ => true
  | _ => false

end Source

structure Snapshot where
  schema : Schema
  types : TypeMap

namespace Snapshot

def size (r : Snapshot) : Nat := r.types.size

def take (source : Source) : Run Snapshot := do
  let schema ← Run.ofExcept source.unwrap
  Run.log .registry .debug ("Registered " ++ toString schema.typeMap.size ++ " schema types")
  return { schema, types := schema.typeMap }

/-- The entry under a name; the name must be a value that can name an entry. -/
def get? (r : Snapshot) (name : Value) : Except Failure (Option Entry) := do
  return (← name.hashable).text?.bind r.types.get?

def contains (r : Snapshot) (name : Value) : Except Failure Bool := return (← r.get? name).isSome

def put (_ : Snapshot) (_ : Value) : Except Failure Snapshot := .error (.assignEntry "mappingproxy")

def erase (_ : Snapshot) (_ : Value) : Except Failure Snapshot :=
  .error (.deleteEntry "mappingproxy")

end Snapshot
end SchemaContext
