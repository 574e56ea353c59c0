import SchemaContext.Context.Basic
import SchemaContext.Record.Transformers
import SchemaContext.Schema.Classification

/-!
# Assembly of a context

The types that were kept are transformed one by one, in order; each goes to the list of
its kind. Then the directives are transformed, and the schema is searched for a use of
directives. The first failure ends the assembly, and no context comes of it.
-/

namespace SchemaContext

/-- The kind of an entry with what its transformer makes of it. -/
def dispatch (t : Transformers ρ) (s : Schema) (key : String) (e : Entry) : Run (Kind × ρ) := do
  let type ← Run.ofExcept (e.classify (some key))
  Run.called ⟨.type type.kind, some type.name⟩
  return (type.kind, ← Run.ofExcept (t.ofType type.kind s type))

/-- How many records each list got, in the order of the routes. -/
def assemblySummary (records : List (Kind × ρ)) : String :=
  "Assembled context: " ++ String.intercalate ", "
    (Kind.all.map fun k => k.target ++ "=" ++ toString (Context.select k records).length)

/-- The context of the kept types and the given directives. -/
def assemble (t : Transformers ρ) (s : Schema) (kept : Entries Entry)
    (directives : List DirectiveDefinition) : Run (Context ρ) := do
  let records ← kept.mapM fun e => dispatch t s e.1 e.2
  Run.called ⟨.directives, none⟩
  let defined ← Run.ofExcept (t.ofDirectives s directives)
  let uses ← Run.ofExcept (Failure.ofArguments (s.usesDirectives kept.values))
  Run.log .assembler .debug (assemblySummary records)
  let applied ← Run.ofExcept (Failure.ofArguments (s.carrier.applied s))
  return Context.ofRecords records defined applied uses s

end SchemaContext
