import SchemaContext.Context.Fields

/-!
# What can be tried on a context

A context cannot be changed: not by writing to its fields, not by writing to its
directives, and not by way of the mapping that its directives were copied from.
`Held.attempt` is what comes of trying.
-/

namespace SchemaContext

/-- What can be tried on a context and on the mapping that its directives were made from. -/
inductive Attempt where
  | setField (name : String)
  | deleteField (name : String)
  | getField (name : String)
  /-- Write to the context's directives. -/
  | setDirective (directive : String)
  | setArgument (directive arg : String)
  /-- Write to the mapping that the directives were made from. -/
  | sourceDirective (directive : String)
  | sourceArgument (directive arg : String) (v : Value)

/-- A context with the mapping that its directives were made from. -/
structure Held where
  context : Context.Fields
  source : Value

namespace Held

/-- Sets an argument of a directive in a mapping of directives. -/
def setArgument (m : Value) (directive arg : String) (v : Value) : Except Failure Value := do
  let args ← m.entryAt directive
  m.setEntry directive (← args.setEntry arg v)

/-- What an attempt comes to, and what is held afterwards. -/
def attempt (h : Held) : Attempt → Except Failure Value × Held
  | .setField name => (.error (.assignField name), h)
  | .deleteField name => (.error (.deleteField name), h)
  | .getField name => (h.context.lookup name >>= Value.plain, h)
  | .setDirective directive =>
    ((fun _ => .null) <$> h.context.directives.setEntry directive (.dict []), h)
  | .setArgument directive arg =>
    ((fun _ => .null) <$> setArgument h.context.directives directive arg (.int 0), h)
  | .sourceDirective directive =>
    match h.source.setEntry directive (.dict []) with
    | .ok source => (.ok .null, { h with source })
    | .error f => (.error f, h)
  | .sourceArgument directive arg v =>
    match setArgument h.source directive arg v with
    | .ok source => (.ok .null, { h with source })
    | .error f => (.error f, h)

/-- Nothing that is tried changes the context. -/
theorem context_attempt (h : Held) (a : Attempt) : (h.attempt a).2.context = h.context := by
  cases a <;> simp only [attempt] <;> repeat' split
  all_goals rfl

end Held
end SchemaContext
