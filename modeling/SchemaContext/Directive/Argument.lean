import SchemaContext.Schema.Coercion

/-!
# Arguments of an applied directive

The arguments that a directive definition declares, as an application of the directive
gives them. An argument that is not given, or is given as a variable, takes its
default; without a default it is left out, unless its type requires a value.
-/

namespace SchemaContext

/-- Why the arguments of an applied directive cannot be read. -/
inductive ArgumentFault where
  | missing (arg : String) (type : TypeRef)
  | unbound (arg : String) (type : TypeRef) (var : String)
  | nullRefused (arg : String) (type : TypeRef)
  | invalid (arg : String) (given : Literal)

namespace ArgumentFault

def message : ArgumentFault → String
  | missing arg type =>
    "Argument '" ++ arg ++ "' of required type '" ++ type.print ++ "' was not provided."
  | unbound arg type v =>
    "Argument '" ++ arg ++ "' of required type '" ++ type.print
      ++ "' was provided the variable '$" ++ v ++ "' which was not provided a runtime value."
  | nullRefused arg type =>
    "Argument '" ++ arg ++ "' of non-null type '" ++ type.print ++ "' must not be null."
  | invalid arg given => "Argument '" ++ arg ++ "' has invalid value " ++ given.print ++ "."

end ArgumentFault

namespace InputValue

/-- The default as an application takes it: that of an input object is completed field by field. -/
def defaultValue? (s : Schema) (a : InputValue) : Option Value :=
  a.default.map fun v =>
    match a.type with
    | .named n false => if s.refersTo TypeBody.isInputObject n then v.coerceInput s a.type else v
    | _ => v

/-- What stands for an argument without a value: its default, or nothing unless one is required. -/
def absent (s : Schema) (a : InputValue) (fault : ArgumentFault) :
    Except ArgumentFault (Option Value) :=
  match a.defaultValue? s with
  | some v => .ok (some v)
  | none => if a.type.required then .error fault else .ok none

/-- The value of one declared argument in an application; no value if it is left out. -/
def valueIn (s : Schema) (a : InputValue) (args : List (String × Literal)) :
    Except ArgumentFault (Option Value) :=
  match (Entries.ofList args).get? a.name with
  | none => a.absent s (.missing a.name a.type)
  | some (.var v) => a.absent s (.unbound a.name a.type v)
  | some given =>
    if given.isNull && a.type.required then .error (.nullRefused a.name a.type)
    else
      match given.coerce? s a.type with
      | some v => .ok (some v)
      | none => .error (.invalid a.name given)

end InputValue

namespace DirectiveDefinition

/-- The arguments of an application, in the order of their declaration. -/
def argumentsOf (s : Schema) (d : DirectiveDefinition) (use : DirectiveUse) :
    Except ArgumentFault (Entries Value) := do
  let values ← d.args.mapM fun a => return (← a.valueIn s use.args).map fun v => (a.name, v)
  return values.filterMap id

end DirectiveDefinition
end SchemaContext
