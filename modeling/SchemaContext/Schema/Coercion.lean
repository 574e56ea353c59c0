import SchemaContext.Schema.Basic

/-!
# Coercion to a type

`Literal.coerce?` gives the value of a literal for a type, and `none` where the type
does not admit the literal. Null is admitted where it is not excluded; what is no list
becomes a list of one where the type asks for a list; an object literal is read field
by field of the type, so that fields of the type that are missing take their defaults
and fields unknown to the type do not count. A variable has no value here: as a field
or a list item it counts as missing, elsewhere the literal is not admitted.

`Value.coerceInput` does the same for a value that is known to be admitted, such as
the default of an argument.
-/

namespace SchemaContext

/-- A value in so many lists of one. -/
def Value.inLists : Nat → Value → Value
  | 0, v => v
  | n + 1, v => .list [inLists n v]

/-- The integers of the type `Int`. -/
def inIntRange (n : Int) : Bool := -2147483648 ≤ n && n ≤ 2147483647

namespace Literal

/-- The value of a literal for a scalar. The five primitive scalars are known by name; any other
scalar reads the literal itself. -/
def scalarValue? (scalar : String) (reading : ScalarReading) (l : Literal) : Option Value :=
  match scalar, l with
  | "Int", .int text =>
    (Decimal.intOfText? text).bind fun n => if inIntRange n then some (.int n) else none
  | "Int", _ => none
  | "Float", .int text | "Float", .float text => (Decimal.doubleOfText? text).map .float
  | "Float", _ => none
  | "String", .string s => some (.str s)
  | "String", _ => none
  | "Boolean", .bool b => some (.bool b)
  | "Boolean", _ => none
  | "ID", .string s | "ID", .int s => some (.str s)
  | "ID", _ => none
  | _, l => reading.literal l

/-- The value of a literal for an enum or a scalar. -/
def leafValue? (s : Schema) (type : String) (l : Literal) : Option Value :=
  match s.body? type, l with
  | some (.enum values), .enum n => (values.find? fun v => v.name == n).map EnumValue.value
  | some (.scalar reading), l => scalarValue? type reading l
  | _, _ => none

/-- The entry for one input field: `none` if the field makes the object invalid, no entry if the
field is left out. `given` is how the field's literal is read, if it has one that is no variable. -/
def inputEntry? (field : InputValue) (given : Option (TypeRef → Option Value)) :
    Option (Option (String × Value)) :=
  match given with
  | some read => (read field.type).map fun v => some (field.name, v)
  | none =>
    match field.default with
    | some v => some (some (field.name, v))
    | none => if field.type.required then none else some none

/-- The value of an object literal. Where the type says so, one field must be set, and not to
null. -/
def inputObject? (oneOf : Bool) (fields : List InputValue)
    (given : Entries (Option (TypeRef → Option Value))) : Option Value := do
  let entries ← fields.mapM fun f => inputEntry? f ((given.get? f.name).bind id)
  let entries := entries.filterMap id
  match oneOf, entries with
  | false, _ => return .ofEntries entries
  | true, [(_, .null)] => none
  | true, [_] => return .ofEntries entries
  | true, _ => none

mutual

/-- The value of a literal for a type, if the type admits it. -/
def coerce? (s : Schema) : Literal → TypeRef → Option Value
  | .var _, _ => none
  | .null, t => if t.required then none else some .null
  | .list items, t =>
    match t with
    | .list item _ => (coerceItems? s items item).map .list
    | .named n _ => leafValue? s n (.list items)
  | .object fields, t =>
    let value? :=
      match s.body? t.name with
      | some (.inputObject oneOf inputs) =>
        inputObject? oneOf inputs (Entries.ofList (readFields s fields))
      | _ => leafValue? s t.name (.object fields)
    value?.map (Value.inLists t.dimension)
  | .int text, t => (leafValue? s t.name (.int text)).map (Value.inLists t.dimension)
  | .float text, t => (leafValue? s t.name (.float text)).map (Value.inLists t.dimension)
  | .string text, t => (leafValue? s t.name (.string text)).map (Value.inLists t.dimension)
  | .bool b, t => (leafValue? s t.name (.bool b)).map (Value.inLists t.dimension)
  | .enum n, t => (leafValue? s t.name (.enum n)).map (Value.inLists t.dimension)

def coerceItems? (s : Schema) : List Literal → TypeRef → Option (List Value)
  | [], _ => some []
  | l :: rest, t => do
    let v ←
      match l.varName? with
      | some _ => if t.required then none else some .null
      | none => coerce? s l t
    return v :: (← coerceItems? s rest t)

/-- How each field of an object literal is read; a variable is not read at all. -/
def readFields (s : Schema) :
    List (String × Literal) → List (String × Option (TypeRef → Option Value))
  | [] => []
  | (k, l) :: rest =>
    (k, match l.varName? with
      | some _ => none
      | none => some fun t => coerce? s l t) :: readFields s rest

end

end Literal

/-- What a scalar makes of a value that it admits. The primitive scalars are known by name. -/
def ScalarReading.leafInput (reading : ScalarReading) (scalar : String) (v : Value) : Value :=
  match scalar, v with
  | "Float", .int n => .float (Decimal.ofInt n).toBinary64
  | "ID", .int n => .str (toString n)
  | "Int", .float x => (x.toInt?.map .int).getD v
  | "ID", .float x => (x.toInt?.map fun n => .str (toString n)).getD v
  | "Int", _ | "Float", _ | "String", _ | "Boolean", _ | "ID", _ => v
  | _, _ => reading.value v

namespace Value

/-- The value that an enum or a scalar makes of an admitted value. -/
def leafInput (s : Schema) (type : String) (v : Value) : Value :=
  match s.body? type, v with
  | some (.enum values), .str n => ((values.find? fun e => e.name == n).map EnumValue.value).getD v
  | some (.scalar reading), v => reading.leafInput type v
  | _, v => v

/-- The entries of an input object whose given fields are read by `given`. -/
def inputEntries (fields : List InputValue) (given : Entries (TypeRef → Value)) : Entries Value :=
  fields.filterMap fun f =>
    match given.get? f.name, f.default with
    | some read, _ => some (f.name, read f.type)
    | none, some v => some (f.name, v)
    | none, none => none

mutual

/-- An admitted value as the type takes it. -/
def coerceInput (s : Schema) : Value → TypeRef → Value
  | null, _ => null
  | list items, t =>
    match t with
    | .list item _ => list (coerceInputItems s items item)
    | .named n _ => leafInput s n (list items)
  | dict entries, t =>
    inLists t.dimension
      (match s.body? t.name with
        | some (.inputObject _ fields) => ofEntries (inputEntries fields (readEntries s entries))
        | _ => leafInput s t.name (dict entries))
  | bool b, t => inLists t.dimension (leafInput s t.name (bool b))
  | int n, t => inLists t.dimension (leafInput s t.name (int n))
  | float x, t => inLists t.dimension (leafInput s t.name (float x))
  | str text, t => inLists t.dimension (leafInput s t.name (str text))
  | v, t => inLists t.dimension (leafInput s t.name v)

def coerceInputItems (s : Schema) : List Value → TypeRef → List Value
  | [], _ => []
  | v :: rest, t => coerceInput s v t :: coerceInputItems s rest t

/-- How each entry of a mapping is read; an entry whose key is no text names no field. -/
def readEntries (s : Schema) : List (Value × Value) → List (String × (TypeRef → Value))
  | [] => []
  | (k, v) :: rest =>
    match k with
    | str name => (name, fun t => coerceInput s v t) :: readEntries s rest
    | _ => readEntries s rest

end

end Value
end SchemaContext
