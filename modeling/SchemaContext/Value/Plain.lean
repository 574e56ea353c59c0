import SchemaContext.Record.Layout

/-!
# Plain data

`toPlain` turns records and other objects, read-only mappings and tuples into
dictionaries and lists, at every depth; leaves stay as they are. A record also
gets the derived entries of its class, computed from the fields as they stand.

A derived entry asks a field for its length. `lengthless?` finds the first value that
is asked and has none, a record's fields being turned before its own length is asked.
-/

namespace SchemaContext
namespace Value

/-- The derived entries of a record: whether each of the named fields has elements. -/
def derivedEntries (cls : RecordClass) (fields : Entries Value) : Entries Value :=
  cls.derived.map fun d => (d.1, .bool ((((fields.get? d.2).bind length?).getD 0) ≠ 0))

mutual

/-- The plain data that a value stands for. -/
def toPlain : Value → Value
  | record cls fields => ofEntries (toPlainFields fields ++ derivedEntries cls fields)
  | object _ fields => ofEntries (toPlainFields fields)
  | dict entries => dict (toPlainEntries entries)
  | frozen entries => dict (toPlainEntries entries)
  | list items => list (toPlainItems items)
  | tuple items => list (toPlainItems items)
  | null => null
  | bool b => bool b
  | int n => int n
  | float x => float x
  | str s => str s
  | undefined => undefined
  | notNumber => notNumber
  | constant name => constant name

def toPlainItems : List Value → List Value
  | [] => []
  | v :: rest => toPlain v :: toPlainItems rest

def toPlainEntries : List (Value × Value) → List (Value × Value)
  | [] => []
  | (k, v) :: rest => (k, toPlain v) :: toPlainEntries rest

def toPlainFields : List (String × Value) → List (String × Value)
  | [] => []
  | (k, v) :: rest => (k, toPlain v) :: toPlainFields rest

end

@[simp] theorem toPlainItems_eq_map (items : List Value) :
    toPlainItems items = items.map toPlain := by
  induction items with
  | nil => rfl
  | cons v rest ih => simp [toPlainItems, ih]

@[simp] theorem toPlainEntries_eq_map (entries : Mapping) :
    toPlainEntries entries = entries.map fun e => (e.1, e.2.toPlain) := by
  induction entries with
  | nil => rfl
  | cons e rest ih =>
    obtain ⟨k, v⟩ := e
    simp [toPlainEntries, ih]

@[simp] theorem toPlainFields_eq_mapValues (fields : Entries Value) :
    toPlainFields fields = fields.mapValues toPlain := by
  induction fields with
  | nil => rfl
  | cons e rest ih =>
    obtain ⟨k, v⟩ := e
    simpa [toPlainFields, Entries.mapValues] using ih

/-- The sort of the first field that a derived entry asks for its length in vain. -/
def lengthlessDerived? (cls : RecordClass) (fields : Entries Value) : Option String :=
  cls.derived.findSome? fun d =>
    (fields.get? d.2).bind fun v => if v.length?.isSome then none else some v.sort

mutual

/-- The sort of the first value that `toPlain` asks for its length in vain. -/
def lengthless? : Value → Option String
  | record cls fields => (lengthlessFields? fields).or (lengthlessDerived? cls fields)
  | object _ fields => lengthlessFields? fields
  | dict entries => lengthlessEntries? entries
  | frozen entries => lengthlessEntries? entries
  | list items => lengthlessItems? items
  | tuple items => lengthlessItems? items
  | _ => none

def lengthlessItems? : List Value → Option String
  | [] => none
  | v :: rest => (lengthless? v).or (lengthlessItems? rest)

def lengthlessEntries? : List (Value × Value) → Option String
  | [] => none
  | (_, v) :: rest => (lengthless? v).or (lengthlessEntries? rest)

def lengthlessFields? : List (String × Value) → Option String
  | [] => none
  | (_, v) :: rest => (lengthless? v).or (lengthlessFields? rest)

end

end Value
end SchemaContext
