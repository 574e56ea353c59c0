import SchemaContext.Failure
import SchemaContext.Value.Mapping
import SchemaContext.Value.Plain

/-!
# Access to values

What a value gives that is asked for its elements, its length, an entry or its plain
data, or that is written to, and the failure where it does not give it.
-/

namespace SchemaContext
namespace Value

/-- The elements of a value that stands where a sequence should. -/
def elements (v : Value) : Except Failure (List Value) :=
  match v.elements? with
  | some items => .ok items
  | none => .error (.notIterable v.sort)

/-- The number of elements. -/
def length (v : Value) : Except Failure Nat :=
  match v.length? with
  | some n => .ok n
  | none => .error (.noLength v.sort)

/-- The plain data that a value stands for, unless a length is asked for in vain. -/
def plain (v : Value) : Except Failure Value :=
  match v.lengthless? with
  | some sort => .error (.noLength sort)
  | none => .ok v.toPlain

/-- A value that can be in a set or name an entry. -/
def hashable (v : Value) : Except Failure Value :=
  match v.unhashable? with
  | some sort => .error (.unhashable sort)
  | none => .ok v

/-- An item of a sequence of pairs, the item's place being given for the failure's text. -/
def pairAt (index : Nat) (item : Value) : Except Failure (Value × Value) :=
  match item.elements? with
  | none => .error (.notPair index)
  | some [key, v] => do return (← key.hashable, v)
  | some items => .error (.pairLength index items.length)

/-- A mapping's entries, or those that a sequence of pairs makes. -/
def asMapping (v : Value) : Except Failure Mapping :=
  match v.entries? with
  | some entries => .ok entries
  | none => do
    let items ← v.elements
    return Mapping.ofPairs (← items.zipIdx.mapM fun item => pairAt item.2 item.1)

/-- The entries of a value that stands where a mapping should. An object is asked for them by the
name of a field that it may have, and whose value is then called. -/
def items (v : Value) : Except Failure Mapping :=
  match v.entries?, v.field? "items" with
  | some entries, _ => .ok entries
  | none, some w => .error (.notCallable w.sort)
  | none, none => .error (.noEntries v.sort)

/-- The read-only copy of a mapping of mappings; a value that counts as false gives an empty one. -/
def freeze (v : Value) : Except Failure Value :=
  if v.truthy then do
    return .frozen (← (← v.items).mapM fun e => return (e.1, .frozen (← e.2.asMapping)))
  else .ok (.frozen [])

/-- The entry of a value under a text. -/
def entryAt (v : Value) (key : String) : Except Failure Value :=
  match v with
  | dict entries | frozen entries =>
    match Mapping.get? entries (str key) with
    | some w => .ok w
    | none => .error (.missingKey (str key))
  | list _ | tuple _ | str _ => .error (.keyedSequence v.sort (str key).sort)
  | _ => .error (.noItems v.sort)

/-- Sets the entry of a value under a text; only a dictionary can be written to. -/
def setEntry (v : Value) (key : String) (w : Value) : Except Failure Value :=
  match v with
  | dict entries => .ok (dict (Mapping.put entries (str key) w))
  | list _ => .error (.keyedSequence v.sort (str key).sort)
  | _ => .error (.assignEntry v.sort)

end Value
end SchemaContext
