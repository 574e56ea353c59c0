import SchemaContext.Value.Basic
import SchemaContext.Number.Shortest
import SchemaContext.Text.Quoted

/-!
# Written form of a value

How messages write a value: text in quotes, numbers in their shortest form, lists in
brackets, tuples in parentheses, mappings in braces.
-/

namespace SchemaContext
namespace Value

mutual

/-- A value as messages write it inside a list. -/
def written : Value → String
  | null => "None"
  | bool b => if b then "True" else "False"
  | int n => toString n
  | float x => x.textWith "nan" "inf"
  | str s => Text.quoted s
  | undefined => "Undefined"
  | notNumber => "nan"
  | constant name => name
  | list items => Text.bracketed (writtenItems items)
  | tuple items =>
    let parts := writtenItems items
    if parts.length = 1 then "(" ++ String.intercalate ", " parts ++ ",)"
    else "(" ++ String.intercalate ", " parts ++ ")"
  | dict entries => Text.braced (writtenEntries entries)
  | frozen entries => "mappingproxy(" ++ Text.braced (writtenEntries entries) ++ ")"
  | record cls fields =>
    (record cls []).sort ++ "(" ++ String.intercalate ", " (writtenFields fields) ++ ")"
  | object cls fields => cls ++ "(" ++ String.intercalate ", " (writtenFields fields) ++ ")"

def writtenItems : List Value → List String
  | [] => []
  | v :: rest => written v :: writtenItems rest

def writtenEntries : List (Value × Value) → List String
  | [] => []
  | (k, v) :: rest => (written k ++ ": " ++ written v) :: writtenEntries rest

def writtenFields : List (String × Value) → List String
  | [] => []
  | (k, v) :: rest => (k ++ "=" ++ written v) :: writtenFields rest

end

/-- A value as messages show it on its own: a text stands without quotes. -/
def shown : Value → String
  | str s => s
  | v => v.written

end Value
end SchemaContext
