import SchemaContext.Value.Written

/-!
# JSON text

The JSON text of plain data on one line: `, ` between items, `: ` after a key, keys in
their order. In a text the quote, the backslash and the characters below U+0020 are
escaped, by a letter where JSON has one; all other characters stand as they are.

Some values have no JSON text. `jsonless?` finds the first of them.
-/

namespace SchemaContext
namespace Text

/-- One character inside a JSON text. -/
def jsonChar (c : Char) : List Char :=
  if c = '"' ∨ c = '\\' then ['\\', c]
  else if c = '\n' then ['\\', 'n']
  else if c = '\r' then ['\\', 'r']
  else if c = '\t' then ['\\', 't']
  else if c = '\x08' then ['\\', 'b']
  else if c = '\x0c' then ['\\', 'f']
  else if c.toNat < 0x20 then '\\' :: 'u' :: hex 4 c.toNat
  else [c]

def jsonString (s : String) : String :=
  String.ofList ('"' :: s.toList.flatMap jsonChar ++ ['"'])

/-- The text that a key becomes. -/
def jsonKey : Value → String
  | .str s => s
  | .null => "null"
  | .bool b => if b then "true" else "false"
  | .float x => x.textWith "NaN" "Infinity"
  | .notNumber => "NaN"
  | k => k.written

mutual

/-- The JSON text of a value; one that has none is written as its name or its entries. -/
def json : Value → String
  | .null => "null"
  | .bool b => if b then "true" else "false"
  | .int n => toString n
  | .float x => x.textWith "NaN" "Infinity"
  | .str s => jsonString s
  | .undefined => "null"
  | .notNumber => "NaN"
  | .constant name => jsonString name
  | .list items => bracketed (jsonItems items)
  | .tuple items => bracketed (jsonItems items)
  | .dict entries => braced (jsonEntries entries)
  | .frozen entries => braced (jsonEntries entries)
  | .record _ fields => braced (jsonFields fields)
  | .object _ fields => braced (jsonFields fields)

def jsonItems : List Value → List String
  | [] => []
  | v :: rest => json v :: jsonItems rest

def jsonEntries : List (Value × Value) → List String
  | [] => []
  | (k, v) :: rest => (jsonString (jsonKey k) ++ ": " ++ json v) :: jsonEntries rest

def jsonFields : List (String × Value) → List String
  | [] => []
  | (k, v) :: rest => (jsonString k ++ ": " ++ json v) :: jsonFields rest

end

mutual

/-- The sort of the first value inside a value that has no JSON text. -/
def jsonless? : Value → Option String
  | .undefined => some Value.undefined.sort
  | .constant name => some (Value.constant name).sort
  | .frozen entries => some (Value.frozen entries).sort
  | .list items => jsonlessItems? items
  | .tuple items => jsonlessItems? items
  | .dict entries => jsonlessEntries? entries
  | .record _ fields => jsonlessFields? fields
  | .object _ fields => jsonlessFields? fields
  | _ => none

def jsonlessItems? : List Value → Option String
  | [] => none
  | v :: rest => (jsonless? v).or (jsonlessItems? rest)

def jsonlessEntries? : List (Value × Value) → Option String
  | [] => none
  | (_, v) :: rest => (jsonless? v).or (jsonlessEntries? rest)

def jsonlessFields? : List (String × Value) → Option String
  | [] => none
  | (_, v) :: rest => (jsonless? v).or (jsonlessFields? rest)

end

end Text
end SchemaContext
