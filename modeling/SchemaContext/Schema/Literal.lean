import SchemaContext.Number.Decimal
import SchemaContext.Text.Quoted
import SchemaContext.Value.Basic

/-!
# Literals

A literal is the syntax of a value: of a directive's argument, or of a part of one.
Numbers keep the text they were written with. `print` gives the literal back as text;
`untyped` is its value where no type asks for a particular one.
-/

namespace SchemaContext

inductive Literal where
  | int (text : String)
  | float (text : String)
  | string (text : String)
  | bool (b : Bool)
  | null
  | enum (name : String)
  | var (name : String)
  | list (items : List Literal)
  | object (fields : List (String × Literal))
  deriving Inhabited

namespace Literal

/-- One character inside a printed string. -/
def printChar (c : Char) : List Char :=
  if c = '"' ∨ c = '\\' then ['\\', c]
  else if c = '\x08' then ['\\', 'b']
  else if c = '\t' then ['\\', 't']
  else if c = '\n' then ['\\', 'n']
  else if c = '\x0c' then ['\\', 'f']
  else if c = '\r' then ['\\', 'r']
  else if c.toNat < 0x20 ∨ (0x7f ≤ c.toNat ∧ c.toNat < 0xa0) then
    '\\' :: 'u' :: (Text.hex 4 c.toNat).map Char.toUpper
  else [c]

def printString (s : String) : String :=
  String.ofList ('"' :: s.toList.flatMap printChar ++ ['"'])

/-- The items of a printed list in brackets. An item without a text leaves no comma behind. -/
def printedList (items : List String) : String :=
  Text.bracketed (items.filter fun item => item ≠ "")

mutual

def print : Literal → String
  | int text | float text => text
  | string s => printString s
  | bool b => if b then "true" else "false"
  | null => "null"
  | enum n => n
  | var n => "$" ++ n
  | list items => printedList (printItems items)
  | object fields => Text.braced (printFields fields)

def printItems : List Literal → List String
  | [] => []
  | l :: rest => print l :: printItems rest

def printFields : List (String × Literal) → List String
  | [] => []
  | (k, l) :: rest => (k ++ ": " ++ print l) :: printFields rest

end

/-- The name of the variable, if the literal is one. -/
def varName? : Literal → Option String
  | var n => some n
  | _ => none

def isNull : Literal → Bool
  | null => true
  | _ => false

/-- The value of a number, if its text names one. -/
def number (x : Option Value) : Value := x.getD .notNumber

mutual

/-- The value of a literal without a type. A variable leaves an undefined value. Of two fields of
one name the later counts. -/
def untyped : Literal → Value
  | int text => number ((Decimal.intOfText? text).map .int)
  | float text => number ((Decimal.doubleOfText? text).map .float)
  | string s => .str s
  | bool b => .bool b
  | null => .null
  | enum n => .str n
  | var _ => .undefined
  | list items => .list (untypedItems items)
  | object fields => .ofEntries (Entries.ofList (untypedFields fields))

def untypedItems : List Literal → List Value
  | [] => []
  | l :: rest => untyped l :: untypedItems rest

def untypedFields : List (String × Literal) → List (String × Value)
  | [] => []
  | (k, l) :: rest => (k, untyped l) :: untypedFields rest

end

end Literal
end SchemaContext
