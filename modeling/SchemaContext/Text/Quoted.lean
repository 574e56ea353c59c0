import SchemaContext.Text.Printable

/-!
# Quoted text

The way messages quote a text: in single quotes, or in double quotes where the text
has a single quote and no double quote. The backslash and the quote in use are
written with a backslash, line breaks and tabs by their letters, and every other
character that cannot be shown by its number in two, four or eight hexadecimal
digits. A list of names is written in brackets, its items quoted.
-/

namespace SchemaContext
namespace Text

/-- Hexadecimal digits, filled up with zeros to a width. -/
def hex (width n : Nat) : List Char :=
  let digits := Nat.toDigits 16 n
  List.replicate (width - digits.length) '0' ++ digits

/-- One character of a text quoted by `quote`. -/
def quotedChar (quote c : Char) : List Char :=
  if c = quote ∨ c = '\\' then ['\\', c]
  else if c = '\n' then ['\\', 'n']
  else if c = '\r' then ['\\', 'r']
  else if c = '\t' then ['\\', 't']
  else if isPrintable c then [c]
  else if c.toNat < 0x100 then '\\' :: 'x' :: hex 2 c.toNat
  else if c.toNat < 0x10000 then '\\' :: 'u' :: hex 4 c.toNat
  else '\\' :: 'U' :: hex 8 c.toNat

/-- Double quotes are used only where they save writing a single quote with a backslash. -/
def quoteFor (s : String) : Char :=
  if s.contains '\'' && !s.contains '"' then '"' else '\''

def quoted (s : String) : String :=
  let quote := quoteFor s
  String.ofList (quote :: s.toList.flatMap (quotedChar quote) ++ [quote])

def bracketed (items : List String) : String := "[" ++ String.intercalate ", " items ++ "]"

def braced (items : List String) : String := "\x7b" ++ String.intercalate ", " items ++ "\x7d"

/-- A list of names in brackets. -/
def quotedList (names : List String) : String := bracketed (names.map quoted)

end Text
end SchemaContext
