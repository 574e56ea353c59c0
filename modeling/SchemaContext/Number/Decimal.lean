import SchemaContext.Number.Binary64
import SchemaContext.Text.DecimalDigit

/-!
# Decimal numerals

The numerals of integer and float literals. An integer is a sign and digits; a float may
have a fraction and an exponent besides, or be one of the words for infinity and NaN.
Blanks may stand around a numeral, single underscores between its digits, and the digits
may be those of any script.

A float is read exactly, as digits times a power of ten, and then rounded once to the
nearest double; what lies beyond the largest double becomes infinite. An integer of too
many digits is not read.
-/

namespace SchemaContext

/-- The number `digits * 10 ^ exponent` with a sign; zero keeps its sign. -/
structure Decimal where
  negative : Bool
  digits : Nat
  exponent : Int
  deriving DecidableEq, Repr

namespace Decimal

def powerOfTen (n : Nat) : Nat := Nat.pow 10 n

def isDigit (c : Char) : Bool := '0' ≤ c && c ≤ '9'

/-- A digit of any script by its ASCII form. -/
def asciiDigit (c : Char) : Char :=
  match Text.decimalDigit? c with
  | some d => Char.ofNat ('0'.toNat + d)
  | none => c

def dropBlanks (cs : List Char) : List Char := cs.dropWhile Text.isBlank

/-- Drops the underscores, each of which must stand between two digits; `afterDigit` says whether
a digit stands in front. -/
def dropUnderscores? (afterDigit : Bool) : List Char → Option (List Char)
  | [] => some []
  | '_' :: c :: rest =>
    if afterDigit && isDigit c then (dropUnderscores? true rest).map (c :: ·) else none
  | c :: rest => if c = '_' then none else (dropUnderscores? (isDigit c) rest).map (c :: ·)

/-- A numeral without what may be added to it: blanks around, underscores, digits of any script. -/
def bare? (text : String) : Option (List Char) :=
  dropUnderscores? false
    ((dropBlanks (dropBlanks (text.toList.map asciiDigit)).reverse).reverse)

def digitsValue (cs : List Char) : Nat := cs.foldl (fun n c => 10 * n + (c.toNat - '0'.toNat)) 0

/-- Digits alone, at least one. -/
def readDigits? (cs : List Char) : Option Nat :=
  if cs ≠ [] ∧ cs.all isDigit then some (digitsValue cs) else none

def readSign (cs : List Char) : Bool × List Char :=
  match cs with
  | '-' :: rest => (true, rest)
  | '+' :: rest => (false, rest)
  | _ => (false, cs)

/-- A sign and digits. -/
def readInt? (cs : List Char) : Option Int :=
  let (negative, rest) := readSign cs
  (readDigits? rest).map fun n => if negative then -(n : Int) else n

/-- The exponent part of a numeral; it may be missing. -/
def readExponent? (cs : List Char) : Option Int :=
  match cs with
  | [] => some 0
  | c :: rest => if c = 'e' ∨ c = 'E' then readInt? rest else none

/-- Digits with an optional fraction and an optional exponent. -/
def readUnsigned? (negative : Bool) (cs : List Char) : Option Decimal := do
  let whole := cs.takeWhile isDigit
  let rest := cs.dropWhile isDigit
  let (fraction, rest) :=
    match rest with
    | '.' :: tail => (tail.takeWhile isDigit, tail.dropWhile isDigit)
    | _ => ([], rest)
  let digits ← readDigits? (whole ++ fraction)
  let exponent ← readExponent? rest
  return ⟨negative, digits, exponent - fraction.length⟩

/-- The most digits that an integer may have. -/
def maxIntDigits : Nat := 4300

/-- The integer that a text names. -/
def intOfText? (text : String) : Option Int := do
  let cs ← bare? text
  if cs.countP isDigit ≤ maxIntDigits then readInt? cs else none

def digitCount (n : Nat) : Nat := (Nat.toDigits 10 n).length

/-- The nearest double. Exponents far outside the range of doubles are settled without
computing the power. -/
def toBinary64 (d : Decimal) : Binary64 :=
  let scale : Int := digitCount d.digits + d.exponent
  if d.digits = 0 then .zero d.negative
  else if 310 < scale then .infinity d.negative
  else if scale < -330 then .zero d.negative
  else .ofRatio d.negative (d.digits * powerOfTen d.exponent.toNat) (powerOfTen (-d.exponent).toNat)

def ofInt (n : Int) : Decimal := ⟨n < 0, n.natAbs, 0⟩

/-- The double that a text names. The words are read in upper and lower case. -/
def doubleOfText? (text : String) : Option Binary64 := do
  let (negative, rest) := readSign (← bare? text)
  let word := String.ofList (rest.map Char.toLower)
  if word = "inf" ∨ word = "infinity" then return .infinity negative
  else if word = "nan" then return .nan negative
  else (readUnsigned? negative rest).map toBinary64

end Decimal
end SchemaContext
