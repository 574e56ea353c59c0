/-!
# Double precision numbers

A double is kept as its 64 bits, so that every double, each NaN included, is a
value of its own. `decode` reads the bits as a signed significand times a power
of two; comparison and conversion work on that exact value. `ofRatio` goes the
other way: the double nearest to a quotient of natural numbers, a tie going to
the even significand.
-/

namespace SchemaContext

/-- A double precision number, by its bits. -/
structure Binary64 where
  bits : UInt64
  deriving DecidableEq, Repr

namespace Binary64

/-- What the bits stand for; a finite double is `significand * 2 ^ exponent` with a sign. -/
inductive Decoded where
  | nan
  | infinite (negative : Bool)
  | finite (negative : Bool) (significand : Nat) (exponent : Int)
  deriving DecidableEq, Repr

def fractionBits : Nat := 52

def powerOfTwo (n : Nat) : Nat := Nat.pow 2 n

/-- The exponent of the smallest double above zero. -/
def leastExponent : Int := -1074

def decode (x : Binary64) : Decoded :=
  let n := x.bits.toNat
  let negative := n / powerOfTwo 63 == 1
  let biased : Nat := n / powerOfTwo fractionBits % powerOfTwo 11
  let fraction := n % powerOfTwo fractionBits
  if biased = 2047 then
    if fraction = 0 then .infinite negative else .nan
  else if biased = 0 then .finite negative fraction leastExponent
  else .finite negative (powerOfTwo fractionBits + fraction) ((biased : Int) - 1 + leastExponent)

def isNaN (x : Binary64) : Bool := x.decode == .nan

/-- True of both zeros. -/
def isZero (x : Binary64) : Bool := x.bits.toNat % powerOfTwo 63 == 0

/-- Numeric equality: the two zeros agree, and a NaN differs from everything. -/
def equal (x y : Binary64) : Bool :=
  !x.isNaN && !y.isNaN && (x.bits == y.bits || (x.isZero && y.isZero))

/-- A natural number with a sign. -/
def signed (negative : Bool) (n : Nat) : Int := if negative then -n else n

/-- The integer that a double is, if it is one. -/
def toInt? (x : Binary64) : Option Int :=
  match x.decode with
  | .finite negative m e =>
    if 0 ≤ e then some (signed negative (m * powerOfTwo e.toNat))
    else if m % powerOfTwo (-e).toNat = 0 then
      some (signed negative (m / powerOfTwo (-e).toNat))
    else none
  | _ => none

def ofSigned (negative : Bool) (magnitude : Nat) : Binary64 :=
  ⟨UInt64.ofNat (if negative then powerOfTwo 63 + magnitude else magnitude)⟩

def zero (negative : Bool) : Binary64 := ofSigned negative 0

def infinity (negative : Bool) : Binary64 := ofSigned negative (2047 * powerOfTwo fractionBits)

/-- The NaN whose fraction has its first bit alone. -/
def nan (negative : Bool) : Binary64 := ofSigned negative (4095 * powerOfTwo (fractionBits - 1))

/-- Divides by a power of two on the side of the quotient that keeps both natural. -/
def scaledDiv (num den : Nat) (e : Int) : Nat × Nat × Nat :=
  let num := num * powerOfTwo (-e).toNat
  let den := den * powerOfTwo e.toNat
  (num / den, num % den, den)

/-- The double nearest to `num / den`, an exact tie going to the even significand. -/
def ofRatio (negative : Bool) (num den : Nat) : Binary64 :=
  if num = 0 ∨ den = 0 then zero negative
  else
    let guess : Int := (num.log2 : Int) - den.log2 - fractionBits
    let exponent :=
      if (scaledDiv num den guess).1 < powerOfTwo fractionBits then guess - 1 else guess
    let exponent := max exponent leastExponent
    let (quotient, remainder, den) := scaledDiv num den exponent
    let roundsUp := 2 * remainder > den ∨ (2 * remainder = den ∧ quotient % 2 = 1)
    let significand := if roundsUp then quotient + 1 else quotient
    if significand < powerOfTwo fractionBits then ofSigned negative significand
    else
      let magnitude := (exponent - leastExponent).toNat * powerOfTwo fractionBits + significand
      if magnitude < 2047 * powerOfTwo fractionBits then ofSigned negative magnitude
      else infinity negative

end Binary64
end SchemaContext
