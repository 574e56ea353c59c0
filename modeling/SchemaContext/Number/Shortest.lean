import SchemaContext.Number.Decimal

/-!
# Shortest decimal text of a double

The text of a double has the fewest digits that read back as the same double, and
of those the digits nearest to it. `shortest` finds them in exact arithmetic: for
one digit, two digits, and so on, it looks at the two neighbours of the double on
the grid of numbers with so many digits. Seventeen digits always suffice.
-/

namespace SchemaContext
namespace Binary64

/-- The place of the leading digit of `num / den`: the quotient lies below `10 ^ place`, and
not below a tenth of that. -/
def leadingPlace (num den : Nat) : Int :=
  if den ≤ num then Decimal.digitCount (num / den)
  else 1 - (Decimal.digitCount (den / num) : Int)

/-- The numbers that read back as one double, as multiples of `1 / den`. -/
structure Cell where
  low : Nat
  value : Nat
  high : Nat
  den : Nat
  closed : Bool

namespace Cell

/-- The cell of `m * 2 ^ e`; the lower half of the cell of a power of two is half as wide. -/
def ofFinite (m : Nat) (e : Int) : Cell :=
  let narrow := m = powerOfTwo fractionBits ∧ leastExponent < e
  let scale := powerOfTwo (e - 2).toNat
  { low := (4 * m - if narrow then 1 else 2) * scale
    value := 4 * m * scale
    high := (4 * m + 2) * scale
    den := powerOfTwo (2 - e).toNat
    closed := m % 2 = 0 }

/-- Whether `n * 10 ^ place` lies in the cell. -/
def holds (c : Cell) (n : Nat) (place : Int) : Bool :=
  let x := n * Decimal.powerOfTen place.toNat * c.den
  let scale := Decimal.powerOfTen (-place).toNat
  if c.closed then c.low * scale ≤ x && x ≤ c.high * scale
  else c.low * scale < x && x < c.high * scale

/-- The grid neighbour of the value that lies in the cell; of two the nearer, or the even one. -/
def onGrid? (c : Cell) (place : Int) : Option Nat :=
  let num := c.value * Decimal.powerOfTen (-place).toNat
  let den := c.den * Decimal.powerOfTen place.toNat
  let below := num / den
  let remainder := num % den
  match c.holds below place, c.holds (below + 1) place with
  | false, false => none
  | true, false => some below
  | false, true => some (below + 1)
  | true, true =>
    if 2 * remainder < den ∨ (2 * remainder = den ∧ below % 2 = 0) then some below
    else some (below + 1)

/-- Tries ever finer grids, `tries` of them; the last is taken as it is. -/
def search (c : Cell) (place : Int) : Nat → Nat × Int
  | 0 =>
    (c.value * Decimal.powerOfTen (-place).toNat / (c.den * Decimal.powerOfTen place.toNat), place)
  | tries + 1 =>
    match c.onGrid? place with
    | some n => (n, place)
    | none => search c (place - 1) tries

end Cell

/-- The shortest digits of `m * 2 ^ e` and the place of the last of them. -/
def shortest (m : Nat) (e : Int) : Nat × Int :=
  let c := Cell.ofFinite m e
  c.search (leadingPlace c.value c.den - 1) 17

/-- Positional from a ten-thousandth up to sixteen digits before the point, else with an exponent
of at least two digits; an integral double keeps `.0`. -/
def finiteText (m : Nat) (e : Int) : String :=
  let (n, place) := if m = 0 then (0, 0) else shortest m e
  let digits := Nat.toDigits 10 n
  let point : Int := digits.length + place
  let zeros (k : Int) : List Char := List.replicate k.toNat '0'
  if -4 < point ∧ point ≤ 16 then
    let whole := if 0 < point then digits.take point.toNat ++ zeros place else ['0']
    let fraction := if 0 < point then digits.drop point.toNat else zeros (-point) ++ digits
    String.ofList (whole ++ '.' :: if fraction.isEmpty then ['0'] else fraction)
  else
    let significant := (digits.reverse.dropWhile (· = '0')).reverse
    let power := point - 1
    let exponent := Nat.toDigits 10 power.natAbs
    let exponent := if exponent.length < 2 then '0' :: exponent else exponent
    String.ofList (significant.take 1
      ++ (if significant.length ≤ 1 then [] else '.' :: significant.drop 1)
      ++ 'e' :: (if power < 0 then '-' else '+') :: exponent)

/-- The text of a double in which the words for the values that are no numbers are given. -/
def textWith (nan infinite : String) (x : Binary64) : String :=
  let signed (negative : Bool) (s : String) := if negative then "-" ++ s else s
  match x.decode with
  | .nan => nan
  | .infinite negative => signed negative infinite
  | .finite negative m e => signed negative (finiteText m e)

end Binary64
end SchemaContext
