import SchemaContext.Value.Equality

/-!
# Order of values

Of the values that can be keys, texts are ordered by code points, numbers by their exact
values, false and true being zero and one, and tuples by the first items that differ.
Values of other sorts have no order, nor have values of two of these sorts. A NaN is
neither before nor after any number.
-/

namespace SchemaContext

/-- A number that is no NaN, exactly. -/
inductive Magnitude where
  | lowest
  /-- The number `n / 2 ^ halvings`. -/
  | finite (n : Int) (halvings : Nat)
  | highest
  deriving DecidableEq, Repr

namespace Magnitude

def less : Magnitude → Magnitude → Bool
  | lowest, lowest => false
  | lowest, _ => true
  | finite _ _, lowest => false
  | finite m j, finite n k => m * Binary64.powerOfTwo k < n * Binary64.powerOfTwo j
  | finite _ _, highest => true
  | highest, _ => false

def ofInt (n : Int) : Magnitude := finite n 0

end Magnitude

namespace Binary64

/-- The exact value of a double; a NaN has none. -/
def magnitude? (x : Binary64) : Option Magnitude :=
  match x.decode with
  | .nan => none
  | .infinite negative => some (if negative then .lowest else .highest)
  | .finite negative m e => some (.finite (signed negative (m * powerOfTwo e.toNat)) (-e).toNat)

end Binary64

namespace Value

/-- Whether a value is a number, a truth value or a NaN. -/
def isNumber : Value → Bool
  | bool _ | int _ | float _ | notNumber => true
  | _ => false

/-- The exact value of a number. -/
def magnitude? : Value → Option Magnitude
  | bool b => some (.ofInt (if b then 1 else 0))
  | int n => some (.ofInt n)
  | float x => x.magnitude?
  | _ => none

/-- Whether one number is before another. -/
def numberBefore (a b : Value) : Bool :=
  match a.magnitude?, b.magnitude? with
  | some m, some n => m.less n
  | _, _ => false

mutual

/-- Whether one value is before another; where it is open, the sorts of what has no order. -/
def before : Value → Value → Except (String × String) Bool
  | tuple items, b =>
    match b with
    | tuple others => itemsBefore items others
    | _ => .error ("tuple", b.sort)
  | a, b =>
    match a.text?, b.text? with
    | some s, some t => .ok (decide (s < t))
    | _, _ =>
      if a.isNumber && b.isNumber then .ok (a.numberBefore b) else .error (a.sort, b.sort)

/-- The first items that differ decide, and otherwise the lengths. -/
def itemsBefore : List Value → List Value → Except (String × String) Bool
  | [], others => .ok (!others.isEmpty)
  | v :: rest, others =>
    match others with
    | [] => .ok false
    | w :: others => if v.equal .apart w then itemsBefore rest others else before v w

end

end Value
end SchemaContext
