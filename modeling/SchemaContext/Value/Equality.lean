import SchemaContext.Value.Basic

/-!
# Equality of values

Two values are equal when they hold the same data: numbers by their value, whatever
their sort, with false and true as zero and one; sequences item by item, a list never
being equal to a tuple; mappings entry by entry in any order; records and other objects
only within one class. A NaN equals no other number. Whether it equals itself depends on
what is compared: within one value compared with itself it does, between two values that
were made apart it does not. The value of an unreadable number equals itself always.
-/

namespace SchemaContext
namespace Value

/-- What is compared: a value with itself, or two values made apart. -/
inductive Comparison where
  | itself
  | apart
  deriving DecidableEq, Repr

/-- The integer that a number is, if it is one. -/
def integer? : Value → Option Int
  | bool b => some (if b then 1 else 0)
  | int n => some n
  | float x => x.toInt?
  | _ => none

/-- Equality of doubles; a NaN agrees with the same NaN in a value compared with itself. -/
def floatEqual (c : Comparison) (x y : Binary64) : Bool :=
  x.equal y || (c == .itself && x == y)

mutual

def equal (c : Comparison) : Value → Value → Bool
  | null, w => match w with | null => true | _ => false
  | undefined, w => match w with | undefined => true | _ => false
  | notNumber, w => match w with | notNumber => true | _ => false
  | str s, w => match w with | str t => s == t | _ => false
  | constant n, w => match w with | constant m => n == m | _ => false
  | float x, w =>
    match w with
    | float y => floatEqual c x y
    | _ => match x.toInt?, w.integer? with | some m, some n => m == n | _, _ => false
  | bool b, w => w.integer? == some (if b then 1 else 0)
  | int n, w => w.integer? == some n
  | list items, w => match w with | list others => equalItems c items others | _ => false
  | tuple items, w => match w with | tuple others => equalItems c items others | _ => false
  | dict entries, w =>
    match w.entries? with
    | some others => entries.length == others.length && equalEntries c entries others
    | none => false
  | frozen entries, w =>
    match w.entries? with
    | some others => entries.length == others.length && equalEntries c entries others
    | none => false
  | record cls fields, w =>
    match w with
    | record cls' others => cls == cls' && equalFields c fields others
    | _ => false
  | object cls fields, w =>
    match w with
    | object cls' others => cls == cls' && equalFields c fields others
    | _ => false

/-- Item by item, and equally many. -/
def equalItems (c : Comparison) : List Value → List Value → Bool
  | [], others => others.isEmpty
  | v :: rest, others =>
    match others with
    | [] => false
    | w :: others => equal c v w && equalItems c rest others

/-- Each entry has a partner of an equal key among the others. -/
def equalEntries (c : Comparison) : List (Value × Value) → List (Value × Value) → Bool
  | [], _ => true
  | (k, v) :: rest, others =>
    (match others.find? fun e => equal c k e.1 with
      | some e => equal c v e.2
      | none => false) && equalEntries c rest others

/-- Field by field, in the same order. -/
def equalFields (c : Comparison) : List (String × Value) → List (String × Value) → Bool
  | [], others => others.isEmpty
  | (k, v) :: rest, others =>
    match others with
    | [] => false
    | (k', w) :: others => k == k' && equal c v w && equalFields c rest others

end

section Equations

variable (c : Comparison)

@[simp] theorem equalItems_nil (others : List Value) : equalItems c [] others = others.isEmpty := by
  rw [equalItems]

@[simp] theorem equalItems_cons_nil (v : Value) (items : List Value) :
    equalItems c (v :: items) [] = false := by
  rw [equalItems]

@[simp] theorem equalItems_cons_cons (v w : Value) (items others : List Value) :
    equalItems c (v :: items) (w :: others) = (v.equal c w && equalItems c items others) := by
  rw [equalItems]

@[simp] theorem equalEntries_nil (others : List (Value × Value)) :
    equalEntries c [] others = true := by
  rw [equalEntries]

@[simp] theorem equalEntries_cons (e : Value × Value) (entries others : List (Value × Value)) :
    equalEntries c (e :: entries) others =
      (((others.find? fun o => e.1.equal c o.1).any fun o => e.2.equal c o.2) &&
        equalEntries c entries others) := by
  rw [equalEntries]
  cases others.find? fun o => e.1.equal c o.1 <;> rfl

@[simp] theorem equalFields_nil (others : List (String × Value)) :
    equalFields c [] others = others.isEmpty := by
  rw [equalFields]

@[simp] theorem equalFields_cons_nil (e : String × Value) (fields : List (String × Value)) :
    equalFields c (e :: fields) [] = false := by
  rw [equalFields]

@[simp] theorem equalFields_cons_cons (e o : String × Value)
    (fields others : List (String × Value)) :
    equalFields c (e :: fields) (o :: others) =
      (e.1 == o.1 && e.2.equal c o.2 && equalFields c fields others) := by
  rw [equalFields]

end Equations

end Value
end SchemaContext
