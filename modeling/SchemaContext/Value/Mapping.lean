import SchemaContext.Value.Equality

/-!
# Mappings

Keys are told apart by equality of values, so that 1, 1.0 and true are one key. A key
that is known keeps its place and the form in which it first came, and takes the new
value; a new key goes last.
-/

namespace SchemaContext
namespace Mapping

/-- Whether two values are one key. -/
def sameKey (a b : Value) : Bool := a.equal .apart b

def keys (m : Mapping) : List Value := m.map Prod.fst

/-- The value under a key, if the key is there. -/
def get? (m : Mapping) (k : Value) : Option Value :=
  match m with
  | [] => none
  | (k', v) :: rest => if sameKey k k' then some v else get? rest k

/-- A known key keeps its place and form, a new key goes last. -/
def put (m : Mapping) (k v : Value) : Mapping :=
  match m with
  | [] => [(k, v)]
  | (k', v') :: rest => if sameKey k k' then (k', v) :: rest else (k', v') :: put rest k v

/-- All entries of the second mapping, put into the first in order. -/
def update (m n : Mapping) : Mapping := n.foldl (fun m e => m.put e.1 e.2) m

/-- The mapping of a sequence of pairs. -/
def ofPairs (pairs : List (Value × Value)) : Mapping := update [] pairs

/-- The different keys among values, each in the form in which it first comes. -/
def distinctKeys (vs : List Value) : List Value := (ofPairs (vs.map fun v => (v, .null))).keys

theorem sameKey_str (s t : String) : sameKey (.str s) (.str t) = (s == t) := by
  simp [sameKey, Value.equal]

/-- Among keys that are texts, a text finds what it finds among the entries. -/
theorem get?_ofEntries (m : Entries Value) (s : String) :
    get? (Mapping.ofEntries m) (.str s) = m.get? s := by
  induction m with
  | nil => rfl
  | cons e m ih =>
    have h : get? (Mapping.ofEntries (e :: m)) (.str s)
        = if sameKey (.str s) (.str e.1) then some e.2
          else get? (Mapping.ofEntries m) (.str s) := rfl
    rw [h, ih, sameKey_str, Entries.get?_cons]
    by_cases hs : e.1 = s
    · simp [hs]
    · simp [hs, Ne.symm hs]

/-- Putting under a text is putting into the entries. -/
theorem put_ofEntries (m : Entries Value) (s : String) (v : Value) :
    put (Mapping.ofEntries m) (.str s) v = Mapping.ofEntries (m.put s v) := by
  induction m with
  | nil => rfl
  | cons e m ih =>
    have h : put (Mapping.ofEntries (e :: m)) (.str s) v
        = if sameKey (.str s) (.str e.1) then (.str e.1, v) :: Mapping.ofEntries m
          else (.str e.1, e.2) :: put (Mapping.ofEntries m) (.str s) v := rfl
    rw [h, ih, sameKey_str]
    by_cases hs : e.1 = s
    · simp [hs, Entries.put, ofEntries]
    · simp [hs, Ne.symm hs, Entries.put, ofEntries]

end Mapping
end SchemaContext
