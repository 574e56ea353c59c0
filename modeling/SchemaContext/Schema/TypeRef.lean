/-!
# Type references

A reference names a type and wraps it in any number of list layers; each layer, and
the named type itself, either admits null or requires a value. The printed form puts
a list in brackets and an exclamation mark behind what is required. `resolve`
describes a reference without its structure: the name, the number of list layers, and
where null is allowed.
-/

namespace SchemaContext

inductive TypeRef where
  | named (name : String) (required : Bool)
  | list (item : TypeRef) (required : Bool)
  deriving DecidableEq, Repr

namespace TypeRef

/-- Whether null is excluded at the outermost layer. -/
def required : TypeRef → Bool
  | named _ r | list _ r => r

/-- The name of the type inside all wrappers. -/
def name : TypeRef → String
  | named n _ => n
  | list item _ => item.name

/-- The number of list layers. -/
def dimension : TypeRef → Nat
  | named _ _ => 0
  | list item _ => item.dimension + 1

/-- Whether some list layer requires its items. -/
def itemsRequired : TypeRef → Bool
  | named _ _ => false
  | list item _ => item.required || item.itemsRequired

def withRequired (r : Bool) : TypeRef → TypeRef
  | named n _ => named n r
  | list item _ => list item r

/-- The reference printed as a sequence of characters. -/
def chars : TypeRef → List Char
  | named n r => n.toList ++ if r then ['!'] else []
  | list item r => '[' :: item.chars ++ ']' :: if r then ['!'] else []

/-- The printed form of a reference. -/
def print (t : TypeRef) : String := String.ofList t.chars

/-- Applies the marks behind a name, innermost first, and counts the brackets closed. -/
def closeWith (t : TypeRef) (closed : Nat) : List Char → Option (TypeRef × Nat)
  | [] => some (t, closed)
  | '!' :: rest => if t.required then none else closeWith (t.withRequired true) closed rest
  | ']' :: rest => closeWith (list t false) (closed + 1) rest
  | _ => none

/-- Reads a printed reference; `none` if the text prints no reference. -/
def read? (text : String) : Option TypeRef :=
  let cs := text.toList
  let opened := (cs.takeWhile (· = '[')).length
  let rest := cs.drop opened
  let isMark (c : Char) : Bool := c = '[' || c = ']' || c = '!'
  let name := rest.takeWhile fun c => !isMark c
  match closeWith (named (String.ofList name) false) 0 (rest.drop name.length) with
  | some (t, closed) => if closed = opened then some t else none
  | none => none

end TypeRef

/-- What a reference says besides its nesting. -/
structure ResolvedType where
  name : String
  isRequired : Bool
  isArray : Bool
  isNullableArray : Bool
  dimension : Nat
  deriving DecidableEq, Repr

/-- An array is nullable where no list layer requires its items. -/
def TypeRef.resolve (t : TypeRef) : ResolvedType :=
  { name := t.name
    isRequired := t.required
    isArray := t.dimension > 0
    isNullableArray := t.dimension > 0 && !t.itemsRequired
    dimension := t.dimension }

end SchemaContext
