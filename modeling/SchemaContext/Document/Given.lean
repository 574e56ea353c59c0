import SchemaContext.Document.Basic
import SchemaContext.Failure

/-!
# Documents as calls give them

A call gives its documents as a sequence. What it gives may be no sequence, the sequence
may break off, and an item of it may be no document. A document cannot be walked for
every schema, either: the types of its variables are made of what stands in the type map
under their names, and a list, or a required type, can be made of types only.
-/

namespace SchemaContext

/-- An item of what is given as documents. -/
inductive GivenDocument where
  | document (d : Document)
  /-- Something that is no syntax tree, with the text by which failures show it. -/
  | other (shown : String)

/-- What a call gives as its documents. -/
inductive Documents where
  | items (given : List GivenDocument)
  /-- A value that has no elements. -/
  | notIterable (sort : String)
  /-- A sequence that code of the caller breaks off. -/
  | broken (text : String)

instance : Coe (List Document) (List GivenDocument) := ⟨List.map .document⟩

instance : Coe (List GivenDocument) Documents := ⟨.items⟩

/-- Why no list can be made of an entry or, if so asked, why it cannot be required. -/
def Entry.wrapFault? (required : Bool) : Entry → Option Failure
  | type _ => none
  | foreign f =>
    match f.wraps with
    | none => some (.notSchema (.type ("<" ++ f.sort ++ " instance>")))
    | some w => if required && w.required then some (.notSchema (.nullable f.text)) else none

/-- Why the type of a variable cannot be made. A name that is not wrapped is only looked up, and
nothing is made of a name that is unknown. -/
def Schema.variableFault? (s : Schema) : TypeRef → Option Failure
  | .named n required =>
    if required then (s.typeMap.get? n).bind (Entry.wrapFault? true) else none
  | .list (.named n false) _ => (s.typeMap.get? n).bind (Entry.wrapFault? false)
  | .list item _ => s.variableFault? item

namespace Document

/-- The types of all variables of a document. -/
def variableTypes (d : Document) : List TypeRef := d.definitions.flatMap Definition.variableTypes

/-- The document, if it can be walked. Nothing but the type of a variable stops the walk. -/
def walked (s : Schema) (d : Document) : Except Failure Document :=
  match d.variableTypes.findSome? s.variableFault? with
  | some f => .error f
  | none => .ok d

end Document

namespace GivenDocument

def document? : GivenDocument → Option Document
  | document d => some d
  | other _ => none

/-- The document that is given, if it is one and can be walked. -/
def walked (s : Schema) : GivenDocument → Except Failure Document
  | document d => d.walked s
  | other shown => .error (.notSchema (.node shown))

end GivenDocument

namespace Documents

/-- The items that are given. -/
def listed : Documents → Except Failure (List GivenDocument)
  | items given => .ok given
  | notIterable sort => .error (.notIterable sort)
  | broken text => .error (.transformer text)

/-- The documents among the items. -/
def parsed : Documents → List Document
  | items given => given.filterMap GivenDocument.document?
  | _ => []

end Documents
end SchemaContext
