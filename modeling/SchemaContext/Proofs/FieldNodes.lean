import Mathlib.Data.List.Basic
import SchemaContext.Document.Introspection

/-!
# Field nodes

A field of a document stands in an operation or in a fragment, and there inside of other
fields and of inline fragments. This way down to a field is all that its type depends on:
it starts at a root type or at the type that a fragment is on, and each step goes from
one type to the next. What a walk over nested selections finds for the fields is told
here for each field node by itself.
-/

namespace SchemaContext

/-- Where the selections of a definition start. -/
inductive Start where
  | operation (kind : OperationKind)
  | fragment (on : String)

/-- What a field stands in. -/
inductive Enclosure where
  | field (name : String)
  | inline (on : Option String)

/-- A field with the way down to it. -/
structure FieldNode where
  start : Start
  /-- The outermost comes first. -/
  enclosing : List Enclosure
  name : String

namespace Schema

def startType? (s : Schema) : Start → Option NamedType
  | .operation kind => s.root? kind
  | .fragment on => s.condition? on

def typeInside? (s : Schema) (current : Option NamedType) : Enclosure → Option NamedType
  | .field name => s.fieldType? current name
  | .inline (some on) => s.condition? on
  | .inline none => current

def typeAt? (s : Schema) (start : Start) (way : List Enclosure) : Option NamedType :=
  way.foldl s.typeInside? (s.startType? start)

end Schema

/-- The type that a schema resolves for a field. -/
def FieldNode.type? (s : Schema) (n : FieldNode) : Option NamedType :=
  s.fieldType? (s.typeAt? n.start n.enclosing) n.name

mutual

def Selection.fieldNodes (start : Start) (way : List Enclosure) : Selection → List FieldNode
  | .field name selections =>
    ⟨start, way, name⟩ :: selectionsFieldNodes start (way ++ [.field name]) selections
  | .spread _ => []
  | .inline on selections => selectionsFieldNodes start (way ++ [.inline on]) selections

def selectionsFieldNodes (start : Start) (way : List Enclosure) : List Selection → List FieldNode
  | [] => []
  | selection :: rest => selection.fieldNodes start way ++ selectionsFieldNodes start way rest

end

def Definition.fieldNodes : Definition → List FieldNode
  | operation kind selections _ => selectionsFieldNodes (.operation kind) [] selections
  | fragment _ on selections => selectionsFieldNodes (.fragment on) [] selections

def Document.fieldNodes (d : Document) : List FieldNode :=
  d.definitions.flatMap Definition.fieldNodes

section Types

variable {s : Schema}

theorem Schema.typeAt?_concat (start : Start) (way : List Enclosure) (e : Enclosure) :
    s.typeAt? start (way ++ [e]) = s.typeInside? (s.typeAt? start way) e := by
  rw [typeAt?, List.foldl_append]
  rfl

mutual

theorem Selection.fieldTypes_eq (start : Start) (way : List Enclosure) :
    (x : Selection) → x.fieldTypes s (s.typeAt? start way) =
      (x.fieldNodes start way).filterMap (FieldNode.type? s)
  | .field name selections => by
    have hinside := selectionsFieldTypes_eq start (way ++ [.field name]) selections
    rw [s.typeAt?_concat] at hinside
    have htype : FieldNode.type? s ⟨start, way, name⟩ = s.fieldType? (s.typeAt? start way) name :=
      rfl
    rw [Selection.fieldTypes, Selection.fieldNodes, List.filterMap_cons, htype, ← hinside,
      Schema.typeInside?]
    cases s.fieldType? (s.typeAt? start way) name <;> rfl
  | .spread _ => by
    rw [Selection.fieldTypes, Selection.fieldNodes]
    rfl
  | .inline none selections => by
    have hinside := selectionsFieldTypes_eq start (way ++ [.inline none]) selections
    rw [s.typeAt?_concat] at hinside
    rw [Selection.fieldTypes, Selection.fieldNodes, ← hinside, Schema.typeInside?]
  | .inline (some on) selections => by
    have hinside := selectionsFieldTypes_eq start (way ++ [.inline (some on)]) selections
    rw [s.typeAt?_concat] at hinside
    rw [Selection.fieldTypes, Selection.fieldNodes, ← hinside, Schema.typeInside?]

theorem selectionsFieldTypes_eq (start : Start) (way : List Enclosure) :
    (xs : List Selection) → selectionsFieldTypes s (s.typeAt? start way) xs =
      (selectionsFieldNodes start way xs).filterMap (FieldNode.type? s)
  | [] => by
    rw [selectionsFieldTypes, selectionsFieldNodes]
    rfl
  | x :: rest => by
    rw [selectionsFieldTypes, selectionsFieldNodes, List.filterMap_append,
      Selection.fieldTypes_eq start way x, selectionsFieldTypes_eq start way rest]

end

/-- A walk over a document finds the types of its field nodes, in their order. -/
theorem Document.fieldTypes_eq (d : Document) :
    d.fieldTypes s = d.fieldNodes.filterMap (FieldNode.type? s) := by
  rw [fieldTypes, fieldNodes, List.filterMap_flatMap]
  apply List.flatMap_congr
  rintro (⟨kind, selections, _⟩ | ⟨name, on, selections⟩) _
  · exact selectionsFieldTypes_eq (.operation kind) [] selections
  · exact selectionsFieldTypes_eq (.fragment on) [] selections

theorem Schema.fieldType?_of_not_composite {current : Option NamedType}
    (h : current.filter (fun t => t.body.isComposite) = none) (name : String) :
    s.fieldType? current name = none := by
  rw [fieldType?, h]
  rfl

/-- Below a place with no type that could have fields there is no such type, unless a type condition
brings one. -/
theorem Schema.not_composite_below {way : List Enclosure} (hway : ∀ on, .inline (some on) ∉ way)
    {current : Option NamedType} (h : current.filter (fun t => t.body.isComposite) = none) :
    (way.foldl s.typeInside? current).filter (fun t => t.body.isComposite) = none := by
  induction way generalizing current with
  | nil => exact h
  | cons e way ih =>
    rw [List.foldl_cons]
    refine ih (fun on hon => hway on (List.mem_cons_of_mem _ hon)) ?_
    cases e with
    | field name =>
      rw [typeInside?, s.fieldType?_of_not_composite h]
      rfl
    | inline on =>
      cases on with
      | none => exact h
      | some on => exact absurd List.mem_cons_self (hway on)

theorem FieldNode.type?_of_unresolved {n : FieldNode} {above below : List Enclosure}
    (hway : n.enclosing = above ++ below)
    (habove : (s.typeAt? n.start above).filter (fun t => t.body.isComposite) = none)
    (hbelow : ∀ on, .inline (some on) ∉ below) : n.type? s = none := by
  rw [type?, hway, Schema.typeAt?, List.foldl_append]
  exact s.fieldType?_of_not_composite (s.not_composite_below hbelow habove) n.name

end Types

end SchemaContext
