import Mathlib.Data.List.Pairwise
import Mathlib.Logic.Relation
import SchemaContext.Proofs.DocumentEffect
import SchemaContext.Proofs.EventTrace

/-!
# Fragments written out

A spread is not followed, and a fragment's definition is walked by itself, away from the
places where it is spread. What its fields come to depends on the type that the fragment
is on and on nothing around it, so that the fragment can be written in place of its
spreads: the enums that the document introspects stay the same, though they may be met
in another order.
-/

namespace SchemaContext

structure Fragment where
  name : String
  on : String
  selections : List Selection

namespace Fragment

def definition (f : Fragment) : Definition := .fragment f.name f.on f.selections

def inPlace (f : Fragment) : Selection := .inline (some f.on) f.selections

def fieldTypes (s : Schema) (f : Fragment) : List NamedType :=
  selectionsFieldTypes s (s.condition? f.on) f.selections

end Fragment

mutual

def Selection.spreads : Selection → List String
  | .field _ selections => selectionsSpreads selections
  | .spread name => [name]
  | .inline _ selections => selectionsSpreads selections

def selectionsSpreads : List Selection → List String
  | [] => []
  | selection :: rest => selection.spreads ++ selectionsSpreads rest

end

mutual

/-- A selection in which a fragment stands in place of its spreads. -/
def Selection.inlining (f : Fragment) : Selection → Selection
  | .field name selections => .field name (selectionsInlining f selections)
  | .spread name => if name = f.name then f.inPlace else .spread name
  | .inline on selections => .inline on (selectionsInlining f selections)

def selectionsInlining (f : Fragment) : List Selection → List Selection
  | [] => []
  | selection :: rest => selection.inlining f :: selectionsInlining f rest

end

namespace Definition

def fragmentName? : Definition → Option String
  | operation _ _ _ => none
  | fragment name _ _ => some name

def spreads : Definition → List String
  | operation _ selections _ | fragment _ _ selections => selectionsSpreads selections

def inlining (f : Fragment) : Definition → Definition
  | operation kind selections variableTypes =>
    .operation kind (selectionsInlining f selections) variableTypes
  | fragment name on selections => .fragment name on (selectionsInlining f selections)

end Definition

namespace Document

def fragmentNames (d : Document) : List String := d.definitions.filterMap Definition.fragmentName?

def Spreads (d : Document) (name other : String) : Prop :=
  ∃ x ∈ d.definitions, x.fragmentName? = some name ∧ other ∈ x.spreads

/-- A document in which a fragment stands in place of its spreads, and is not defined any more. -/
def inlining (d : Document) (f : Fragment) : Document :=
  { d with
    definitions :=
      (d.definitions.filter fun x => x.fragmentName? ≠ some f.name).map (Definition.inlining f) }

/-- The document defines the fragment, spreads it somewhere, and the fragment does not lead back to
itself. -/
structure Inlines (d : Document) (f : Fragment) : Prop where
  unique : d.fragmentNames.Nodup
  defined : f.definition ∈ d.definitions
  spread : ∃ x ∈ d.definitions, f.name ∈ x.spreads
  acyclic : ¬ Relation.TransGen d.Spreads f.name f.name

/-- Documents one of which has fragments where the other has their selections, any number of them
written out or taken together. -/
def Refactors : Document → Document → Prop :=
  Relation.EqvGen fun d d' => ∃ f, d.Inlines f ∧ d' = d.inlining f

end Document

section FieldTypes

variable {s : Schema} {f : Fragment} {t : NamedType}

mutual

/-- The type at the place of a spread is of no account, since the inline fragment brings its own. -/
theorem Selection.mem_fieldTypes_inlining (current : Option NamedType) :
    (x : Selection) → (t ∈ (x.inlining f).fieldTypes s current ↔
      t ∈ x.fieldTypes s current ∨ (f.name ∈ x.spreads ∧ t ∈ f.fieldTypes s))
  | .field name selections => by
    have hinside := mem_selectionsFieldTypes_inlining (s.fieldType? current name) selections
    rw [Selection.inlining, Selection.fieldTypes, Selection.fieldTypes, Selection.spreads,
      List.mem_append, List.mem_append, hinside, or_assoc]
  | .spread name => by
    by_cases hname : name = f.name
    · simp [Selection.inlining, Selection.fieldTypes, Selection.spreads, hname, Fragment.inPlace,
        Fragment.fieldTypes]
    · simp [Selection.inlining, Selection.fieldTypes, Selection.spreads, hname, Ne.symm hname]
  | .inline none selections => by
    have hinside := mem_selectionsFieldTypes_inlining current selections
    rw [Selection.inlining, Selection.fieldTypes, Selection.fieldTypes, Selection.spreads, hinside]
  | .inline (some on) selections => by
    have hinside := mem_selectionsFieldTypes_inlining (s.condition? on) selections
    rw [Selection.inlining, Selection.fieldTypes, Selection.fieldTypes, Selection.spreads, hinside]

theorem mem_selectionsFieldTypes_inlining (current : Option NamedType) :
    (xs : List Selection) → (t ∈ selectionsFieldTypes s current (selectionsInlining f xs) ↔
      t ∈ selectionsFieldTypes s current xs ∨ (f.name ∈ selectionsSpreads xs ∧ t ∈ f.fieldTypes s))
  | [] => by simp [selectionsInlining, selectionsFieldTypes, selectionsSpreads]
  | x :: rest => by
    have hx := Selection.mem_fieldTypes_inlining current x
    have hrest := mem_selectionsFieldTypes_inlining current rest
    rw [selectionsInlining, selectionsFieldTypes, selectionsFieldTypes, selectionsSpreads,
      List.mem_append, List.mem_append, List.mem_append, hx, hrest, or_and_right, or_or_or_comm]

end

theorem Definition.mem_fieldTypes_inlining (x : Definition) :
    t ∈ (x.inlining f).fieldTypes s ↔
      t ∈ x.fieldTypes s ∨ (f.name ∈ x.spreads ∧ t ∈ f.fieldTypes s) := by
  cases x with
  | operation kind selections _ => exact mem_selectionsFieldTypes_inlining (s.root? kind) selections
  | fragment name on selections =>
    exact mem_selectionsFieldTypes_inlining (s.condition? on) selections

theorem Document.definition_eq_of_name {d : Document} (hunique : d.fragmentNames.Nodup)
    {x y : Definition} (hx : x ∈ d.definitions) (hy : y ∈ d.definitions) {name : String}
    (hxname : x.fragmentName? = some name) (hyname : y.fragmentName? = some name) : x = y := by
  by_contra hne
  rw [fragmentNames, List.Nodup, List.pairwise_filterMap] at hunique
  have hsymm : Std.Symm fun a b : Definition =>
      ∀ n, a.fragmentName? = some n → ∀ m, b.fragmentName? = some m → n ≠ m :=
    ⟨fun a b hab n hn m hm => (hab m hm n hn).symm⟩
  exact hunique.forall hx hy hne name hxname name hyname rfl

/-- Fields of the same types are selected when a fragment is written out. The definition that goes
leaves its fields at each of its spreads, and one of these stands in a definition that stays. -/
theorem Document.Inlines.mem_fieldTypes_iff {d : Document} (h : d.Inlines f) :
    t ∈ (d.inlining f).fieldTypes s ↔ t ∈ d.fieldTypes s := by
  simp only [Document.fieldTypes, Document.inlining, List.mem_flatMap]
  constructor
  · rintro ⟨y, hy, ht⟩
    obtain ⟨x, hx, rfl⟩ := List.mem_map.1 hy
    rcases x.mem_fieldTypes_inlining.1 ht with ht | ⟨-, ht⟩
    · exact ⟨x, (List.mem_filter.1 hx).1, ht⟩
    · exact ⟨f.definition, h.defined, ht⟩
  · have hstays {x : Definition} (hx : x ∈ d.definitions) (hname : x.fragmentName? ≠ some f.name) :
        x.inlining f ∈ (d.definitions.filter fun x => x.fragmentName? ≠ some f.name).map
          (Definition.inlining f) :=
      List.mem_map_of_mem (List.mem_filter.2 ⟨hx, decide_eq_true hname⟩)
    rintro ⟨x, hx, ht⟩
    by_cases hname : x.fragmentName? = some f.name
    · obtain rfl := definition_eq_of_name h.unique hx h.defined hname rfl
      obtain ⟨y, hy, hspread⟩ := h.spread
      have hother : y.fragmentName? ≠ some f.name :=
        fun hself => h.acyclic (.single ⟨y, hy, hself, hspread⟩)
      exact ⟨_, hstays hy hother, y.mem_fieldTypes_inlining.2 (.inr ⟨hspread, ht⟩)⟩
    · exact ⟨_, hstays hx hname, x.mem_fieldTypes_inlining.2 (.inl ht)⟩

theorem Document.acyclic_of_spreads_nil {d : Document} {name : String}
    (h : ∀ x ∈ d.definitions, x.fragmentName? = some name → x.spreads = []) :
    ¬ Relation.TransGen d.Spreads name name := by
  intro hcycle
  obtain ⟨other, ⟨x, hx, hname, hother⟩, -⟩ := Relation.TransGen.head'_iff.1 hcycle
  rw [h x hx hname] at hother
  exact absurd hother List.not_mem_nil

theorem Document.Refactors.mem_fieldTypes_iff {d d' : Document} (h : d.Refactors d') :
    t ∈ d'.fieldTypes s ↔ t ∈ d.fieldTypes s := by
  induction h with
  | rel d d' hstep =>
    obtain ⟨f, hf, rfl⟩ := hstep
    exact hf.mem_fieldTypes_iff
  | refl d => exact Iff.rfl
  | symm d d' _ ih => exact ih.symm
  | trans d d' d'' _ _ ih ih' => exact ih'.trans ih

theorem Document.variableTypes_inlining (d : Document) (f : Fragment) :
    (d.inlining f).variableTypes = d.variableTypes := by
  have hdefinitions (xs : List Definition) :
      ((xs.filter fun x => x.fragmentName? ≠ some f.name).map (Definition.inlining f)).flatMap
        Definition.variableTypes = xs.flatMap Definition.variableTypes := by
    induction xs with
    | nil => rfl
    | cons x xs ih =>
      cases x with
      | operation kind selections types => exact congrArg (types ++ ·) ih
      | fragment name on selections =>
        by_cases hname : name = f.name
        · simpa [Definition.fragmentName?, hname, Definition.variableTypes] using ih
        · simpa [Definition.fragmentName?, hname, Definition.variableTypes,
            Definition.inlining] using ih
  exact hdefinitions d.definitions

theorem Document.Refactors.variableTypes_eq {d d' : Document} (h : d.Refactors d') :
    d'.variableTypes = d.variableTypes := by
  induction h with
  | rel d d' hstep =>
    obtain ⟨f, -, rfl⟩ := hstep
    exact d.variableTypes_inlining f
  | refl d => rfl
  | symm d d' _ ih => exact ih.symm
  | trans d d' d'' _ _ ih ih' => exact ih'.trans ih

/-- Types of fields that have the same name are the same, so that no enum is lost to a namesake. -/
theorem mem_introspectionEnums {documents : List Document} :
    t ∈ introspectionEnums s documents ↔
      (∃ d ∈ documents, t ∈ d.fieldTypes s) ∧ t.isIntrospectionEnum = true := by
  have hselected : t ∈ (documents.flatMap (Document.fieldTypes s)).filter
      NamedType.isIntrospectionEnum ↔
      (∃ d ∈ documents, t ∈ d.fieldTypes s) ∧ t.isIntrospectionEnum = true := by
    rw [List.mem_filter, List.mem_flatMap]
  rw [← hselected]
  constructor
  · exact mem_of_mem_firstOccurrences
  · intro ht
    obtain ⟨u, hu, hname⟩ := List.mem_map.1
      (mem_map_firstOccurrences.2 (List.mem_map_of_mem (f := NamedType.name) ht))
    have hresolves {v : NamedType} (hv : v ∈ (documents.flatMap (Document.fieldTypes s)).filter
        NamedType.isIntrospectionEnum) : s.resolve? v.name = some v := by
      obtain ⟨d, -, hv⟩ := List.mem_flatMap.1 (List.mem_filter.1 hv).1
      exact Document.resolve?_of_mem_fieldTypes hv
    have hresolve := hresolves (mem_of_mem_firstOccurrences hu)
    rw [hname, hresolves ht] at hresolve
    rwa [Option.some.inj hresolve]

theorem introspectionEnums_perm {documents documents' : List Document}
    (h : ∀ t, (∃ d ∈ documents', t ∈ d.fieldTypes s) ↔ ∃ d ∈ documents, t ∈ d.fieldTypes s) :
    (introspectionEnums s documents').Perm (introspectionEnums s documents) := by
  have hnodup (documents : List Document) : (introspectionEnums s documents).Nodup :=
    List.Nodup.of_map _ (nodup_map_firstOccurrences NamedType.name _)
  refine (List.perm_ext_iff_of_nodup (hnodup _) (hnodup _)).2 fun t => ?_
  rw [mem_introspectionEnums, mem_introspectionEnums, h]

end FieldTypes

/-- The enums that documents introspect stay the same, up to their order, when a fragment of one of
the documents is written in place of its spreads and its definition goes: for every fragment of a
document with uniquely named fragments that is spread somewhere, be it in another fragment, and that
does not lead back to itself, whatever type it is on, and wherever it is spread. So they do not
depend on how selections are put into fragments. Nor does it whether the documents can be walked,
so that their enums can be collected at all. -/
theorem collectIntrospection_ignores_factoring (s : Schema) (before after : List Document)
    (j : Journal) :
    (∀ {d : Document} {f : Fragment}, d.Inlines f →
      ∃ enums enums', enums'.Perm enums ∧
        ((collectIntrospection s (before ++ d :: after : List Document)).outcome j).1 =
          (fun _ => enums) <$> Documents.walked s (before ++ d :: after : List Document) ∧
        ((collectIntrospection s (before ++ d.inlining f :: after : List Document)).outcome j).1 =
          (fun _ => enums') <$> Documents.walked s (before ++ d :: after : List Document)) ∧
    (∀ {d d' : Document}, d.Refactors d' →
      ∃ enums enums', enums'.Perm enums ∧
        ((collectIntrospection s (before ++ d :: after : List Document)).outcome j).1 =
          (fun _ => enums) <$> Documents.walked s (before ++ d :: after : List Document) ∧
        ((collectIntrospection s (before ++ d' :: after : List Document)).outcome j).1 =
          (fun _ => enums') <$> Documents.walked s (before ++ d :: after : List Document)) := by
  have hrefactors {d d' : Document} (h : d.Refactors d') :
      (introspectionEnums s (before ++ d' :: after)).Perm
        (introspectionEnums s (before ++ d :: after)) := by
    apply introspectionEnums_perm
    intro t
    simp [or_and_right, exists_or, h.mem_fieldTypes_iff]
  have hcollects {d d' : Document} (h : d.Refactors d') :
      ((collectIntrospection s (before ++ d' :: after : List Document)).outcome j).1 =
        (fun _ => introspectionEnums s (before ++ d' :: after)) <$>
          Documents.walked s (before ++ d :: after : List Document) := by
    rw [collectIntrospection_yields s (before ++ d' :: after) j]
    refine Documents.walked_alike (List.rel_append (R := fun d d' : Document =>
      d'.variableTypes = d.variableTypes) ?_ (.cons h.variableTypes_eq ?_)) _
    · exact List.forall₂_same.2 fun _ _ => rfl
    · exact List.forall₂_same.2 fun _ _ => rfl
  constructor
  · intro d f h
    have hstep : d.Refactors (d.inlining f) := .rel _ _ ⟨f, h, rfl⟩
    exact ⟨_, _, hrefactors hstep, hcollects (.refl d), hcollects hstep⟩
  · intro d d' h
    exact ⟨_, _, hrefactors h, hcollects (.refl d), hcollects h⟩

namespace Library

def describedSchema : Schema := schema.edit (.set "__Type" (.type BuiltIn.typeType))

/-- The kind of a type, asked for on a type that the schema does not have. -/
def kindFragment : Fragment :=
  { name := "Kind", on := "Shelf", selections := [.inline (some "__Type") [.field "kind" []]] }

def elementFragment : Fragment :=
  { name := "Element", on := "__Type", selections := [.field "ofType" [.spread "Kind"]] }

def factoredQuery : Document :=
  { definitions :=
      [.operation .query
        [.field "__type" [.spread "Element"],
         .field "__schema" [.field "directives" [.field "locations" []]]],
       elementFragment.definition, kindFragment.definition]
    file := none }

theorem factoredQuery_inlines : factoredQuery.Inlines kindFragment where
  unique := by decide
  defined := .tail _ (.tail _ (.head _))
  spread := ⟨elementFragment.definition, .tail _ (.head _), by decide⟩
  acyclic := Document.acyclic_of_spreads_nil (by decide)

def plainElementFragment : Fragment :=
  { elementFragment with selections := [.field "ofType" [kindFragment.inPlace]] }

theorem factoredQuery_inlines_next :
    (factoredQuery.inlining kindFragment).Inlines plainElementFragment where
  unique := by decide
  defined := .tail _ (.head _)
  spread := ⟨_, .head _, by decide⟩
  acyclic := Document.acyclic_of_spreads_nil (by decide)

end Library

/-- With the one fragment written out the same enums are found, and with both they are met in
another order. -/
theorem collectIntrospection_ignores_factoring_library :
    ((collectIntrospection Library.describedSchema [.document Library.factoredQuery]).outcome
        {}).1 = .ok [BuiltIn.directiveLocation, BuiltIn.typeKind] ∧
      (∃ enums, ((collectIntrospection Library.describedSchema
          [.document (Library.factoredQuery.inlining Library.kindFragment)]).outcome {}).1 =
            .ok enums ∧
        enums.Perm [BuiltIn.directiveLocation, BuiltIn.typeKind]) ∧
      ∃ enums, ((collectIntrospection Library.describedSchema
          [.document ((Library.factoredQuery.inlining Library.kindFragment).inlining
            Library.plainElementFragment)]).outcome {}).1 = .ok enums ∧
        enums.Perm [BuiltIn.directiveLocation, BuiltIn.typeKind] ∧
        enums = [BuiltIn.typeKind, BuiltIn.directiveLocation] := by
  have hfound : ((collectIntrospection Library.describedSchema
      [.document Library.factoredQuery]).outcome {}).1 =
      .ok [BuiltIn.directiveLocation, BuiltIn.typeKind] := rfl
  have hboth : Library.factoredQuery.Refactors
      ((Library.factoredQuery.inlining Library.kindFragment).inlining
        Library.plainElementFragment) :=
    .trans _ _ _ (.rel _ _ ⟨_, Library.factoredQuery_inlines, rfl⟩)
      (.rel _ _ ⟨_, Library.factoredQuery_inlines_next, rfl⟩)
  obtain ⟨hone, hmany⟩ :=
    collectIntrospection_ignores_factoring Library.describedSchema [] [] {}
  refine ⟨hfound, ?_, ?_⟩
  · obtain ⟨enums, enums', hperm, h, h'⟩ := hone Library.factoredQuery_inlines
    obtain rfl := Except.ok.inj (h.symm.trans hfound)
    exact ⟨enums', h', hperm⟩
  · obtain ⟨enums, enums', hperm, h, h'⟩ := hmany hboth
    obtain rfl := Except.ok.inj (h.symm.trans hfound)
    exact ⟨enums', h', hperm, Except.ok.inj (h'.symm.trans rfl)⟩

end SchemaContext
