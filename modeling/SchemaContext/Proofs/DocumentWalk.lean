import Mathlib.Data.List.Induction
import SchemaContext.Proofs.DocumentEffect
import SchemaContext.Proofs.FieldNodes

/-!
# Walks over documents

A walker goes through a document node by node. It keeps a stack of current types and a
stack of the types that have the fields of a selection set, and pushes and pops as it
enters and leaves nodes; the enums that it collects it takes along to the next document,
where its stacks are empty again. What a walk over all documents collects is what the
types of the field nodes, one by one, say.
-/

namespace SchemaContext

/-- What a walker meets: nodes that it enters, selection sets that it enters and leaves, and the
ends of nodes. -/
inductive Visit where
  | operation (kind : OperationKind)
  | fragment (on : String)
  | inline (on : Option String)
  | field (name : String)
  | selections
  | leaveSelections
  | leave

/-- The stacks of a walker, the top first, and the enums that it has collected. -/
structure Walker where
  types : List (Option NamedType)
  parents : List (Option NamedType)
  collected : List NamedType

/-- Collects an introspection enum that was not collected before. A type is told by its name, since
names are unique within a schema. -/
def gather (collected : List NamedType) (t : NamedType) : List NamedType :=
  if t.isIntrospectionEnum && !collected.any fun u => u.name == t.name then collected ++ [t]
  else collected

namespace Walker

def type? (w : Walker) : Option NamedType := w.types.head?.join

def parent? (w : Walker) : Option NamedType := w.parents.head?.join

def push (w : Walker) (t : Option NamedType) : Walker := { w with types := t :: w.types }

def fieldType? (s : Schema) (w : Walker) (name : String) : Option NamedType :=
  (w.parent?.bind fun parent => (s.fieldTypeName? parent name).bind s.resolve?).filter
    fun t => t.body.isOutput

def step (s : Schema) (w : Walker) : Visit → Walker
  | .operation kind => w.push (s.root? kind)
  | .fragment on => w.push (s.condition? on)
  | .inline none => w.push w.type?
  | .inline (some on) => w.push (s.condition? on)
  | .field name =>
    match w.fieldType? s name with
    | some t => { w.push (some t) with collected := gather w.collected t }
    | none => w.push none
  | .selections => { w with parents := w.type?.filter (fun t => t.body.isComposite) :: w.parents }
  | .leaveSelections => { w with parents := w.parents.tail }
  | .leave => { w with types := w.types.tail }

end Walker

def Visit.enclosed (inside : List Visit) : List Visit :=
  .selections :: (inside ++ [.leaveSelections, .leave])

mutual

/-- What a walker meets in a selection. A spread has nothing inside, and a field that selects
nothing has an empty selection set. -/
def Selection.visits : Selection → List Visit
  | .field name selections => .field name :: Visit.enclosed (selectionsVisits selections)
  | .spread _ => []
  | .inline on selections => .inline on :: Visit.enclosed (selectionsVisits selections)

def selectionsVisits : List Selection → List Visit
  | [] => []
  | selection :: rest => selection.visits ++ selectionsVisits rest

end

def Definition.visits : Definition → List Visit
  | operation kind selections _ => .operation kind :: Visit.enclosed (selectionsVisits selections)
  | fragment _ on selections => .fragment on :: Visit.enclosed (selectionsVisits selections)

def Document.visits (d : Document) : List Visit := d.definitions.flatMap Definition.visits

def Schema.walk (s : Schema) (collected : List NamedType) (d : Document) : List NamedType :=
  (d.visits.foldl (Walker.step s) { types := [], parents := [], collected }).collected

section Walks

variable {s : Schema}

def Walker.Within (w : Walker) : Prop := w.parent? = w.type?.filter fun t => t.body.isComposite

/-- A walk over selections leaves the stacks as they were. -/
def WalksSelections (s : Schema) (selections : List Selection) : Prop :=
  ∀ w : Walker, w.Within → (selectionsVisits selections).foldl (Walker.step s) w =
    { w with collected := (selectionsFieldTypes s w.type? selections).foldl gather w.collected }

theorem WalksSelections.enclosed {selections : List Selection} (h : WalksSelections s selections)
    (w : Walker) (t : Option NamedType) :
    (Visit.enclosed (selectionsVisits selections)).foldl (Walker.step s) (w.push t) =
      { w with collected := (selectionsFieldTypes s t selections).foldl gather w.collected } := by
  have hwithin : ((w.push t).step s .selections).Within := rfl
  rw [Visit.enclosed, List.foldl_cons, List.foldl_append, h _ hwithin]
  rfl

theorem Walker.fieldType?_of_within {w : Walker} (h : w.Within) (name : String) :
    w.fieldType? s name = s.fieldType? w.type? name := by
  rw [fieldType?, h]
  rfl

mutual

/-- A selection leaves the stacks as they were, too. A field is looked up in the type on the stack
of parents, so that the walker has to be within the selection set of its current type. -/
theorem Selection.walks : (x : Selection) → ∀ w : Walker, w.Within →
    x.visits.foldl (Walker.step s) w =
      { w with collected := (x.fieldTypes s w.type?).foldl gather w.collected }
  | .field name selections, w, h => by
    have hinside := selections_walk selections
    rw [Selection.visits, List.foldl_cons, Walker.step, w.fieldType?_of_within h,
      Selection.fieldTypes, List.foldl_append]
    cases s.fieldType? w.type? name with
    | none => exact hinside.enclosed w none
    | some t => exact hinside.enclosed { w with collected := gather w.collected t } (some t)
  | .spread _, w, _ => by
    rw [Selection.visits, Selection.fieldTypes]
    rfl
  | .inline none selections, w, _ => by
    rw [Selection.visits, List.foldl_cons, Walker.step, Selection.fieldTypes]
    exact (selections_walk selections).enclosed w w.type?
  | .inline (some on) selections, w, _ => by
    rw [Selection.visits, List.foldl_cons, Walker.step, Selection.fieldTypes]
    exact (selections_walk selections).enclosed w (s.condition? on)

theorem selections_walk : (xs : List Selection) → WalksSelections s xs
  | [], w, _ => by
    rw [selectionsVisits, selectionsFieldTypes]
    rfl
  | x :: rest, w, h => by
    rw [selectionsVisits, List.foldl_append, Selection.walks x w h, selectionsFieldTypes,
      List.foldl_append]
    exact selections_walk rest _ h

end

theorem Definition.walks (x : Definition) (w : Walker) :
    x.visits.foldl (Walker.step s) w =
      { w with collected := (x.fieldTypes s).foldl gather w.collected } := by
  cases x with
  | operation kind selections _ => exact (selections_walk selections).enclosed w (s.root? kind)
  | fragment name on selections => exact (selections_walk selections).enclosed w (s.condition? on)

/-- A walk over a document collects the new enums among the types of its fields. -/
theorem Schema.walk_eq (s : Schema) (collected : List NamedType) (d : Document) :
    s.walk collected d = (d.fieldTypes s).foldl gather collected := by
  have hwalk (ds : List Definition) (w : Walker) :
      (ds.flatMap Definition.visits).foldl (Walker.step s) w =
        { w with
          collected := (ds.flatMap (Definition.fieldTypes s)).foldl gather w.collected } := by
    induction ds generalizing w with
    | nil => rfl
    | cons x ds ih =>
      rw [List.flatMap_cons, List.foldl_append, x.walks, ih, List.flatMap_cons, List.foldl_append]
  rw [walk, Document.visits, hwalk]
  rfl

theorem gather_eq (collected : List NamedType) (t : NamedType) :
    gather collected t = collected ++
      (firstOccurrences NamedType.name ([t].filter NamedType.isIntrospectionEnum)).filter
        fun u => u.name ∉ collected.map NamedType.name := by
  have hany : (collected.any fun u => u.name == t.name) =
      decide (t.name ∈ collected.map NamedType.name) := by
    rw [Bool.eq_iff_iff]
    simp
  rw [gather, hany]
  cases henum : t.isIntrospectionEnum with
  | false => simp [henum, firstOccurrences]
  | true =>
    have hself : firstOccurrences NamedType.name ([t].filter NamedType.isIntrospectionEnum) =
        [t] := by simp [henum, firstOccurrences]
    rw [hself, Bool.true_and, List.filter_cons, List.filter_nil, ← decide_not]
    split
    · rfl
    · exact (List.append_nil collected).symm

theorem foldl_gather (ts : List NamedType) :
    ts.foldl gather [] =
      firstOccurrences NamedType.name (ts.filter NamedType.isIntrospectionEnum) := by
  induction ts using List.reverseRecOn with
  | nil => rfl
  | append_singleton ts t ih =>
    rw [List.foldl_append, ih, List.filter_append, firstOccurrences_append]
    exact gather_eq _ t

theorem foldl_walk (s : Schema) (documents : List Document) :
    documents.foldl s.walk [] = introspectionEnums s documents := by
  have hwalk : s.walk = fun collected d => (d.fieldTypes s).foldl gather collected := by
    funext collected d
    exact s.walk_eq collected d
  rw [hwalk, ← List.foldl_flatMap, foldl_gather, introspectionEnums]

end Walks

theorem NamedType.isIntrospectionEnum_eq (t : NamedType) :
    t.isIntrospectionEnum =
      decide (t.kind = .enum ∧ reservedStart.toList <+: t.name.toList) := by
  rw [Bool.eq_iff_iff, decide_eq_true_iff, isIntrospectionEnum, Bool.and_eq_true,
    TypeBody.isEnum_iff, isReservedName, List.isPrefixOf_iff_prefix]
  rfl

theorem flatMap_fieldTypes_eq (s : Schema) (documents : List Document) :
    documents.flatMap (Document.fieldTypes s) =
      (documents.flatMap Document.fieldNodes).filterMap (FieldNode.type? s) := by
  rw [List.filterMap_flatMap]
  exact List.flatMap_congr fun d _ => d.fieldTypes_eq

/-- The introspection enums of documents that can be walked are collected, and they are what a walk
over one document after the other collects. They are the types that the schema resolves for the
field nodes, documents in order and each document depth first, as far as these are enums with a
reserved name, without later repetitions; types of fields that have the same name are the same. More
documents add, behind the enums that were there, those of their own that were not. No enum occurs
twice, nothing but enums with a reserved name occurs, and a field below a place without a type that
could have fields has no type, so that it adds nothing. -/
theorem collectIntrospection_by_field_nodes (s : Schema) (documents : List Document) :
    (∀ j, ((collectIntrospection s documents).outcome j).1 =
      (fun _ => introspectionEnums s documents) <$> (documents : Documents).walked s) ∧
    documents.foldl s.walk [] = introspectionEnums s documents ∧
    introspectionEnums s documents =
      (((documents.flatMap Document.fieldNodes).filterMap (FieldNode.type? s)).filter fun t =>
        t.kind = .enum ∧ reservedStart.toList <+: t.name.toList).eraseDupsBy
          (fun t u => t.name == u.name) ∧
    (∀ (n n' : FieldNode) (t u : NamedType), n.type? s = some t → n'.type? s = some u →
      t.name = u.name → t = u) ∧
    (∀ more, introspectionEnums s (documents ++ more) =
      introspectionEnums s documents ++ (introspectionEnums s more).filter fun t =>
        t.name ∉ (introspectionEnums s documents).map NamedType.name) ∧
    ((introspectionEnums s documents).map NamedType.name).Nodup ∧
    (∀ t ∈ introspectionEnums s documents,
      t.kind = .enum ∧ reservedStart.toList <+: t.name.toList) ∧
    ∀ (n : FieldNode) (above below : List Enclosure), n.enclosing = above ++ below →
      (s.typeAt? n.start above).filter (fun t => t.body.isComposite) = none →
      (∀ on, .inline (some on) ∉ below) → n.type? s = none := by
  have henums (documents : List Document) : introspectionEnums s documents =
      firstOccurrences NamedType.name
        ((documents.flatMap (Document.fieldTypes s)).filter NamedType.isIntrospectionEnum) := rfl
  refine ⟨?_, foldl_walk s documents, ?_, ?_, ?_, ?_, ?_, ?_⟩
  · exact collectIntrospection_yields s documents
  · rw [henums, firstOccurrences_eq_eraseDupsBy, flatMap_fieldTypes_eq]
    congr 1
    exact List.filter_congr fun t _ => t.isIntrospectionEnum_eq
  · intro n n' t u ht hu hname
    have ht := Schema.resolve?_of_fieldType? ht
    have hu := Schema.resolve?_of_fieldType? hu
    rw [hname, hu] at ht
    exact (Option.some.inj ht).symm
  · intro more
    rw [henums (documents ++ more), List.flatMap_append, List.filter_append,
      firstOccurrences_append]
    rfl
  · exact nodup_map_firstOccurrences NamedType.name _
  · intro t ht
    have henum := (List.mem_filter.1 (mem_of_mem_firstOccurrences ht)).2
    rw [t.isIntrospectionEnum_eq] at henum
    exact of_decide_eq_true henum
  · exact fun n above below => FieldNode.type?_of_unresolved

namespace Library

/-- A document that asks where directives may stand and of what kinds types are, and in a fragment
for the genre of a book. Books have no shelf, so that nothing is known below it. -/
def placesQuery : Document :=
  { definitions :=
      [.fragment "Parts" "Book" [.field "genre" []],
       .operation .query
        [.field "shelf" [.inline none [.field "kind" []]],
         .field "__schema"
          [.field "directives" [.field "locations" []], .field "types" [.field "kind" []]]]]
    file := none }

def shelfKind : FieldNode := ⟨.operation .query, [.field "shelf", .inline none], "kind"⟩

end Library

/-- The second document adds one enum and meets the enum of the first again. -/
theorem collectIntrospection_by_field_nodes_library :
    ((collectIntrospection Library.schema
        [.document Library.kindQuery, .document Library.placesQuery]).outcome {}).1 =
        .ok [BuiltIn.typeKind, BuiltIn.directiveLocation] ∧
      introspectionEnums Library.schema ([Library.kindQuery] ++ [Library.placesQuery]) =
        [BuiltIn.typeKind] ++ [BuiltIn.directiveLocation] ∧
      introspectionEnums Library.schema [Library.placesQuery] =
        [BuiltIn.directiveLocation, BuiltIn.typeKind] ∧
      Library.shelfKind ∈ Library.placesQuery.fieldNodes ∧
      Library.shelfKind.type? Library.schema = none := by
  obtain ⟨hcollected, -⟩ := collectIntrospection_by_field_nodes Library.schema
    [Library.kindQuery, Library.placesQuery]
  obtain ⟨-, -, -, -, hmore, -, -, hunresolved⟩ :=
    collectIntrospection_by_field_nodes Library.schema [Library.kindQuery]
  refine ⟨(hcollected {}).trans rfl, (hmore [Library.placesQuery]).trans rfl, rfl, ?_, ?_⟩
  · exact .tail _ (.tail _ (.head _))
  · exact hunresolved Library.shelfKind [.field "shelf"] [.inline none] rfl rfl (by simp)

end SchemaContext
