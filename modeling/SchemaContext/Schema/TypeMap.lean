import SchemaContext.FirstOccurrences
import SchemaContext.Schema.BuiltIn

/-!
# Building a schema's type map

The type map of a new schema holds every type that can be reached from the listed
types, the roots, the arguments of directives and the introspection system, each
under its own name. `collect` follows references depth first: a type comes before the
types it refers to, and a type that was met before is not visited again. The listed
types keep their order, since each of them is taken out and collected anew.

A finished schema can be edited: entries are set under any key or removed.
-/

namespace SchemaContext

/-- What a schema is made from. -/
structure SchemaParts where
  types : List NamedType
  /-- The names of the listed types in order, built-in types among them. -/
  listed : List String
  query : Option String
  mutation : Option String
  subscription : Option String
  directives : List DirectiveDefinition
  definition : Option (List DirectiveUse)
  extensions : List (List DirectiveUse)

/-- A change of a finished schema's type map. -/
inductive Edit where
  | set (key : String) (e : Entry)
  | remove (key : String)

namespace TypeMap

/-- How many definitions are not among the names seen. -/
def unseen (definitions : List NamedType) (seen : List String) : Nat :=
  definitions.countP fun t => t.name ∉ seen

theorem unseen_concat_le (definitions : List NamedType) (seen : List String) (n : String) :
    unseen definitions (seen ++ [n]) ≤ unseen definitions seen :=
  List.countP_mono_left fun t _ ht => by
    simp only [List.mem_append, decide_eq_true_eq] at ht ⊢
    exact fun h => ht (.inl h)

theorem unseen_concat_lt {definitions : List NamedType} {seen : List String} {t : NamedType}
    {n : String} (ht : definitions.find? (fun t => t.name == n) = some t) (hn : n ∉ seen) :
    unseen definitions (seen ++ [n]) < unseen definitions seen := by
  induction definitions with
  | nil => simp at ht
  | cons d rest ih =>
    have hle := unseen_concat_le rest seen n
    unfold unseen at *
    by_cases hd : d.name = n
    · rw [List.countP_cons_of_neg (by simp [hd]), List.countP_cons_of_pos (by simpa [hd] using hn)]
      omega
    · have hlt := ih (by simpa [List.find?_cons, hd] using ht)
      simp only [List.countP_cons, List.mem_append, List.mem_singleton, hd, or_false] at hlt ⊢
      omega

/-- Follows the references of the waiting names depth first, and adds each defined type that was
not seen before. -/
def collect (definitions : List NamedType) (waiting seen : List String) : List String :=
  match waiting with
  | [] => seen
  | n :: rest =>
    if _hn : n ∈ seen then collect definitions rest seen
    else
      match _ht : definitions.find? fun t => t.name == n with
      | none => collect definitions rest seen
      | some t => collect definitions (t.body.references ++ rest) (seen ++ [n])
termination_by (unseen definitions seen, waiting.length)
decreasing_by
  · exact Prod.Lex.right _ (by simp)
  · exact Prod.Lex.right _ (by simp)
  · exact Prod.Lex.left _ _ (unseen_concat_lt _ht _hn)

theorem collect_nodup {definitions : List NamedType} {waiting seen : List String}
    (h : seen.Nodup) : (collect definitions waiting seen).Nodup := by
  fun_induction collect definitions waiting seen with
  | case1 => exact h
  | case2 seen n rest hn ih => exact ih h
  | case3 seen n rest hn ht ih => exact ih h
  | case4 seen n rest hn t ht ih =>
    exact ih (List.nodup_append.2 ⟨h, by simp, by rintro a ha b hb rfl; simp_all⟩)

/-- Takes each listed name out and collects it anew, in order. -/
def collectListed (definitions : List NamedType) (listed seen : List String) : List String :=
  listed.foldl (fun seen n => collect definitions [n] (seen.filter (· ≠ n))) seen

theorem collectListed_nodup {definitions : List NamedType} {listed seen : List String}
    (h : seen.Nodup) : (collectListed definitions listed seen).Nodup := by
  unfold collectListed
  induction listed generalizing seen with
  | nil => exact h
  | cons n rest ih => exact ih (collect_nodup (h.filter _))

/-- The name by which a schema's description of itself is reached. -/
def introspectionRoot : String := "__Schema"

/-- The names from which types are collected after the listed types. -/
def roots (p : SchemaParts) : List String :=
  p.query.toList ++ p.mutation.toList ++ p.subscription.toList
    ++ p.directives.flatMap (fun d => d.args.map fun a => a.type.name) ++ [introspectionRoot]

/-- The names in a new schema's type map, in order. A type that is listed is taken out again. -/
def names (definitions : List NamedType) (p : SchemaParts) : List String :=
  collect definitions (roots p)
    (collectListed definitions p.listed (firstOccurrences id p.listed))

theorem names_nodup (definitions : List NamedType) (p : SchemaParts) :
    (names definitions p).Nodup :=
  collect_nodup (collectListed_nodup (by simpa using nodup_map_firstOccurrences id p.listed))

/-- The types of the given names, under their names. -/
def ofNames (definitions : List NamedType) (names : List String) : Entries Entry :=
  names.filterMap fun n => (definitions.find? fun t => t.name == n).map fun t => (n, .type t)

theorem keys_ofNames_sublist (definitions : List NamedType) (names : List String) :
    (ofNames definitions names).keys.Sublist names := by
  induction names with
  | nil => exact List.Sublist.slnil
  | cons n rest ih =>
    unfold ofNames at *
    cases h : definitions.find? fun t => t.name == n with
    | none => simpa [h] using ih.cons n
    | some t => simpa [h, Entries.keys] using ih.cons_cons n

end TypeMap

namespace Schema

/-- A finished schema. References prefer the listed definitions to the built-in ones. -/
def ofParts (p : SchemaParts) : Schema :=
  let definitions := p.types ++ BuiltIn.types
  { definitions
    typeMap :=
      { entries := TypeMap.ofNames definitions (TypeMap.names definitions p)
        distinct := (TypeMap.names_nodup definitions p).sublist
          (TypeMap.keys_ofNames_sublist definitions _) }
    query := p.query
    mutation := p.mutation
    subscription := p.subscription
    directives := p.directives
    definition := p.definition
    extensions := p.extensions }

/-- A set key keeps its place or goes last; removing a missing key changes nothing. -/
def edit (s : Schema) : Edit → Schema
  | .set key e => { s with typeMap := s.typeMap.put key e }
  | .remove key => { s with typeMap := s.typeMap.erase key }

end Schema
end SchemaContext
