import SchemaContext.Proofs.BareSchema
import SchemaContext.Proofs.Deprecation
import SchemaContext.Proofs.KindLists
import SchemaContext.Proofs.Reading
import SchemaContext.Proofs.ReadingOrder

/-!
# Directives moved between definitions and extensions

A schema and its types may be written down in several nodes: a definition and any number
of extensions. The directives of such an element are looked for node by node, yet only the
order of the uses on all nodes together decides which use of a directive is the first.
Schemas in which the uses are shared out among the nodes in another way come to the same
contexts, and fail with the same failures. In particular one definition node can stand
for all of them.
-/

namespace SchemaContext

namespace Carrier

variable {s : Schema} {c c' : Carrier}

/-- An element without a deprecation reason has no directives but those that are written down, so
that it may have no nodes or empty ones. -/
theorem applied_of_deprecation_none (h : c.deprecation = none) :
    c.applied s = s.directives.foldlM (applyOne s c) [] := by
  rw [applied, h]
  cases hnodes : c.nodes with
  | nil =>
    refine (foldlM_applyOne_of_none fun d _ => ?_).symm
    rw [firstUse?, hnodes]
    rfl
  | cons node nodes => rfl

/-- The first use of a directive goes by the uses on all nodes together, so the directives do. -/
theorem applied_eq_of_flatten_eq (hc : c.deprecation = none) (hc' : c'.deprecation = none)
    (h : c'.nodes.flatten = c.nodes.flatten) : c'.applied s = c.applied s := by
  have hone : applyOne s c' = applyOne s c := by
    funext found d
    simp only [applyOne, firstUse?_eq_find?, h]
  rw [applied_of_deprecation_none hc, applied_of_deprecation_none hc', hone]

end Carrier

/-- The second type has the same directives in the same order, on nodes of its own. -/
structure NamedType.RegroupsTo (t t' : NamedType) : Prop where
  name : t'.name = t.name
  description : t'.description = t.description
  body : t'.body = t.body
  uses : t'.carrier.nodes.flatten = t.carrier.nodes.flatten

inductive Entry.RegroupsTo : Entry → Entry → Prop
  | type {t t' : NamedType} (h : t.RegroupsTo t') : RegroupsTo (.type t) (.type t')
  | foreign (f : Foreign) : RegroupsTo (.foreign f) (.foreign f)

/-- The second schema and its types have the same directives in the same order, on nodes of their
own. -/
structure Schema.RegroupsTo (s s' : Schema) : Prop where
  definitions : List.Forall₂ NamedType.RegroupsTo s.definitions s'.definitions
  entries : List.Forall₂ (fun e e' => e'.1 = e.1 ∧ e.2.RegroupsTo e'.2) s.typeMap.entries
    s'.typeMap.entries
  query : s'.query = s.query
  mutation : s'.mutation = s.mutation
  subscription : s'.subscription = s.subscription
  directives : s'.directives = s.directives
  uses : s'.carrier.nodes.flatten = s.carrier.nodes.flatten

namespace NamedType.RegroupsTo

variable {t t' : NamedType}

theorem bare_eq (h : t.RegroupsTo t') : t'.bare = t.bare := by
  simp only [bare, h.name, h.description, h.body]

theorem kind_eq (h : t.RegroupsTo t') : t'.kind = t.kind := by
  rw [kind, kind, h.body]

theorem applied_eq (h : t.RegroupsTo t') (s : Schema) :
    t'.carrier.applied s = t.carrier.applied s :=
  Carrier.applied_eq_of_flatten_eq rfl rfl h.uses

end NamedType.RegroupsTo

theorem NamedType.map_body_find? {ts ts' : List NamedType}
    (h : List.Forall₂ NamedType.RegroupsTo ts ts') (n : String) :
    (ts'.find? fun t => t.name == n).map body = (ts.find? fun t => t.name == n).map body := by
  induction h with
  | nil => rfl
  | @cons t t' _ _ ht _ ih =>
    rw [List.find?_cons, List.find?_cons, ht.name]
    cases t.name == n with
    | true => exact congrArg some ht.body
    | false => exact ih

namespace Entry.RegroupsTo

variable {e e' : Entry}

theorem bare_eq (h : e.RegroupsTo e') : e'.bare = e.bare := by
  cases h with
  | type h => exact congrArg Entry.type h.bare_eq
  | foreign f => rfl

theorem carriers (h : e.RegroupsTo e') (s : Schema) :
    List.Forall₂ (fun c c' => c'.applied s = c.applied s) e.carriers e'.carriers := by
  cases h with
  | type h =>
    refine .cons (h.applied_eq s) ?_
    rw [h.body]
    exact List.forall₂_same.2 fun _ _ => rfl
  | foreign f => exact List.forall₂_same.2 fun _ _ => rfl

end Entry.RegroupsTo

namespace Schema.RegroupsTo

variable {s s' : Schema}

theorem bare_eq (h : s.RegroupsTo s') : s'.bare = s.bare := by
  have hdefinitions : s'.definitions.map NamedType.bare = s.definitions.map NamedType.bare := by
    rw [← List.forall₂_eq_eq_eq, List.forall₂_map_left_iff, List.forall₂_map_right_iff]
    exact h.definitions.flip.imp fun _ _ ht => ht.bare_eq
  have hentries : s'.typeMap.entries.mapValues Entry.bare =
      s.typeMap.entries.mapValues Entry.bare := by
    rw [Entries.mapValues, Entries.mapValues, ← List.forall₂_eq_eq_eq,
      List.forall₂_map_left_iff, List.forall₂_map_right_iff]
    exact h.entries.flip.imp fun _ _ he => Prod.ext he.1 he.2.bare_eq
  simp only [bare, TypeMap.bare, hdefinitions, hentries, h.query, h.mutation, h.subscription,
    h.directives]

theorem readsAs (h : s.RegroupsTo s') : s.ReadsAs s' :=
  ⟨h.directives, NamedType.map_body_find? h.definitions⟩

theorem implementingTypes_eq (h : s.RegroupsTo s') (n : String) :
    s'.implementingTypes n = s.implementingTypes n := by
  rw [← s'.implementingTypes_bare, h.bare_eq, s.implementingTypes_bare]

theorem survives_iff (h : s.RegroupsTo s') {documents : List Document} {forced : List Value}
    {key : String} : s'.Survives documents forced key ↔ s.Survives documents forced key := by
  rw [← s'.survives_bare, h.bare_eq, s.survives_bare]

theorem survivors (h : s.RegroupsTo s') (documents : List Document) (forced : List Value) :
    List.Forall₂ (fun e e' => e'.1 = e.1 ∧ e.2.RegroupsTo e'.2) (s.survivors documents forced)
      (s'.survivors documents forced) := by
  refine List.rel_filter ?_ h.entries
  rintro e e' ⟨hkey, -⟩
  simp only [decide_eq_true_eq, hkey, h.survives_iff]

theorem dispatched_eq (h : s.RegroupsTo s') {e e' : String × Entry} (hkey : e'.1 = e.1)
    (he : e.2.RegroupsTo e'.2) : dispatched .records s' e' = dispatched .records s e := by
  obtain ⟨key, e⟩ := e
  obtain ⟨key', e'⟩ := e'
  obtain rfl : key' = key := hkey
  cases he with
  | type ht =>
    have hrecord := h.readsAs.ofType_eq ht.name ht.description ht.body
      ((h.readsAs.applied_eq _).trans (ht.applied_eq s)) fun _ => h.implementingTypes_eq _
    change (Failure.ofArguments (Record.ofType s' _) >>= fun x => pure (NamedType.kind _, x)) = _
    rw [hrecord, ht.kind_eq]
    rfl
  | foreign f => rfl

theorem usesDirectives_eq (h : s.RegroupsTo s') {kept kept' : Entries Entry}
    (hkept : List.Forall₂ (fun e e' => e'.1 = e.1 ∧ e.2.RegroupsTo e'.2) kept kept') :
    s'.usesDirectives kept'.values = s.usesDirectives kept.values := by
  have hread (c c' : Carrier) (hc : c'.applied s = c.applied s) : c'.applied s' = c.applied s :=
    (h.readsAs.applied_eq c').trans hc
  have hschema : s'.carrier.applied s' = s.carrier.applied s :=
    hread _ _ (Carrier.applied_eq_of_flatten_eq rfl rfl h.uses)
  have hentries : List.Forall₂ (fun c c' => c'.applied s' = c.applied s)
      (kept.values.flatMap Entry.carriers) (kept'.values.flatMap Entry.carriers) := by
    rw [Entries.values, Entries.values, List.flatMap_map, List.flatMap_map]
    exact List.rel_flatMap hkept fun e e' he => (he.2.carriers s).imp hread
  have harguments : List.Forall₂ (fun c c' => c'.applied s' = c.applied s)
      (s.directives.flatMap fun d => d.args.map InputValue.carrier)
      (s'.directives.flatMap fun d => d.args.map InputValue.carrier) := by
    rw [h.directives]
    exact List.forall₂_same.2 fun c _ => h.readsAs.applied_eq c
  have hall := List.rel_append harguments hentries
  exact Carrier.anyApplied_congr (.cons hschema hall)

theorem walked_eq (h : s.RegroupsTo s') (d : Documents) : d.walked s' = d.walked s :=
  Documents.walked_congr fun _ _ t _ => by
    rw [← s'.variableFault?_bare, h.bare_eq, s.variableFault?_bare]

theorem assembled_eq (h : s.RegroupsTo s') (documents : List Document) (forced : List Value)
    (settings : Settings) :
    assembled .records s' (s'.survivors documents forced) (settings.recordedDirectives s') =
      (fun c => c.withSchema s') <$>
        assembled .records s (s.survivors documents forced) (settings.recordedDirectives s) := by
  have hkept := h.survivors documents forced
  have hrecorded : settings.recordedDirectives s' = settings.recordedDirectives s := by
    rw [Settings.recordedDirectives, h.directives, Settings.recordedDirectives]
  rw [hrecorded]
  apply assembled_congr
  · exact mapM_eq_of_forall₂ (hkept.imp fun e e' he => h.dispatched_eq he.1 he.2)
  · rw [h.readsAs.ofDirectives_eq]
  · exact h.usesDirectives_eq hkept
  · exact (h.readsAs.applied_eq _).trans (Carrier.applied_eq_of_flatten_eq rfl rfl h.uses)

/-- What a build comes to does not depend on how the directives are shared out among the nodes. -/
theorem result_eq (h : s.RegroupsTo s') {r : Request Record} {source' : Source}
    (ht : r.transformers = .records) (hs : r.source.unwrap = .ok s)
    (hs' : source'.unwrap = .ok s') :
    { r with source := source' }.result = (fun c => c.withSchema s') <$> r.result := by
  cases hsettled : r.settings.settled with
  | error e =>
    rw [(Request.ends_without_settings hsettled).1]
    exact (Request.ends_without_settings (r := { r with source := source' }) hsettled).1
  | ok settings =>
    rw [Request.result_eq_bind hsettled hs,
      Request.result_eq_bind (r := { r with source := source' }) hsettled hs', ht]
    simp only [h.walked_eq, h.assembled_eq, map_bind]

end Schema.RegroupsTo

/-- The type with one definition node, which has all of its directives: those of its definition
before those of its extensions, in order. -/
def NamedType.joined (t : NamedType) : NamedType :=
  { t with definition := some t.carrier.nodes.flatten, extensions := [] }

theorem NamedType.joined_regroups (t : NamedType) : t.RegroupsTo t.joined :=
  ⟨rfl, rfl, rfl, by simp [carrier, joined]⟩

section Joined

variable (p : NamedType → Bool)

def NamedType.joinedIf (t : NamedType) : NamedType := if p t then t.joined else t

theorem NamedType.joinedIf_regroups (t : NamedType) : t.RegroupsTo (t.joinedIf p) := by
  unfold joinedIf
  split
  · exact t.joined_regroups
  · exact ⟨rfl, rfl, rfl, rfl⟩

def Entry.joinedIf : Entry → Entry
  | type t => type (t.joinedIf p)
  | foreign f => foreign f

theorem Entry.joinedIf_regroups (e : Entry) : e.RegroupsTo (e.joinedIf p) := by
  cases e with
  | type t => exact .type (t.joinedIf_regroups p)
  | foreign f => exact .foreign f

def TypeMap.joinedIf (m : TypeMap) : TypeMap :=
  { entries := m.entries.mapValues (Entry.joinedIf p)
    distinct := by
      unfold Entries.Distinct
      rw [Entries.keys_mapValues]
      exact m.distinct }

/-- The schema in which the chosen types, and the schema itself if it is to be one of them, have one
definition node each. -/
def Schema.joined (s : Schema) (itself : Bool) : Schema :=
  { s with
    definitions := s.definitions.map (NamedType.joinedIf p)
    typeMap := s.typeMap.joinedIf p
    definition := if itself then some s.carrier.nodes.flatten else s.definition
    extensions := if itself then [] else s.extensions }

theorem Schema.joined_regroups (s : Schema) (itself : Bool) : s.RegroupsTo (s.joined p itself) where
  definitions :=
    List.forall₂_map_right_iff.2 (List.forall₂_same.2 fun t _ => t.joinedIf_regroups p)
  entries :=
    List.forall₂_map_right_iff.2 (List.forall₂_same.2 fun e _ => ⟨rfl, e.2.joinedIf_regroups p⟩)
  query := rfl
  mutation := rfl
  subscription := rfl
  directives := rfl
  uses := by cases itself <;> simp [carrier, joined]

end Joined

/-- A build of default records comes to the same, context or failure, when any types of the schema,
and the schema itself, get one definition node each for their definition and all their extensions.
It comes to the same for every schema that has the same directives in the same order, however they
are shared out among definitions and extensions, whatever sink of the library it reports to. -/
theorem build_joined_nodes {r : Request Record} {s : Schema} {source' : Source} (j : Journal)
    (ht : r.transformers = .records) (htells : r.Tells) (hs : r.source.unwrap = .ok s) :
    (∀ p itself, source'.unwrap = .ok (s.joined p itself) →
      ((build { r with source := source' }).outcome j).1 =
        (fun c => c.withSchema (s.joined p itself)) <$> ((build r).outcome j).1) ∧
    (∀ s', s.RegroupsTo s' → source'.unwrap = .ok s' →
      ((build { r with source := source' }).outcome j).1 =
        (fun c => c.withSchema s') <$> ((build r).outcome j).1) := by
  have hregrouped (s' : Schema) (h : s.RegroupsTo s') (hs' : source'.unwrap = .ok s') :
      ((build { r with source := source' }).outcome j).1 =
        (fun c => c.withSchema s') <$> ((build r).outcome j).1 := by
    rw [build_yields htells j, build_yields (r := { r with source := source' }) htells j]
    exact h.result_eq ht hs hs'
  exact ⟨fun p itself => hregrouped _ (s.joined_regroups p itself), hregrouped⟩

namespace Library

def extendedBook : NamedType :=
  { book with
    definition := some []
    extensions :=
      [[], [⟨"deprecated", [("reason", .string "lost")]⟩],
        [⟨"deprecated", [("reason", .string "sold")]⟩]] }

def extendedSchema : Schema :=
  { schema with typeMap := schema.typeMap.put "Book" (.type extendedBook) }

def joinedSchema : Schema := extendedSchema.joined (fun t => t.name == "Book") true

/-- The library's schema with a misprint on its extension only. -/
def misprintedExtension : Schema := { schema with extensions := [[], misprint "4"] }

end Library

/-- The book is deprecated for the first reason, with its extensions and without. The misprint on
the extension of the library's schema ends the build also when it stands on the definition. -/
theorem build_joined_nodes_library :
    (∃ c x, ((build (Library.requestOf Library.extendedSchema)).outcome {}).1 = .ok c ∧
      c.types = [.type x] ∧ x.directives = Carrier.deprecated "lost" ∧
      ((build (Library.requestOf Library.joinedSchema)).outcome {}).1 =
        .ok (c.withSchema Library.joinedSchema)) ∧
    ((build (Library.requestOf (Library.misprintedExtension.joined (fun _ => false) true))).outcome
        {}).1 = .error (.argument (.invalid "reason" (.int "4"))) := by
  constructor
  · refine ⟨_, _, rfl, rfl, rfl, ?_⟩
    exact (build_joined_nodes (r := Library.requestOf Library.extendedSchema) {} rfl
      (Request.tells_of_default rfl) rfl).1
      (fun t => t.name == "Book") true rfl
  · exact (build_joined_nodes (r := Library.requestOf Library.misprintedExtension) {} rfl
      (Request.tells_of_default rfl) rfl).1
      (fun _ => false) true rfl

end SchemaContext
