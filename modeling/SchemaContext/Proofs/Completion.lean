import SchemaContext.Context.Build
import SchemaContext.Proofs.GivenDocuments
import SchemaContext.Proofs.Survivors

/-!
# What contexts are made of

`Assembles` says of a context what it is made of, and `assembled` computes it, with no
journal and no sink; `Request.Resolves` says which settings, schema and forced types a
request comes to.
-/

namespace SchemaContext

/-- What the transformer of its kind makes of an entry. Nothing is made of what is no type. -/
def Makes (t : Transformers ρ) (s : Schema) (e : String × Entry) (r : Kind × ρ) : Prop :=
  ∃ type, e.2 = .type type ∧ type.kind = r.1 ∧ t.ofType type.kind s type = .ok r.2

/-- The context of the kept types and the given directives. -/
structure Assembles (t : Transformers ρ) (s : Schema) (kept : Entries Entry)
    (directives : List DirectiveDefinition) (c : Context ρ) : Prop where
  made : ∃ records, List.Forall₂ (Makes t s) kept records ∧
    ∀ k, c.ofKind k = Context.select k records
  defined : t.ofDirectives s directives = .ok c.definedDirectives
  uses : s.usesDirectives kept.values = .ok c.usesDirectives
  applied : s.carrier.applied s = .ok c.directives
  schema : c.schema = some s

/-- The settings of a request, its schema and the types that the settings force. -/
structure Request.Resolves (r : Request ρ) (j : Journal) (settings : Settings) (s : Schema)
    (forced : List Value) : Prop where
  resolved : (r.settings.resolve.outcome j).1 = .ok settings
  unwrapped : r.source.unwrap = .ok s
  elements : settings.forcedTypes.elements = .ok forced

def dispatched (t : Transformers ρ) (s : Schema) (e : String × Entry) :
    Except Failure (Kind × ρ) := do
  let type ← e.2.classify (some e.1)
  return (type.kind, ← t.ofType type.kind s type)

def assembled (t : Transformers ρ) (s : Schema) (kept : Entries Entry)
    (directives : List DirectiveDefinition) : Except Failure (Context ρ) := do
  let records ← kept.mapM (dispatched t s)
  let defined ← t.ofDirectives s directives
  let uses ← Failure.ofArguments (s.usesDirectives kept.values)
  let applied ← Failure.ofArguments (s.carrier.applied s)
  return Context.ofRecords records defined applied uses s

variable {ρ : Type} {t : Transformers ρ} {s : Schema} {kept : Entries Entry}
  {directives : List DirectiveDefinition} {c : Context ρ}

theorem classify_eq_ok_iff {e : Entry} {name : Option String} {type : NamedType} :
    e.classify name = .ok type ↔ e = .type type := by
  cases e <;> simp [Entry.classify]

theorem Context.eq_ofRecords {records : List (Kind × ρ)}
    (hk : ∀ k, c.ofKind k = select k records) (hs : c.schema = some s) :
    c = ofRecords records c.definedDirectives c.directives c.usesDirectives s := by
  obtain ⟨_, _, _, _, _, _, _, _, _, _⟩ := c
  cases hs
  have := hk .object
  have := hk .inputObject
  have := hk .enum
  have := hk .union
  have := hk .scalar
  have := hk .interface
  simp_all [ofKind, ofRecords]

theorem dispatched_eq_ok_iff {e : String × Entry} {r : Kind × ρ} :
    dispatched t s e = .ok r ↔ Makes t s e r := by
  unfold dispatched
  rw [bind_eq_ok_iff]
  constructor
  · rintro ⟨type, hc, h⟩
    obtain ⟨x, hx, he⟩ := bind_eq_ok_iff.1 h
    cases he
    exact ⟨type, classify_eq_ok_iff.1 hc, rfl, hx⟩
  · rintro ⟨type, he, hk, hx⟩
    exact ⟨type, classify_eq_ok_iff.2 he, bind_eq_ok_iff.2 ⟨r.2, hx, by rw [hk]; rfl⟩⟩

/-- A context is what an assembly comes to exactly if it is made of the kept types and the given
directives. -/
theorem assembled_eq_ok_iff :
    assembled t s kept directives = .ok c ↔ Assembles t s kept directives c := by
  unfold assembled
  simp only [bind_eq_ok_iff, mapM_eq_ok_iff, dispatched_eq_ok_iff, Failure.ofArguments_eq_ok_iff]
  constructor
  · rintro ⟨records, hmade, defined, hd, uses, hu, applied, ha, h⟩
    cases h
    exact ⟨⟨records, hmade, fun k => by rw [Context.ofKind_ofRecords]⟩, hd, hu, ha, rfl⟩
  · rintro ⟨⟨records, hmade, hk⟩, hd, hu, ha, hs⟩
    exact ⟨records, hmade, _, hd, _, hu, _, ha, congrArg _ (Context.eq_ofRecords hk hs).symm⟩

end SchemaContext
