import Mathlib.Algebra.GroupWithZero.Nat
import Mathlib.Data.List.Perm.Basic
import SchemaContext.Proofs.Description
import SchemaContext.Proofs.Outcome

/-!
# The lists of a context

A context sorts what was made of the surviving entries into six lists, one for each
kind. Taken together and with their kinds, the six lists are a rearrangement of one
record for each survivor; each single list follows the order of the type map.
-/

namespace SchemaContext

def Entries.types (es : Entries Entry) : List NamedType := es.values.filterMap Entry.type?

def Entries.typesOf (es : Entries Entry) (k : Kind) : List NamedType :=
  (es.values.filterMap Entry.type?).filter fun t => t.kind = k

theorem Entries.mem_types {es : Entries Entry} {t : NamedType} :
    t ∈ es.types ↔ ∃ e ∈ es, e.2 = .type t := by
  have htype (e : Entry) : e.type? = some t ↔ e = .type t := by cases e <;> simp [Entry.type?]
  simp only [types, values, List.filterMap_map, List.mem_filterMap, Function.comp_apply, htype]

/-- Every type stands under its own name. -/
def Entries.Named (es : Entries Entry) : Prop := ∀ e ∈ es, ∀ t, e.2 = .type t → t.name = e.1

theorem Entries.values_eq_map_types {es : Entries Entry} (h : ∀ e ∈ es, ∃ t, e.2 = .type t) :
    es.values = es.types.map .type := by
  induction es with
  | nil => rfl
  | cons e es ih =>
    obtain ⟨⟨t, ht⟩, hes⟩ := List.forall_mem_cons.1 h
    obtain ⟨key, entry⟩ := e
    subst ht
    exact congrArg (Entry.type t :: ·) (ih hes)

theorem Entries.types_filter {es : Entries Entry} (hown : es.Named) (p : String → Bool) :
    Entries.types (es.filter fun e => p e.1) = es.types.filter fun t => p t.name := by
  simp only [types, values, List.filterMap_map, List.filterMap_filter, List.filter_filterMap]
  apply List.filterMap_congr
  rintro ⟨key, entry⟩ he
  cases entry with
  | type t =>
    obtain rfl : t.name = key := hown _ he t rfl
    rfl
  | foreign x => simp [Entry.type?]

theorem Schema.survivors_named {s : Schema} {documents : List Document} {forced : List Value}
    (h : s.typeMap.entries.Named) : (s.survivors documents forced).Named :=
  fun e he => h e (mem_survivors.1 he).1

namespace Context

def placed (c : Context ρ) : List (Kind × ρ) :=
  Kind.all.flatMap fun k => (c.ofKind k).map fun x => (k, x)

theorem mem_placed {c : Context ρ} {k : Kind} {x : ρ} : (k, x) ∈ c.placed ↔ x ∈ c.ofKind k := by
  simp [placed, Kind.mem_all]

theorem length_placed (c : Context ρ) :
    c.placed.length = (Kind.all.map fun k => (c.ofKind k).length).sum := by
  simp [placed, List.length_flatMap]

theorem map_select (k : Kind) (records : List (Kind × ρ)) :
    (select k records).map (fun x => (k, x)) = records.filter fun r => r.1 = k := by
  induction records with
  | nil => rfl
  | cons r rest ih =>
    by_cases h : r.1 = k
    · subst h
      simpa [select] using ih
    · simpa [select, h] using ih

end Context

/-- Elements sorted by a key, all of whose values are listed once, are rearranged. -/
theorem flatMap_filter_perm {κ : Type} [DecidableEq κ] (key : α → κ) {ks : List κ} {as : List α}
    (hks : ks.Nodup) (h : ∀ a ∈ as, key a ∈ ks) :
    (ks.flatMap fun k => as.filter fun a => key a = k).Perm as := by
  induction ks generalizing as with
  | nil =>
    cases as with
    | nil => exact .nil
    | cons a as => exact absurd (h a List.mem_cons_self) List.not_mem_nil
  | cons k ks ih =>
    obtain ⟨hk, hks⟩ := List.nodup_cons.1 hks
    have hrest : (ks.flatMap fun k' => as.filter fun a => key a = k') =
        ks.flatMap fun k' =>
          (as.filter fun a => !decide (key a = k)).filter fun a => key a = k' := by
      apply List.flatMap_congr
      intro k' hk'
      rw [List.filter_filter]
      apply List.filter_congr
      intro a _
      have hne : k' ≠ k := fun he => hk (he ▸ hk')
      by_cases ha : key a = k' <;> simp [ha, hne]
    rw [List.flatMap_cons, hrest]
    refine (List.Perm.append_left _ (ih hks ?_)).trans (List.filter_append_perm _ as)
    intro a ha
    obtain ⟨ha, hne⟩ := List.mem_filter.1 ha
    exact (List.mem_cons.1 (h a ha)).resolve_left (by simpa using hne)

section Made

variable {ρ : Type} {t : Transformers ρ} {s : Schema} {kept : Entries Entry}
  {directives : List DirectiveDefinition} {c : Context ρ} {records : List (Kind × ρ)}

/-- The records of one kind are made of the types of that kind. -/
theorem forall₂_select (h : List.Forall₂ (Makes t s) kept records) (k : Kind) :
    List.Forall₂ (fun type x => t.ofType k s type = .ok x) (kept.typesOf k)
      (Context.select k records) := by
  induction h with
  | nil => exact .nil
  | @cons e r kept records hmade _ ih =>
    obtain ⟨type, he, hr, hx⟩ := hmade
    by_cases hk : type.kind = k
    · subst hk
      simpa [Entries.typesOf, Entries.values, Context.select, Entry.type?, he, ← hr, hx] using ih
    · simpa [Entries.typesOf, Entries.values, Context.select, Entry.type?, he, ← hr, hk] using ih

theorem Assembles.exists_type (h : Assembles t s kept directives c) {e : String × Entry}
    (he : e ∈ kept) : ∃ u, e.2 = .type u := by
  obtain ⟨records, hmade, -⟩ := h.made
  obtain ⟨r, -, u, hu, -⟩ := exists_mem_of_forall₂ hmade.flip he
  exact ⟨u, hu⟩

theorem placed_perm (hk : ∀ k, c.ofKind k = Context.select k records) : c.placed.Perm records := by
  have hsorted : c.placed = Kind.all.flatMap fun k => records.filter fun r => r.1 = k := by
    unfold Context.placed
    apply List.flatMap_congr
    intro k _
    rw [hk, Context.map_select]
  rw [hsorted]
  exact flatMap_filter_perm Prod.fst Kind.all_nodup fun r _ => Kind.mem_all r.1

theorem names_of_made {records : List (Kind × Record)}
    (h : List.Forall₂ (Makes .records s) kept records) (hown : kept.Named) :
    records.map (fun r => r.2.name) = kept.keys := by
  induction h with
  | nil => rfl
  | @cons e r kept records hmade _ ih =>
    obtain ⟨type, he, -, hx⟩ := hmade
    have hname : r.2.name = e.1 :=
      (Transformers.records_ofType_eq_ok_iff.1 hx).name_eq.trans (hown e List.mem_cons_self type he)
    rw [List.map_cons, Entries.keys_cons, hname, ih fun e he => hown e (List.mem_cons_of_mem _ he)]

end Made

theorem placed_names_perm {s : Schema} {kept : Entries Entry}
    {directives : List DirectiveDefinition} {c : Context Record}
    (h : Assembles .records s kept directives c) (hown : kept.Named) :
    (c.placed.map fun r => r.2.name).Perm kept.keys := by
  obtain ⟨records, hmade, hk⟩ := h.made
  rw [← names_of_made hmade hown]
  exact (placed_perm hk).map _

/-- Each list of a context that a build returns holds what the transformer of its kind makes of the
survivors of that kind, in order; of every survivor there is one record, in one list. Where types
stand under their own names, no name occurs twice among the records. -/
theorem build_sorts_survivors :
    (∀ {ρ : Type} {r : Request ρ} {j : Journal} {c : Context ρ}, ((build r).outcome j).1 = .ok c →
      ∃ settings s forced, r.Resolves j settings s forced ∧
        (∀ k, List.Forall₂ (fun t x => r.transformers.ofType k s t = .ok x)
          ((s.survivors r.documents.parsed forced).typesOf k) (c.ofKind k)) ∧
        (∃ records,
          List.Forall₂ (Makes r.transformers s) (s.survivors r.documents.parsed forced) records ∧
            c.placed.Perm records) ∧
        (Kind.all.map fun k => (c.ofKind k).length).sum =
          (s.survivors r.documents.parsed forced).length) ∧
    (∀ {r : Request Record} {j : Journal} {c : Context Record} {s : Schema},
      r.transformers = .records → r.source.unwrap = .ok s → s.typeMap.entries.Named →
      ((build r).outcome j).1 = .ok c → (c.placed.map fun x => x.2.name).Nodup) := by
  constructor
  · intro ρ r j c h
    obtain ⟨settings, s, forced, hr, -, -, hassembles⟩ := build_returns h
    obtain ⟨records, hmade, hk⟩ := hassembles.made
    have hperm := placed_perm hk
    refine ⟨settings, s, forced, hr, ?_, ⟨records, hmade, hperm⟩, ?_⟩
    · intro k
      rw [hk]
      exact forall₂_select hmade k
    · rw [← Context.length_placed, hperm.length_eq, hmade.length_eq]
  · intro r j c s ht hs hown h
    obtain ⟨settings, s', forced, hr, -, -, hassembles⟩ := build_returns h
    obtain rfl : s = s' := Except.ok.inj (hs.symm.trans hr.unwrapped)
    rw [ht] at hassembles
    have hperm := placed_names_perm hassembles (Schema.survivors_named hown)
    exact hperm.nodup_iff.2 Schema.survivors_keys_nodup

namespace Library

/-- The genres of books; one of them is an old name, which its syntax says. -/
def genre : NamedType :=
  { name := "Genre", description := none, definition := some [], extensions := []
    body := .enum
      [{ name := "POETRY", value := .str "POETRY", description := none, deprecation := none
         node := none },
       { name := "VERSE", value := .str "VERSE", description := none
         deprecation := some "POETRY"
         node := some [⟨"deprecated", [("reason", .string "POETRY")]⟩] }] }

def book : NamedType :=
  { name := "Book", description := none, definition := none, extensions := []
    body := .object []
      [{ name := "genre", type := .named "Genre" true, description := none, deprecation := none
         node := none
         args := [{ name := "locale", type := .named "String" false, default := some (.str "en")
                    description := none, deprecation := none, node := some [] }] }] }

/-- A schema whose type map has a primitive scalar and an introspection enum, too. -/
def schema : Schema :=
  { definitions := [book, genre] ++ BuiltIn.types
    typeMap := (((TypeMap.empty.put "Book" (.type book)).put "Genre" (.type genre)).put "String"
      (.type (BuiltIn.type "String" "Text." .scalar))).put "__TypeKind" (.type BuiltIn.typeKind)
    query := some "Book", mutation := none, subscription := none
    directives := BuiltIn.directives, definition := none, extensions := [] }

def request : Request Record :=
  { source := .schema schema, documents := .items [], transformers := .records
    settings := .given { forcedTypes := .tuple [.str "String"] }, sink := none, time := "" }

theorem request_resolves :
    request.Resolves {} { forcedTypes := .tuple [.str "String"] } schema [.str "String"] :=
  ⟨rfl, rfl, rfl⟩

def requestOf (s : Schema) : Request Record := { request with source := .schema s }

theorem requestOf_resolves (s : Schema) :
    (requestOf s).Resolves {} { forcedTypes := .tuple [.str "String"] } s [.str "String"] :=
  ⟨rfl, rfl, rfl⟩

theorem schema_named : schema.typeMap.entries.Named := by
  intro e he t ht
  have hcases : e = ("Book", .type book) ∨ e = ("Genre", .type genre) ∨
      e = ("String", .type (BuiltIn.type "String" "Text." .scalar)) ∨
      e = ("__TypeKind", .type BuiltIn.typeKind) := by
    simpa [schema, TypeMap.put, TypeMap.empty, Entries.put] using he
  rcases hcases with rfl | rfl | rfl | rfl <;> cases ht <;> rfl

end Library

/-- The library's book, its genres and the forced scalar reach one list each. -/
theorem build_sorts_library :
    ∃ c, ((build Library.request).outcome {}).1 = .ok c ∧
      (∃ settings s forced, Library.request.Resolves {} settings s forced ∧
        (Kind.all.map fun k => (c.ofKind k).length).sum = (s.survivors [] forced).length) ∧
      (c.placed.map fun x => x.2.name).Nodup ∧
      (c.placed.map fun x => x.2.name) = ["Book", "Genre", "String"] := by
  refine ⟨_, rfl, ?_, ?_, rfl⟩
  · obtain ⟨settings, s, forced, hr, -, -, hlength⟩ :=
      build_sorts_survivors.1 (r := Library.request) (j := {}) rfl
    exact ⟨settings, s, forced, hr, hlength⟩
  · exact build_sorts_survivors.2 (r := Library.request) (j := {}) rfl rfl Library.schema_named rfl

end SchemaContext
