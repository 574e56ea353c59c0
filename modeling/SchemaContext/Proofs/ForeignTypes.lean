import SchemaContext.Proofs.Calls
import SchemaContext.Proofs.Classification
import SchemaContext.Proofs.KindLists
import SchemaContext.Proofs.TypeMapChange
import SchemaContext.Schema.TypeMap

/-!
# Foreign objects in a type map

A foreign object under a key that survives ends the build, unless this ends before its
assembly or a transformer fails for an earlier survivor; what failed first is what the
build fails with, and nothing is called after it. A foreign object under a key that does
not survive is as good as not there for all but documents: no interface is implemented by
it, but a variable may need a type made of it, and a fragment may find the type that it
wraps.
-/

namespace SchemaContext

namespace Transformers

def withFailures (g : Failure → Failure) (t : Transformers ρ) : Transformers ρ where
  ofType k s type := (t.ofType k s type).mapError g
  ofDirectives s ds := (t.ofDirectives s ds).mapError g

end Transformers

theorem makes_withFailures {t : Transformers ρ} {g : Failure → Failure} {s : Schema}
    {e : String × Entry} {m : Kind × ρ} : Makes (t.withFailures g) s e m ↔ Makes t s e m := by
  simp only [Makes, Transformers.withFailures, mapError_eq_ok_iff]

/-- An assembly of kept entries reaches an entry: something is made of all that come before. -/
structure Reaches (t : Transformers ρ) (s : Schema) (kept before : Entries Entry)
    (e : String × Entry) : Prop where
  split : ∃ after, kept = before ++ e :: after
  made : ∀ e ∈ before, ∃ m, Makes t s e m

theorem Reaches.mem {t : Transformers ρ} {s : Schema} {kept before : Entries Entry}
    {e : String × Entry} (h : Reaches t s kept before e) : e ∈ kept := by
  obtain ⟨after, rfl⟩ := h.split
  exact List.mem_append_right _ List.mem_cons_self

/-- A build fails with a failure that no transformer raises: with whatever failures the transformers
fail, the build still fails with this one. -/
def Request.FailsItself (r : Request ρ) (j : Journal) (f : Failure) : Prop :=
  ∀ g, ((build { r with transformers := r.transformers.withFailures g }).outcome j).1 = .error f

section Survivors

variable {ρ : Type} {r : Request ρ} {j : Journal} {settings : Settings} {s : Schema}
  {forced : List Value} {before : Entries Entry} {f : Failure}

theorem Entry.shownName_key (x : Foreign) {key : String} (hkey : key ≠ "") :
    shownName x (some key) = key := by
  simp [shownName, hkey]

theorem isUnclassifiable_of_mapError {x : Except ε α} {g : ε → Failure}
    (hg : ∀ e, (g e).isUnclassifiable = false) (h : x.mapError g = .error f) :
    f.isUnclassifiable = false := by
  obtain ⟨e, -, rfl⟩ := mapError_eq_error_iff.1 h
  exact hg e

/-- An assembly in which no transformer raises a failure to classify has one from a foreign
object. -/
theorem exists_reaches_of_assembled_error {t : Transformers ρ} {kept : Entries Entry}
    {directives : List DirectiveDefinition} (hf : f.isUnclassifiable = true)
    (h : assembled (t.withFailures fun _ => .transformer "") s kept directives = .error f) :
    ∃ before key x, Reaches t s kept before (key, .foreign x) ∧
      f = .unclassifiable (some (Entry.shownName x (some key))) x.text := by
  rcases assembled_error_cases h with ⟨before, e, after, hsplit, hbefore, he⟩ | h | h | h
  · have hmade : ∀ e ∈ before, ∃ m, Makes t s e m :=
      fun e he => (hbefore e he).imp fun m => makes_withFailures.1
    obtain ⟨key, entry⟩ := e
    rcases dispatched_eq_error_iff.1 he with ⟨x, rfl, hx⟩ | ⟨u, rfl, hu⟩
    · exact ⟨before, key, x, ⟨⟨after, hsplit⟩, hmade⟩, hx⟩
    · simp [isUnclassifiable_of_mapError (fun _ => rfl) hu] at hf
  · simp [isUnclassifiable_of_mapError (fun _ => rfl) h] at hf
  · simp [isUnclassifiable_of_mapError (fun _ => rfl) h] at hf
  · simp [isUnclassifiable_of_mapError (fun _ => rfl) h] at hf

/-- A build that reaches a foreign object fails there, after the calls for what comes before. -/
theorem build_stops_at_foreign (hr : r.Resolves j settings s forced) (htells : r.Tells)
    (hwalked : r.documents.walked s = .ok r.documents.parsed)
    (hforced : ∀ v ∈ forced, v.unhashable? = none) {key : String} (hkey : key ≠ "") {x : Foreign}
    (hx : Reaches r.transformers s (s.survivors r.documents.parsed forced) before
      (key, .foreign x)) :
    ((build r).outcome j).1 = .error (.unclassifiable (some key) x.text) ∧
      ((build r).outcome j).2.calls = j.calls ++ before.calls := by
  obtain ⟨after, hsplit⟩ := hx.split
  have hstop := build_stops hr htells hwalked hforced hsplit hx.made
    (dispatched_eq_error_iff.2 (.inl ⟨x, rfl, rfl⟩))
  simpa [Entries.calls, Entry.call?, Entry.shownName_key x hkey] using hstop

theorem build_stops_at_type (hr : r.Resolves j settings s forced) (htells : r.Tells)
    (hwalked : r.documents.walked s = .ok r.documents.parsed)
    (hforced : ∀ v ∈ forced, v.unhashable? = none) {key : String} {u : NamedType}
    (hu : Reaches r.transformers s (s.survivors r.documents.parsed forced) before (key, .type u))
    (hf : r.transformers.ofType u.kind s u = .error f) :
    ((build r).outcome j).1 = .error f ∧
      ((build r).outcome j).2.calls =
        j.calls ++ before.calls ++ [⟨.type u.kind, some u.name⟩] := by
  obtain ⟨after, hsplit⟩ := hu.split
  have hstop := build_stops hr htells hwalked hforced hsplit hu.made
    (dispatched_eq_error_iff.2 (.inr ⟨u, rfl, hf⟩))
  simpa [Entries.calls, Entry.call?] using hstop

/-- A build fails to classify an entry, and not by a transformer's doing, where it comes to its
assembly and reaches a foreign object; the failure names the object's key. -/
theorem failsItself_iff (hr : r.Resolves j settings s forced) (htells : r.Tells)
    (hkeys : ∀ key x, (key, Entry.foreign x) ∈ s.typeMap.entries → key ≠ "") :
    f.isUnclassifiable = true ∧ r.FailsItself j f ↔
      r.documents.walked s = .ok r.documents.parsed ∧ (∀ v ∈ forced, v.unhashable? = none) ∧
      ∃ before key x,
        Reaches r.transformers s (s.survivors r.documents.parsed forced) before (key, .foreign x) ∧
          f = .unclassifiable (some key) x.text := by
  have hnonempty {before : Entries Entry} {key : String} {x : Foreign}
      (hx : Reaches r.transformers s (s.survivors r.documents.parsed forced) before
        (key, .foreign x)) : key ≠ "" := hkeys key x (Schema.mem_survivors.1 hx.mem).1
  have hresolves (g : Failure → Failure) :
      { r with transformers := r.transformers.withFailures g }.Resolves j settings s forced :=
    ⟨hr.resolved, hr.unwrapped, hr.elements⟩
  constructor
  · rintro ⟨hf, hfails⟩
    have hresult := (build_yields (r := { r with
      transformers := r.transformers.withFailures fun _ => .transformer "" }) htells j).symm.trans
        (hfails fun _ => .transformer "")
    rw [(hresolves _).result_eq_bind] at hresult
    -- No stage before the assembly fails to classify.
    have hclassified {α : Type} {x : Except Failure α} (hx : Classifies x) : x ≠ .error f := by
      intro h
      rw [hx f h] at hf
      cases hf
    rcases bind_eq_error_iff.1 hresult with h | ⟨documents, hwalked, h⟩
    · exact absurd h (hclassified (Documents.walked_classifies s _))
    · obtain rfl := Documents.parsed_of_walked hwalked
      rcases bind_eq_error_iff.1 h with h | ⟨forced', hforced, hassembled⟩
      · exact absurd h (hclassified settings.forced_classifies)
      · obtain ⟨helements, hhash⟩ := Settings.forced_eq_ok_iff.1 hforced
        obtain rfl : forced = forced' := Except.ok.inj (hr.elements.symm.trans helements)
        obtain ⟨before, key, x, hx, he⟩ := exists_reaches_of_assembled_error hf hassembled
        rw [Entry.shownName_key x (hnonempty hx)] at he
        exact ⟨hwalked, hhash, before, key, x, hx, he⟩
  · rintro ⟨hwalked, hforced, before, key, x, hx, rfl⟩
    refine ⟨rfl, fun g => ?_⟩
    have hxg : Reaches (r.transformers.withFailures g) s (s.survivors r.documents.parsed forced)
        before (key, .foreign x) :=
      ⟨hx.split, fun e he => (hx.made e he).imp fun m => makes_withFailures.2⟩
    exact (build_stops_at_foreign (hresolves g) htells hwalked hforced (hnonempty hx) hxg).1

end Survivors

/-- Documents do not notice a foreign object under a key: the type of no variable fails to be made
because of it, and no fragment on the key finds a type that the object wraps. -/
structure Schema.Unnoticed (s : Schema) (documents : List Document) (key : String) : Prop where
  variableTypes : ∀ d ∈ documents, ∀ t ∈ d.variableTypes, t.name = key → s.variableFault? t = none
  conditions : ∀ d ∈ documents, key ∈ d.conditions → s.condition? key = none

theorem Schema.unnoticed_nil (s : Schema) (key : String) : s.Unnoticed [] key :=
  ⟨by simp, by simp⟩

section Dropped

variable {s : Schema} {key : String} {x : Foreign}

theorem Schema.get?_erase (n : String) :
    (s.withTypeMap (s.typeMap.erase key)).typeMap.get? n =
      if key = n then none else s.typeMap.get? n := Entries.get?_erase s.typeMap.entries key n

theorem Schema.condition?_erase {n : String} (h : n = key → s.condition? n = none) :
    (s.withTypeMap (s.typeMap.erase key)).condition? n = s.condition? n := by
  by_cases hn : key = n
  · rw [h hn.symm, condition?, get?_erase, if_pos hn]
    rfl
  · rw [condition?, get?_erase, if_neg hn]
    rfl

theorem Schema.variableFault?_erase {t : TypeRef}
    (h : t.name = key → s.variableFault? t = none) :
    (s.withTypeMap (s.typeMap.erase key)).variableFault? t = s.variableFault? t := by
  by_cases ht : key = t.name
  · rw [h ht.symm]
    exact variableFault?_of_unknown (by rw [get?_erase, if_pos ht])
  · refine variableFault?_congr fun required => ?_
    rw [get?_erase, if_neg ht]

theorem Schema.implementingTypes_erase (h : s.typeMap.get? key = some (.foreign x)) (n : String) :
    (s.withTypeMap (s.typeMap.erase key)).implementingTypes n = s.implementingTypes n := by
  unfold implementingTypes
  have hvalues : (s.withTypeMap (s.typeMap.erase key)).typeMap.entries.values =
      Entries.values (s.typeMap.entries.filter fun e => e.1 ≠ key) := rfl
  rw [hvalues, Entries.values, Entries.values, List.filterMap_map, List.filterMap_map,
    List.filterMap_filter]
  apply List.filterMap_congr
  intro e he
  by_cases hkey : e.1 = key
  · have hforeign : e.2 = .foreign x := by
      have hget := Entries.get?_of_mem s.typeMap.distinct he
      rw [hkey] at hget
      exact Option.some.inj (hget.symm.trans h)
    simp [hkey, hforeign]
  · simp [hkey]

theorem Schema.survivors_erase {documents : List Document} {forced : List Value}
    (hconditions : ∀ d ∈ documents, key ∈ d.conditions → s.condition? key = none)
    (hkey : ¬ s.Survives documents forced key) :
    (s.withTypeMap (s.typeMap.erase key)).survivors documents forced =
      s.survivors documents forced := by
  have henums : introspectionEnums (s.withTypeMap (s.typeMap.erase key)) documents =
      introspectionEnums s documents := by
    refine introspectionEnums_withTypeMap fun d hd n hn => condition?_erase ?_
    rintro rfl
    exact hconditions d hd hn
  have hsurvives (n : String) : (s.withTypeMap (s.typeMap.erase key)).Survives documents forced n ↔
      s.Survives documents forced n := by
    rw [Survives, henums, Survives]
  have hentries : (s.withTypeMap (s.typeMap.erase key)).typeMap.entries =
      s.typeMap.entries.filter fun e => e.1 ≠ key := rfl
  rw [survivors, hentries, List.filter_filter, survivors]
  apply List.filter_congr
  intro e _
  rw [Bool.eq_iff_iff]
  simp only [hsurvives, Bool.and_eq_true, decide_eq_true_eq, and_iff_left_iff_imp]
  rintro he rfl
  exact hkey he

/-- A build of default records comes to the same without an entry that is foreign and dropped, if
its documents do not notice the object. -/
theorem result_remove {r : Request Record} {j : Journal} {settings : Settings}
    {forced : List Value} {source' : Source} (ht : r.transformers = .records)
    (hr : r.Resolves j settings s forced) (h : s.typeMap.get? key = some (.foreign x))
    (hkey : ¬ s.Survives r.documents.parsed forced key)
    (hunnoticed : s.Unnoticed r.documents.parsed key)
    (hsource : source'.unwrap = .ok (s.edit (.remove key))) :
    { r with source := source' }.result =
      (fun c => c.withSchema (s.edit (.remove key))) <$> r.result := by
  have hedit : s.edit (.remove key) = s.withTypeMap (s.typeMap.erase key) := rfl
  have hr' : { r with source := source' }.Resolves j settings (s.edit (.remove key)) forced :=
    ⟨hr.resolved, hsource, hr.elements⟩
  have hwalked : r.documents.walked (s.withTypeMap (s.typeMap.erase key)) =
      r.documents.walked s :=
    Documents.walked_congr fun d hd t ht =>
      Schema.variableFault?_erase (hunnoticed.variableTypes d hd t ht)
  rw [hr'.result_eq_bind, hr.result_eq_bind, hedit, hwalked, map_bind]
  refine bind_congr_of_ok fun documents hdocuments => ?_
  obtain rfl := Documents.parsed_of_walked hdocuments
  have hassembled (forced' : List Value) (hforced : settings.forced = .ok forced') :
      assembled r.transformers (s.withTypeMap (s.typeMap.erase key))
          ((s.withTypeMap (s.typeMap.erase key)).survivors r.documents.parsed forced')
          (settings.recordedDirectives s) =
        (fun c => c.withSchema (s.withTypeMap (s.typeMap.erase key))) <$>
          assembled r.transformers s (s.survivors r.documents.parsed forced')
            (settings.recordedDirectives s) := by
    obtain rfl : forced = forced' :=
      Except.ok.inj (hr.elements.symm.trans (Settings.forced_eq_ok_iff.1 hforced).1)
    rw [Schema.survivors_erase hunnoticed.conditions hkey, ht,
      assembled_withTypeMap (Schema.implementingTypes_erase h)]
  rw [map_bind]
  exact bind_congr_of_ok hassembled

end Dropped

namespace Library

def visitor : Foreign := { text := "<visitor>", name := some "Visitor", deprecation := none }

def visited (key : String) : Schema := schema.edit (.set key (.foreign visitor))

def visitedRequest (key : String) : Request Record :=
  { request with source := .schema (visited key) }

theorem visitedRequest_resolves (key : String) :
    (visitedRequest key).Resolves {} { forcedTypes := .tuple [.str "String"] } (visited key)
      [.str "String"] :=
  ⟨rfl, rfl, rfl⟩

def readable : Entries Entry :=
  [("Book", .type book), ("Genre", .type genre),
   ("String", .type (BuiltIn.type "String" "Text." .scalar))]

theorem visited_reaches :
    Reaches .records (visited "Guest") ((visited "Guest").survivors [] [.str "String"]) readable
      ("Guest", .foreign visitor) := by
  refine ⟨⟨[], rfl⟩, ?_⟩
  intro e he
  simp only [readable, List.mem_cons, List.not_mem_nil, or_false] at he
  rcases he with rfl | rfl | rfl <;> exact ⟨_, dispatched_eq_ok_iff.1 rfl⟩

/-- A request for the library with its visitor, in which no record of an enum is made. -/
def enumlessRequest : Request Record :=
  { visitedRequest "Guest" with
    transformers := Transformers.records.replaceType .enum fun _ _ =>
      .error (.transformer "no enums") }

theorem enumless_reaches :
    Reaches enumlessRequest.transformers (visited "Guest")
      ((visited "Guest").survivors [] [.str "String"]) [("Book", .type book)]
      ("Genre", .type genre) := by
  refine ⟨⟨_, rfl⟩, ?_⟩
  intro e he
  obtain rfl := List.mem_singleton.1 he
  exact ⟨_, dispatched_eq_ok_iff.1 rfl⟩

theorem visited_keys (key : String) (x : Foreign)
    (h : (key, Entry.foreign x) ∈ (visited "Guest").typeMap.entries) : key ≠ "" := by
  have hcases : key = "Guest" ∧ x = visitor := by
    simpa [visited, Schema.edit, schema, TypeMap.put, TypeMap.empty, Entries.put] using h
  rw [hcases.1]
  decide

end Library

namespace Library

def listRequest : Request Record :=
  { visitedRequest "Guest" with
    settings := .given { forcedTypes := .tuple [.list [.str "x"]] } }

theorem listRequest_reaches :
    Reaches .records (visited "Guest") ((visited "Guest").survivors [] [.list [.str "x"]])
      [("Book", .type book), ("Genre", .type genre)] ("Guest", .foreign visitor) := by
  refine ⟨⟨[], rfl⟩, ?_⟩
  intro e he
  simp only [List.mem_cons, List.not_mem_nil, or_false] at he
  rcases he with rfl | rfl <;> exact ⟨_, dispatched_eq_ok_iff.1 rfl⟩

def guestQuery : Document :=
  { definitions := [.operation .query [] [.named "__Guest" true]], file := none }

/-- A document with a fragment that asks a guest for the kind of a type. -/
def guestFragment : Document :=
  { definitions := [.fragment "Kinds" "__Guest" [.field "kind" []]], file := none }

/-- The library's schema with an object under a reserved key that wraps the type of types. -/
def wrapped : Schema :=
  schema.edit (.set "__Guest"
    (.foreign { visitor with wraps := some { name := "__Type", required := false } }))

end Library

end SchemaContext
