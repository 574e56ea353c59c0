import Mathlib.Data.List.Nodup
import SchemaContext.Proofs.Deprecation
import SchemaContext.Proofs.Readability
import SchemaContext.Proofs.TypedReferences

/-!
# Cross-references of a context

Records name other types. In the context of a schema whose type map is closed and whose
references are well typed, every name that a record gives is a key of the type map, and
the record of that name, if it was not dropped, stands in the list that the flag beside
the name, or the place of the name, tells of.
-/

namespace SchemaContext

namespace Context

def recordNames (c : Context Record) : List String := c.placed.map fun x => x.2.name

def fieldRecords (c : Context Record) : List FieldRecord := c.placed.flatMap fun x => x.2.fields

def argumentRecords (c : Context Record) : List ArgumentRecord :=
  c.fieldRecords.flatMap FieldRecord.arguments ++ c.definedDirectives.flatMap Record.arguments

/-- A name is a key of the type map. If its entry survives, one record of all has the name, and it
stands in the list of the kind; if it does not, no record has the name. -/
structure Locates (c : Context Record) (s : Schema) (documents : List Document)
    (forced : List Value) (k : Kind) (n : String) : Prop where
  key : n ∈ s.typeMap.keys
  kept : s.Survives documents forced n →
    c.recordNames.count n = 1 ∧ ∃ x ∈ c.ofKind k, x.name = n
  dropped : ¬ s.Survives documents forced n → n ∉ c.recordNames

/-- Fields and arguments have one flag each, which tells where the record of their type stands;
interfaces stand among the interfaces, and members and implementing types among the objects. -/
structure Sound (c : Context Record) (s : Schema) (documents : List Document)
    (forced : List Value) : Prop where
  fields : ∀ f ∈ c.fieldRecords, (∃! k, f.Flagged k) ∧
    ∀ k, f.Flagged k → c.Locates s documents forced k f.type.name
  arguments : ∀ a ∈ c.argumentRecords, (∃! k, a.Flagged k) ∧
    ∀ k, a.Flagged k → c.Locates s documents forced k a.type.name
  interfaces : ∀ k r, (k, Record.type r) ∈ c.placed →
    ∀ i ∈ r.interfaces, c.Locates s documents forced .interface i
  possibleTypes : ∀ k r, (k, Record.union r) ∈ c.placed →
    ∀ m ∈ r.possibleTypes, c.Locates s documents forced .object m
  implementingTypes : ∀ k r, (k, Record.interface r) ∈ c.placed →
    ∀ n ∈ r.implementingTypes, c.Locates s documents forced .object n

end Context

section Located

variable {s : Schema} {documents : List Document} {forced : List Value}
  {directives : List DirectiveDefinition} {c : Context Record}

theorem Assembles.describes_of_placed {kept : Entries Entry} {k : Kind} {x : Record}
    (h : Assembles .records s kept directives c) (hx : (k, x) ∈ c.placed) :
    ∃ e ∈ kept, ∃ t, e.2 = .type t ∧ t.kind = k ∧ x.Describes s t := by
  obtain ⟨records, hmade, hk⟩ := h.made
  obtain ⟨e, he, t, htype, hkind, hof⟩ :=
    exists_mem_of_forall₂ hmade ((placed_perm hk).mem_iff.1 hx)
  exact ⟨e, he, t, htype, hkind, Transformers.records_ofType_eq_ok_iff.1 hof⟩

theorem Schema.Closed.named (hs : s.Closed) : s.typeMap.entries.Named :=
  fun _ he _ htype => resolve?_name (hs.resolves he htype)

theorem Schema.mem_keys_survivors {n : String} (hn : n ∈ s.typeMap.keys) :
    n ∈ (s.survivors documents forced).keys ↔ s.Survives documents forced n := by
  obtain ⟨e, he, rfl⟩ := List.mem_map.1 hn
  constructor
  · intro h
    obtain ⟨e', he', hname⟩ := List.mem_map.1 h
    rw [← hname]
    exact (mem_survivors.1 he').2
  · intro h
    exact List.mem_map.2 ⟨e, mem_survivors.2 ⟨he, h⟩, rfl⟩

/-- The record of a key that references find stands in the list of the type's kind. -/
theorem Assembles.locates (hs : s.Closed)
    (h : Assembles .records s (s.survivors documents forced) directives c) {n : String}
    {t : NamedType} (ht : s.resolve? n = some t) (hn : n ∈ s.typeMap.keys) :
    c.Locates s documents forced t.kind n := by
  have hperm := placed_names_perm h (Schema.survivors_named hs.named)
  refine ⟨hn, ?_, ?_⟩
  · intro hsurvives
    have hmem : n ∈ c.recordNames := hperm.mem_iff.2 ((Schema.mem_keys_survivors hn).2 hsurvives)
    refine ⟨List.count_eq_one_of_mem (hperm.nodup_iff.2 Schema.survivors_keys_nodup) hmem, ?_⟩
    obtain ⟨⟨k, x⟩, hx, hname⟩ := List.mem_map.1 hmem
    obtain ⟨e, he, t', htype, hkind, hdescribes⟩ := h.describes_of_placed hx
    have hentry := (Schema.mem_survivors.1 he).1
    have hkey : e.1 = n := by
      rw [← hs.named e hentry t' htype, ← hdescribes.name_eq, hname]
    have hresolve := hs.resolves hentry htype
    rw [hkey, ht] at hresolve
    obtain rfl : t = t' := Option.some.inj hresolve
    exact ⟨x, Context.mem_placed.1 (hkind ▸ hx), hname⟩
  · intro hdropped hmem
    exact hdropped ((Schema.mem_keys_survivors hn).1 (hperm.mem_iff.1 hmem))

theorem Schema.Closed.mem_keys (hs : s.Closed) {e : String × Entry} (he : e ∈ s.typeMap.entries)
    {t u : NamedType} (htype : e.2 = .type t) {n : String} (hn : n ∈ t.body.references)
    (hu : s.resolve? n = some u) : n ∈ s.typeMap.keys :=
  hs.references e he t htype n hn (defined_iff.2 ⟨u, hu⟩)

theorem Schema.Closed.pointsTo_keys (hs : s.Closed) {e : String × Entry}
    (he : e ∈ s.typeMap.entries) {t : NamedType} (htype : e.2 = .type t) {p : TypeBody → Bool}
    {u : TypeUse} (hu : u.PointsTo s p t.body.references) : u.PointsTo s p s.typeMap.keys := by
  obtain ⟨hn, v, hv, hkind, hp⟩ := hu
  exact ⟨hs.mem_keys he htype hn hv, v, hv, hkind, hp⟩

theorem Assembles.locates_use (hs : s.Closed)
    (h : Assembles .records s (s.survivors documents forced) directives c) {p : TypeBody → Bool}
    {u : TypeUse} (hu : u.PointsTo s p s.typeMap.keys) {k : Kind} (hk : u.kind = some k) :
    c.Locates s documents forced k u.name := by
  obtain ⟨hn, t, ht, hkind, -⟩ := hu
  obtain rfl : t.kind = k := Option.some.inj (hkind.symm.trans hk)
  exact h.locates hs ht hn

theorem Assembles.fieldRecords_pointTo (hs : s.Closed) (hw : s.WellTyped)
    (h : Assembles .records s (s.survivors documents forced) directives c) :
    ∀ f ∈ c.fieldRecords, f.PointsTo s s.typeMap.keys := by
  intro f hf
  obtain ⟨⟨k, x⟩, hx, hf⟩ := List.mem_flatMap.1 hf
  obtain ⟨e, he, t, htype, -, hdescribes⟩ := h.describes_of_placed hx
  have hentry := (Schema.mem_survivors.1 he).1
  obtain ⟨hfield, hargs⟩ := hdescribes.fields_pointTo (hw.types e hentry t htype) f hf
  refine ⟨hs.pointsTo_keys hentry htype hfield, ?_⟩
  intro a ha
  exact hs.pointsTo_keys hentry htype (hargs a ha)

theorem Assembles.argumentRecords_pointTo (hs : s.Closed) (hw : s.WellTyped)
    (h : Assembles .records s (s.survivors documents forced) directives c)
    (hd : directives ⊆ s.directives) :
    ∀ a ∈ c.argumentRecords, a.type.PointsTo s TypeBody.isInput s.typeMap.keys := by
  intro a ha
  rcases List.mem_append.1 ha with ha | ha
  · obtain ⟨f, hf, ha⟩ := List.mem_flatMap.1 ha
    exact (h.fieldRecords_pointTo hs hw f hf).2 a ha
  · obtain ⟨r, hr, ha⟩ := List.mem_flatMap.1 ha
    obtain ⟨d, hdmem, x, hx, rfl⟩ :=
      exists_mem_of_forall₂ (Transformers.records_ofDirectives_eq_ok_iff.1 h.defined) hr
    obtain ⟨v, hv, hdescribes⟩ := exists_mem_of_forall₂ hx.arguments ha
    have hrefers := hw.directives d (hd hdmem) v hv
    obtain ⟨t, ht, -⟩ := refersTo_iff.1 hrefers
    have hkey := hs.arguments d (hd hdmem) v hv (Schema.defined_iff.2 ⟨t, ht⟩)
    rw [hdescribes.type]
    exact pointsTo_typeUse hkey hrefers

/-- A name that a kept type gives, and that refers to types of one kind only, is located there. -/
theorem Assembles.locates_reference (hs : s.Closed)
    (h : Assembles .records s (s.survivors documents forced) directives c) {e : String × Entry}
    (he : e ∈ s.survivors documents forced) {t : NamedType} (htype : e.2 = .type t) {n : String}
    (hn : n ∈ t.body.references) {p : TypeBody → Bool} (hp : s.refersTo p n = true) {k : Kind}
    (hk : ∀ b : TypeBody, p b = true → b.kind = k) : c.Locates s documents forced k n := by
  obtain ⟨u, hu, hbody⟩ := refersTo_iff.1 hp
  obtain rfl : u.kind = k := hk _ hbody
  exact h.locates hs hu (hs.mem_keys (Schema.mem_survivors.1 he).1 htype hn hu)

theorem Assembles.locates_interfaces (hs : s.Closed) (hw : s.WellTyped)
    (h : Assembles .records s (s.survivors documents forced) directives c) {k : Kind}
    {r : TypeRecord} (hr : (k, .type r) ∈ c.placed) :
    ∀ i ∈ r.interfaces, c.Locates s documents forced .interface i := by
  intro i hi
  obtain ⟨e, he, t, htype, -, hdescribes⟩ := h.describes_of_placed hr
  have hwell := hw.types e (Schema.mem_survivors.1 he).1 t htype
  cases hdescribes with
  | object body _ _ _ _ _ =>
    rw [body] at hwell
    have hn : i ∈ t.body.references := by
      rw [body]
      exact List.mem_append_left _ hi
    exact h.locates_reference hs he htype hn (hwell.1 i hi) fun b => TypeBody.isInterface_iff.1
  | inputObject _ _ _ _ interfaces _ _ =>
    rw [interfaces] at hi
    exact absurd hi List.not_mem_nil

theorem Assembles.locates_possibleTypes (hs : s.Closed) (hw : s.WellTyped)
    (h : Assembles .records s (s.survivors documents forced) directives c) {k : Kind}
    {r : UnionRecord} (hr : (k, .union r) ∈ c.placed) :
    ∀ m ∈ r.possibleTypes, c.Locates s documents forced .object m := by
  intro m hm
  obtain ⟨e, he, t, htype, -, hdescribes⟩ := h.describes_of_placed hr
  have hwell := hw.types e (Schema.mem_survivors.1 he).1 t htype
  cases hdescribes with
  | union body _ _ _ =>
    rw [body] at hwell
    have hn : m ∈ t.body.references := by
      rw [body]
      exact hm
    exact h.locates_reference hs he htype hn (hwell m hm) fun b => TypeBody.isObject_iff.1

/-- Implementing types are found in the type map itself, so they need not be well typed. -/
theorem Assembles.locates_implementingTypes (hs : s.Closed)
    (h : Assembles .records s (s.survivors documents forced) directives c) {k : Kind}
    {r : InterfaceRecord} (hr : (k, .interface r) ∈ c.placed) :
    ∀ n ∈ r.implementingTypes, c.Locates s documents forced .object n := by
  intro n hn
  obtain ⟨e, -, t, -, -, hdescribes⟩ := h.describes_of_placed hr
  cases hdescribes with
  | interface _ _ _ _ implementing _ =>
    rw [implementing] at hn
    obtain ⟨entry, hentry, hn⟩ := List.mem_filterMap.1 hn
    obtain ⟨e', he', rfl⟩ := List.mem_map.1 hentry
    obtain ⟨u, hu, htype⟩ := hs.own e' he'
    simp only [htype] at hn
    split at hn
    · rename_i hobject
      obtain rfl : u.name = n := Option.some.inj hn
      have hkind : u.kind = .object :=
        TypeBody.isObject_iff.1 (Bool.and_eq_true_iff.1 hobject).1
      have hname : u.name = e'.1 := hs.named e' he' u htype
      rw [hname, ← hkind]
      exact h.locates hs hu (List.mem_map.2 ⟨e', he', rfl⟩)
    · cases hn

/-- The references of an assembled context are sound. -/
theorem Assembles.sound (hs : s.Closed) (hw : s.WellTyped)
    (h : Assembles .records s (s.survivors documents forced) directives c)
    (hd : directives ⊆ s.directives) : c.Sound s documents forced where
  fields := by
    intro f hf
    have hpoints := (h.fieldRecords_pointTo hs hw f hf).1
    simp only [FieldRecord.flagged_iff]
    exact ⟨hpoints.existsUnique_kind, fun k hk => h.locates_use hs hpoints hk⟩
  arguments := by
    intro a ha
    have hpoints := h.argumentRecords_pointTo hs hw hd a ha
    have hinput (k : Kind) (hk : a.type.kind = some k) :
        k ∈ [Kind.scalar, Kind.enum, Kind.inputObject] := by
      obtain ⟨-, t, -, hkind, hbody⟩ := hpoints
      obtain rfl : t.kind = k := Option.some.inj (hkind.symm.trans hk)
      exact TypeBody.isInput_iff.1 hbody
    have hflag (k : Kind) : a.Flagged k ↔ a.type.kind = some k :=
      ArgumentRecord.flagged_iff.trans (and_iff_left_of_imp (hinput k))
    simp only [hflag]
    exact ⟨hpoints.existsUnique_kind, fun k hk => h.locates_use hs hpoints hk⟩
  interfaces _ _ hr := h.locates_interfaces hs hw hr
  possibleTypes _ _ hr := h.locates_possibleTypes hs hw hr
  implementingTypes _ _ hr := h.locates_implementingTypes hs hr

end Located

/-- A schema that was made and not edited is closed; and whatever context a build returns of a
closed schema whose references are well typed, its references are sound. -/
theorem build_references_sound :
    (∀ p, (Schema.ofParts p).Closed) ∧
    ∀ {s : Schema} {r : Request Record} {j : Journal} {c : Context Record}, s.Closed →
      s.WellTyped → r.transformers = .records → r.source.unwrap = .ok s →
      ((build r).outcome j).1 = .ok c →
        ∃ settings forced,
          r.Resolves j settings s forced ∧ c.Sound s r.documents.parsed forced := by
  refine ⟨Schema.closed_ofParts, ?_⟩
  intro s r j c hs hw ht hunwrapped h
  obtain ⟨settings, s', forced, hr, -, -, hassembles⟩ := build_returns h
  obtain rfl : s = s' := Except.ok.inj (hunwrapped.symm.trans hr.unwrapped)
  rw [ht] at hassembles
  exact ⟨settings, forced, hr, hassembles.sound hs hw (List.filter_subset_self _)⟩

namespace Library

def parts : SchemaParts :=
  { types := [book.bare, genre.bare], listed := ["Book", "Genre"], query := some "Book"
    mutation := none, subscription := none, directives := BuiltIn.directives
    definition := none, extensions := [] }

def partsRequest : Request Record := { request with source := .wrapped (Schema.ofParts parts) }

theorem parts_wellTyped : (Schema.ofParts parts).WellTyped where
  types := by
    have hdefinitions : ∀ t ∈ (Schema.ofParts parts).definitions,
        t.body.WellTyped (Schema.ofParts parts) := by decide +kernel
    exact fun e he t ht => hdefinitions t <|
      List.mem_of_find?_eq_some ((Schema.closed_ofParts parts).resolves he ht)
  directives := by decide +kernel

theorem parts_nodes {kept : Entries Entry} (hkept : kept ⊆ (Schema.ofParts parts).typeMap.entries) :
    ∀ c ∈ (Schema.ofParts parts).carriersWith kept.values, c.nodes = [] := by
  have hdirectives : ∀ c ∈ (Schema.ofParts parts).carrier ::
      (Schema.ofParts parts).directives.flatMap (fun d => d.args.map InputValue.carrier),
      c.nodes.isEmpty = true := by decide +kernel
  have hdefinitions : ∀ t ∈ (Schema.ofParts parts).definitions, ∀ c ∈ t.carriers,
      c.nodes.isEmpty = true := by decide +kernel
  intro c hc
  apply List.isEmpty_iff.1
  rcases List.mem_append.1 hc with hc | hc
  · exact hdirectives c hc
  · obtain ⟨entry, hentry, hc⟩ := List.mem_flatMap.1 hc
    obtain ⟨e, he, rfl⟩ := List.mem_map.1 hentry
    obtain ⟨t, hresolve, htype⟩ := (Schema.closed_ofParts parts).own e (hkept he)
    rw [htype] at hc
    exact hdefinitions t (List.mem_of_find?_eq_some hresolve) c hc

end Library

/-- The build for the library's types returns a context, and its references are sound. -/
theorem build_references_sound_library :
    ∃ c, ((build Library.partsRequest).outcome {}).1 = .ok c ∧
      c.Sound (Schema.ofParts Library.parts) [] [.str "String"] := by
  have hclosed := build_references_sound.1 Library.parts
  have hresolves : Library.partsRequest.Resolves {} { forcedTypes := .tuple [.str "String"] }
      (Schema.ofParts Library.parts) [.str "String"] := ⟨rfl, rfl, rfl⟩
  obtain ⟨c, hc⟩ : ∃ c, ((build Library.partsRequest).outcome {}).1 = .ok c := by
    refine exists_build rfl (Request.tells_of_default rfl) hresolves rfl (by decide) ?_ ?_
    · intro e he
      obtain ⟨t, -, htype⟩ := hclosed.own e (Schema.mem_survivors.1 he).1
      exact ⟨t, htype⟩
    · exact fun c hc => ⟨_, Carrier.applied_of_nodes_nil
        (Library.parts_nodes (List.filter_subset_self _) c hc)⟩
  obtain ⟨settings, forced, hr, hsound⟩ :=
    build_references_sound.2 hclosed Library.parts_wellTyped rfl rfl hc
  cases hr.resolved
  cases hr.elements
  exact ⟨c, hc, hsound⟩

end SchemaContext
