import SchemaContext.Proofs.Deprecation
import SchemaContext.Proofs.DirectiveMaps
import SchemaContext.Proofs.Outcome

/-!
# Use of directives in a schema

Whether a schema uses directives can be told from its syntax, without reading any
argument: somewhere a directive that the schema declares is applied on a node, or an
element that can be deprecated has no node and a deprecation reason. The flag of a
context says just this of the types that survive.
-/

namespace SchemaContext

namespace Schema

def AppliedOn (s : Schema) (nodes : List (List DirectiveUse)) : Prop :=
  ∃ node ∈ nodes, ∃ use ∈ node, use.name ∈ s.directives.map DirectiveDefinition.name

/-- An element that can be deprecated uses a directive on its node, or has no node and a deprecation
reason. -/
def UsedAt (s : Schema) (node : Option (List DirectiveUse)) (deprecation : Option String) : Prop :=
  s.AppliedOn node.toList ∨ (node = none ∧ deprecation ≠ none)

end Schema

def TypeBody.UsesDirectives (s : Schema) : TypeBody → Prop
  | object _ fields | interface _ fields =>
    ∃ f ∈ fields, s.UsedAt f.node f.deprecation ∨ ∃ a ∈ f.args, s.UsedAt a.node a.deprecation
  | inputObject _ fields => ∃ f ∈ fields, s.UsedAt f.node f.deprecation
  | enum values => ∃ v ∈ values, s.UsedAt v.node v.deprecation
  | union _ | scalar _ => False

/-- Directives are used on the schema, on one of the types or inside it, or on an argument of a
directive that the schema declares. -/
def Schema.UsesAmong (s : Schema) (types : List NamedType) : Prop :=
  s.AppliedOn (s.definition.toList ++ s.extensions) ∨
    (∃ d ∈ s.directives, ∃ a ∈ d.args, s.UsedAt a.node a.deprecation) ∨
    ∃ t ∈ types, s.AppliedOn (t.definition.toList ++ t.extensions) ∨ t.body.UsesDirectives s

theorem exists_mem_flatMap_iff {f : α → List β} {p : β → Prop} {as : List α} :
    (∃ b ∈ as.flatMap f, p b) ↔ ∃ a ∈ as, ∃ b ∈ f a, p b := by
  constructor
  · rintro ⟨b, hb, hp⟩
    obtain ⟨a, ha, hb⟩ := List.mem_flatMap.1 hb
    exact ⟨a, ha, b, hb, hp⟩
  · rintro ⟨a, ha, b, hb, hp⟩
    exact ⟨b, List.mem_flatMap.2 ⟨a, ha, hb⟩, hp⟩

namespace Carrier

variable {s : Schema} {c : Carrier}

/-- The element uses a directive: on one of its nodes, or, for want of any, by its deprecation
reason. -/
def Uses (s : Schema) (c : Carrier) : Prop :=
  s.AppliedOn c.nodes ∨ (c.nodes = [] ∧ c.deprecation ≠ none)

theorem firstUse?_isSome_iff {n : String} :
    (c.firstUse? n).isSome = true ↔ ∃ node ∈ c.nodes, ∃ use ∈ node, use.name = n := by
  rw [firstUse?_eq_find?, List.find?_isSome]
  simp only [List.mem_flatten, beq_iff_eq]
  constructor
  · rintro ⟨use, ⟨node, hnode, huse⟩, hn⟩
    exact ⟨node, hnode, use, huse, hn⟩
  · rintro ⟨node, hnode, use, huse, hn⟩
    exact ⟨use, ⟨node, hnode, huse⟩, hn⟩

theorem exists_firstUse?_iff :
    (∃ d ∈ s.directives, (c.firstUse? d.name).isSome = true) ↔ s.AppliedOn c.nodes := by
  simp only [firstUse?_isSome_iff, Schema.AppliedOn, List.mem_map]
  constructor
  · rintro ⟨d, hd, node, hnode, use, huse, hn⟩
    exact ⟨node, hnode, use, huse, d, hd, hn.symm⟩
  · rintro ⟨node, hnode, use, huse, d, hd, hn⟩
    exact ⟨d, hd, node, hnode, use, huse, hn.symm⟩

theorem applyOne_ne_nil_iff {found m : Applied} {d : DirectiveDefinition}
    (h : applyOne s c found d = .ok m) :
    m ≠ [] ↔ found ≠ [] ∨ (c.firstUse? d.name).isSome = true := by
  unfold applyOne at h
  cases huse : c.firstUse? d.name with
  | none =>
    rw [huse] at h
    cases h
    simp
  | some use =>
    rw [huse] at h
    obtain ⟨args, -, h⟩ := bind_eq_ok_iff.1 h
    cases h
    have hput : found.put d.name args ≠ [] := by
      cases found with
      | nil => simp [Entries.put]
      | cons e found => by_cases he : e.1 = d.name <;> simp [Entries.put, he]
    simp [hput]

theorem foldlM_applyOne_ne_nil_iff {ds : List DirectiveDefinition} {found m : Applied}
    (h : ds.foldlM (applyOne s c) found = .ok m) :
    m ≠ [] ↔ found ≠ [] ∨ ∃ d ∈ ds, (c.firstUse? d.name).isSome = true := by
  induction ds generalizing found with
  | nil =>
    cases h
    simp
  | cons d ds ih =>
    rw [List.foldlM_cons] at h
    obtain ⟨found', hone, h⟩ := bind_eq_ok_iff.1 h
    rw [ih h, applyOne_ne_nil_iff hone, List.exists_mem_cons_iff, or_assoc]

/-- An element whose directives are read carries one exactly if it uses one. -/
theorem ne_nil_iff_uses {m : Applied} (h : c.applied s = .ok m) : m ≠ [] ↔ c.Uses s := by
  unfold applied at h
  by_cases hnodes : c.nodes = []
  · simp only [hnodes, List.isEmpty_nil, if_true] at h
    cases h
    cases hd : c.deprecation <;> simp [Uses, Schema.AppliedOn, hnodes, hd, deprecated]
  · simp only [List.isEmpty_eq_false_iff.2 hnodes, Bool.false_eq_true, if_false] at h
    rw [foldlM_applyOne_ne_nil_iff h, exists_firstUse?_iff]
    simp [Uses, hnodes]

theorem anyApplied_iff_uses {cs : List Carrier} {b : Bool} (h : anyApplied s cs = .ok b) :
    b = true ↔ ∃ c ∈ cs, c.Uses s := by
  induction cs with
  | nil =>
    cases h
    simp
  | cons c cs ih =>
    rw [anyApplied] at h
    obtain ⟨m, hm, h⟩ := bind_eq_ok_iff.1 h
    rw [List.exists_mem_cons_iff, ← ne_nil_iff_uses hm]
    cases m with
    | nil => simp [ih h]
    | cons d m =>
      cases h
      simp

end Carrier

section Elements

variable {s : Schema}

theorem Carrier.uses_iff_usedAt {node : Option (List DirectiveUse)} {deprecation : Option String} :
    Uses s ⟨node.toList, deprecation⟩ ↔ s.UsedAt node deprecation := by
  cases node <;> simp [Uses, Schema.UsedAt]

theorem InputValue.uses_iff {v : InputValue} :
    v.carrier.Uses s ↔ s.UsedAt v.node v.deprecation :=
  Carrier.uses_iff_usedAt

theorem EnumValue.uses_iff {v : EnumValue} :
    v.carrier.Uses s ↔ s.UsedAt v.node v.deprecation :=
  Carrier.uses_iff_usedAt

theorem Field.uses_iff {f : Field} :
    (∃ c ∈ f.carriers, c.Uses s) ↔
      s.UsedAt f.node f.deprecation ∨ ∃ a ∈ f.args, s.UsedAt a.node a.deprecation := by
  have hfield : f.carrier.Uses s ↔ s.UsedAt f.node f.deprecation := Carrier.uses_iff_usedAt
  simp [carriers, hfield, InputValue.uses_iff]

theorem TypeBody.uses_iff {b : TypeBody} :
    (∃ c ∈ b.carriers, c.Uses s) ↔ b.UsesDirectives s := by
  cases b with
  | object interfaces fields | interface interfaces fields =>
    simp only [UsesDirectives, ← Field.uses_iff, carriers, exists_mem_flatMap_iff]
  | inputObject oneOf fields => simp [UsesDirectives, carriers, InputValue.uses_iff]
  | enum values => simp [UsesDirectives, carriers, EnumValue.uses_iff]
  | union members => simp [UsesDirectives, carriers]
  | scalar reading => simp [UsesDirectives, carriers]

theorem NamedType.uses_iff {t : NamedType} :
    (∃ c ∈ t.carriers, c.Uses s) ↔
      s.AppliedOn (t.definition.toList ++ t.extensions) ∨ t.body.UsesDirectives s := by
  have htype : t.carrier.Uses s ↔ s.AppliedOn (t.definition.toList ++ t.extensions) := by
    simp [carrier, Carrier.Uses]
  rw [carriers, List.exists_mem_cons_iff, htype, TypeBody.uses_iff]

/-- The elements that the search goes through use a directive somewhere if the schema does. -/
theorem exists_carriersWith_uses_iff {types : List NamedType} :
    (∃ c ∈ s.carriersWith (types.map .type), c.Uses s) ↔ s.UsesAmong types := by
  have hschema : s.carrier.Uses s ↔ s.AppliedOn (s.definition.toList ++ s.extensions) := by
    simp [Schema.carrier, Carrier.Uses]
  have harguments : (∃ c ∈ s.directives.flatMap (fun d => d.args.map InputValue.carrier),
      c.Uses s) ↔ ∃ d ∈ s.directives, ∃ a ∈ d.args, s.UsedAt a.node a.deprecation := by
    rw [exists_mem_flatMap_iff]
    simp [← InputValue.uses_iff]
  have htypes : (∃ c ∈ (types.map Entry.type).flatMap Entry.carriers, c.Uses s) ↔
      ∃ t ∈ types, ∃ c ∈ t.carriers, c.Uses s := by
    rw [exists_mem_flatMap_iff]
    simp [Entry.carriers]
  rw [Schema.UsesAmong, ← hschema, ← harguments]
  simp only [← NamedType.uses_iff, ← htypes]
  rw [Schema.carriersWith, List.cons_append, List.exists_mem_cons_iff]
  simp only [List.mem_append, or_and_right, exists_or]

end Elements

section Flag

variable {ρ : Type} {t : Transformers ρ} {s s' : Schema} {kept : Entries Entry}
  {directives : List DirectiveDefinition} {c : Context ρ}

theorem Assembles.usesDirectives_iff_usesAmong (h : Assembles t s kept directives c) :
    c.usesDirectives = true ↔ s.UsesAmong kept.types := by
  have hvalues := Entries.values_eq_map_types fun e he => h.exists_type he
  rw [Carrier.anyApplied_iff_uses h.uses, hvalues, exists_carriersWith_uses_iff]

theorem Schema.usesAmong_congr (hdirectives : s.directives = s'.directives)
    (hdefinition : s.definition = s'.definition) (hextensions : s.extensions = s'.extensions)
    (types : List NamedType) : s.UsesAmong types ↔ s'.UsesAmong types := by
  have happlied (nodes : List (List DirectiveUse)) : s.AppliedOn nodes ↔ s'.AppliedOn nodes := by
    rw [AppliedOn, hdirectives, AppliedOn]
  have hbody (b : TypeBody) : b.UsesDirectives s ↔ b.UsesDirectives s' := by
    cases b <;> simp only [TypeBody.UsesDirectives, UsedAt, happlied]
  simp only [UsesAmong, UsedAt, happlied, hbody, hdirectives, hdefinition, hextensions]

end Flag

/-- The flag of every context that a build returns, with whatever transformers, tells whether the
schema uses directives, of its types only the survivors being looked at. So it is the same for
builds of schemas that share their own syntax, their directives and the surviving types, whatever
the transformers and the settings are and whatever is inside the types that were dropped. -/
theorem build_flag_tells_use :
    (∀ {ρ : Type} {r : Request ρ} {j : Journal} {c : Context ρ}, ((build r).outcome j).1 = .ok c →
      ∃ settings s forced, r.Resolves j settings s forced ∧
        (c.usesDirectives = true ↔ s.UsesAmong (s.survivors r.documents.parsed forced).types)) ∧
    (∀ {ρ ρ' : Type} {r : Request ρ} {r' : Request ρ'} {j j' : Journal}
        {settings settings' : Settings} {s s' : Schema} {forced forced' : List Value}
        {c : Context ρ} {c' : Context ρ'},
      r.Resolves j settings s forced → r'.Resolves j' settings' s' forced' →
      s.directives = s'.directives → s.definition = s'.definition → s.extensions = s'.extensions →
      (s.survivors r.documents.parsed forced).types =
        (s'.survivors r'.documents.parsed forced').types →
      ((build r).outcome j).1 = .ok c → ((build r').outcome j').1 = .ok c' →
        c.usesDirectives = c'.usesDirectives) := by
  constructor
  · intro ρ r j c h
    obtain ⟨settings, s, forced, hr, -, -, hassembles⟩ := build_returns h
    exact ⟨settings, s, forced, hr, hassembles.usesDirectives_iff_usesAmong⟩
  · intro ρ ρ' r r' j j' settings settings' s s' forced forced' c c' hr hr' hdirectives
      hdefinition hextensions htypes h h'
    rw [Bool.eq_iff_iff, (hr.assembles h).usesDirectives_iff_usesAmong,
      (hr'.assembles h').usesDirectives_iff_usesAmong, htypes]
    exact Schema.usesAmong_congr hdirectives hdefinition hextensions _

namespace Library

def valuesRequest : Request Value :=
  { source := .wrapped schema, documents := .items [], transformers := .values
    settings := .given
      { includeSpecifiedDirectives := .bool false, forcedTypes := .tuple [.str "String"] }
    sink := none, time := "" }

theorem valuesRequest_resolves :
    valuesRequest.Resolves {}
      { includeSpecifiedDirectives := .bool false, forcedTypes := .tuple [.str "String"] }
      schema [.str "String"] :=
  ⟨rfl, rfl, rfl⟩

end Library

/-- The library uses a directive on one of its genres; the flag tells it in a context of values,
too. -/
theorem build_flag_tells_use_library :
    Library.schema.UsesAmong (Library.schema.survivors [] [.str "String"]).types ∧
    ∃ c c', ((build Library.request).outcome {}).1 = .ok c ∧
      ((build Library.valuesRequest).outcome {}).1 = .ok c' ∧ c'.definedDirectives.length = 0 ∧
      c.usesDirectives = true ∧ c.usesDirectives = c'.usesDirectives := by
  obtain ⟨c, hc, huses⟩ : ∃ c, ((build Library.request).outcome {}).1 = .ok c ∧
      c.usesDirectives = true := ⟨_, rfl, rfl⟩
  obtain ⟨c', hc', hdefined⟩ : ∃ c', ((build Library.valuesRequest).outcome {}).1 = .ok c' ∧
      c'.definedDirectives.length = 0 := ⟨_, rfl, rfl⟩
  obtain ⟨settings, s, forced, hr, hflag⟩ := build_flag_tells_use.1 hc
  have hsame := build_flag_tells_use.2 Library.request_resolves Library.valuesRequest_resolves
    rfl rfl rfl rfl hc hc'
  cases hr.resolved
  cases hr.unwrapped
  cases hr.elements
  exact ⟨hflag.1 huses, c, c', hc, hc', hdefined, huses, hsame⟩

end SchemaContext
