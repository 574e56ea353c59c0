import SchemaContext.Proofs.DocumentEffect
import SchemaContext.Proofs.SettingsLayers

/-!
# What forced types add to a context

Forced types are asked for by the allow list and by nothing else. A name that is forced
lets the entry under it into the context, if there is one and it would be dropped
otherwise, and it neither changes the records of other entries nor what the schema says of
directives. So a longer list of forced types adds records in the places of their entries,
and a list that names no further entry adds nothing.
-/

namespace SchemaContext

namespace Schema

variable {s : Schema} {documents : List Document} {forced forced₁ forced₂ : List String}
  {n : String}

/-- The key is dropped from a context with the first forced types, and the second keep it. -/
def AddedByForce (s : Schema) (documents : List Document) (forced₁ forced₂ : List String)
    (key : String) : Prop :=
  key ∈ forced₂ ∧ key ∉ forced₁ ∧ (key ∈ primitiveNames ∨ reservedStart.toList <+: key.toList) ∧
    key ∉ (introspectionEnums s documents).map NamedType.name

instance (s : Schema) (documents : List Document) (forced₁ forced₂ : List String) :
    DecidablePred (s.AddedByForce documents forced₁ forced₂) := fun _ =>
  inferInstanceAs (Decidable (_ ∧ _))

/-- A name that is forced survives, and so does one that needs no force. -/
theorem survives_forced_iff :
    s.Survives documents (forced.map .str) n ↔ n ∈ forced ∨ s.Survives documents [] n := by
  have hforced : Value.str n ∈ forced.map .str ↔ n ∈ forced := by simp
  rw [Survives, Survives, hforced]
  simp only [List.not_mem_nil, false_or, or_left_comm]

theorem addedByForce_iff :
    s.AddedByForce documents forced₁ forced₂ n ↔
      n ∈ forced₂ ∧ n ∉ forced₁ ∧ ¬ s.Survives documents [] n := by
  rw [AddedByForce, Survives]
  simp only [List.not_mem_nil, false_or]
  tauto

/-- With fewer forced types the entries that only the others keep are gone, and no others. -/
theorem survivors_of_subset (h : forced₁ ⊆ forced₂) :
    s.survivors documents (forced₁.map .str) =
      (s.survivors documents (forced₂.map .str)).filter fun e =>
        ¬ s.AddedByForce documents forced₁ forced₂ e.1 := by
  rw [survivors, survivors, List.filter_filter]
  apply List.filter_congr
  intro e _
  rw [← Bool.decide_and, decide_eq_decide, survives_forced_iff, survives_forced_iff,
    addedByForce_iff]
  constructor
  · rintro (hfirst | hanyway)
    · exact ⟨fun hadded => hadded.2.1 hfirst, .inl (h hfirst)⟩
    · exact ⟨fun hadded => hadded.2.2 hanyway, .inr hanyway⟩
  · rintro ⟨hnot, hsecond | hanyway⟩
    · by_contra hneither
      obtain ⟨hfirst, hforce⟩ := not_or.1 hneither
      exact hnot ⟨hsecond, hfirst, hforce⟩
    · exact .inr hanyway

theorem survivors_of_agree
    (h : ∀ n, (n ∈ forced₁ ↔ n ∈ forced₂) ∨ n ∉ s.typeMap.entries.keys ∨
      s.Survives documents [] n) :
    s.survivors documents (forced₂.map .str) = s.survivors documents (forced₁.map .str) := by
  apply List.filter_congr
  intro e he
  have hkey : e.1 ∈ s.typeMap.entries.keys := List.mem_map_of_mem he
  rw [decide_eq_decide, survives_forced_iff, survives_forced_iff]
  rcases h e.1 with hsame | hnone | hanyway
  · rw [hsame]
  · exact absurd hkey hnone
  · exact iff_of_true (.inr hanyway) (.inr hanyway)

end Schema

section Made

variable {t : Transformers ρ} {s : Schema} {kept : Entries Entry} {records : List (Kind × ρ)}

theorem Makes.unique {e : String × Entry} {r r' : Kind × ρ} (h : Makes t s e r)
    (h' : Makes t s e r') : r = r' :=
  Except.ok.inj ((dispatched_eq_ok_iff.2 h).symm.trans (dispatched_eq_ok_iff.2 h'))

def MadeUnder (t : Transformers ρ) (s : Schema) (kept : Entries Entry)
    (made : Entries (Kind × ρ)) : Prop :=
  List.Forall₂ (fun e m => m.1 = e.1 ∧ Makes t s e m.2) kept made

theorem exists_madeUnder (h : List.Forall₂ (Makes t s) kept records) :
    ∃ made, MadeUnder t s kept made ∧ made.values = records := by
  induction h with
  | nil => exact ⟨[], .nil, rfl⟩
  | @cons e r _ _ hmade _ ih =>
    obtain ⟨made, hunder, rfl⟩ := ih
    exact ⟨(e.1, r) :: made, .cons ⟨rfl, hmade⟩ hunder, rfl⟩

theorem MadeUnder.values_filter {made : Entries (Kind × ρ)} (h : MadeUnder t s kept made)
    (p : String → Bool) (hfewer : List.Forall₂ (Makes t s) (kept.filter fun e => p e.1) records) :
    Entries.values (made.filter fun m => p m.1) = records := by
  induction h generalizing records with
  | nil =>
    cases hfewer
    rfl
  | @cons e m _ _ hm _ ih =>
    obtain ⟨hkey, hmade⟩ := hm
    rw [List.filter_cons] at hfewer
    rw [List.filter_cons, hkey]
    cases hp : p e.1 with
    | false =>
      rw [hp] at hfewer
      exact ih hfewer
    | true =>
      rw [hp] at hfewer
      cases hfewer with
      | cons hmade' hrest => exact congrArg₂ List.cons (hmade.unique hmade') (ih hrest)

end Made

theorem unhashable?_of_mem_map_str {names : List String} :
    ∀ v ∈ names.map Value.str, v.unhashable? = none := by
  intro v hv
  obtain ⟨n, -, rfl⟩ := List.mem_map.1 hv
  rfl

/-- Two builds whose settings are the same but for the names of forced types. If the second forces
all names that the first forces and both return, then each list of the first is that of the second
without the records of the entries under names that only the second forces, that are primitive or
reserved, and that no document introspects; the records of directives and the schema's own
directives are the same, and the flag of the first implies that of the second. If the two force the
same names, but for names that are no keys or that survive without force, they come to the same,
whatever sink of the library they report to. -/
theorem build_forces_names {ρ : Type} {r : Request ρ} {settings' : SettingsSource} {j j' : Journal}
    {a b : Settings} {s : Schema} {forced₁ forced₂ : List String}
    (hagree : r.settings.AgreesBut Settings.forcedKey settings')
    (hr : r.Resolves j a s (forced₁.map .str))
    (hr' : { r with settings := settings' }.Resolves j' b s (forced₂.map .str)) :
    (forced₁ ⊆ forced₂ → ∀ c₁ c₂, ((build r).outcome j).1 = .ok c₁ →
      ((build { r with settings := settings' }).outcome j').1 = .ok c₂ →
      (∃ made, MadeUnder r.transformers s (s.survivors r.documents.parsed (forced₂.map .str)) made ∧
        ∀ k, c₂.ofKind k = Context.select k made.values ∧
          c₁.ofKind k = Context.select k (Entries.values (made.filter fun m =>
            ¬ s.AddedByForce r.documents.parsed forced₁ forced₂ m.1))) ∧
      c₁.definedDirectives = c₂.definedDirectives ∧ c₁.directives = c₂.directives ∧
      (c₁.usesDirectives = true → c₂.usesDirectives = true)) ∧
    (r.Tells → (∀ n, (n ∈ forced₁ ↔ n ∈ forced₂) ∨ n ∉ s.typeMap.entries.keys ∨
        s.Survives r.documents.parsed [] n) →
      ((build { r with settings := settings' }).outcome j').1 = ((build r).outcome j).1) := by
  have hrecorded : b.recordedDirectives s = a.recordedDirectives s := by
    refine Settings.recordedDirectives_of_defaultAt (by decide)
      (hagree.defaultAt_forcedKey_eq ?_ ?_) s
    · rw [← r.settings.resolve_yields j, hr.resolved]
    · rw [← settings'.resolve_yields j', hr'.resolved]
  constructor
  · intro hsub c₁ c₂ hc₁ hc₂
    have h₁ := hr.assembles hc₁
    have h₂ := hr'.assembles hc₂
    rw [hrecorded] at h₂
    rw [Schema.survivors_of_subset hsub] at h₁
    refine ⟨?_, ?_, ?_, h₁.usesDirectives_mono (List.filter_subset_self _) h₂⟩
    · obtain ⟨records₁, hmade₁, hk₁⟩ := h₁.made
      obtain ⟨records₂, hmade₂, hk₂⟩ := h₂.made
      obtain ⟨made, hunder, rfl⟩ := exists_madeUnder hmade₂
      obtain rfl := hunder.values_filter
        (fun n => ¬ s.AddedByForce r.documents.parsed forced₁ forced₂ n) hmade₁
      exact ⟨made, hunder, fun k => ⟨hk₂ k, hk₁ k⟩⟩
    · exact Except.ok.inj (h₁.defined.symm.trans h₂.defined)
    · exact Except.ok.inj (h₁.applied.symm.trans h₂.applied)
  · intro htells hsame
    rw [build_yields (r := { r with settings := settings' }) htells j', build_yields htells j,
      hr.result_eq_bind, hr'.result_eq_bind, hr.forced_eq unhashable?_of_mem_map_str,
      hr'.forced_eq unhashable?_of_mem_map_str, hrecorded]
    refine bind_congr_of_ok fun documents hwalked => ?_
    obtain rfl := Documents.parsed_of_walked hwalked
    change assembled r.transformers s _ _ = assembled r.transformers s _ _
    rw [Schema.survivors_of_agree hsame]

namespace Library

def forcing (names : List String) : SettingsSource :=
  .given { forcedTypes := .tuple (names.map .str) }

theorem forcing_resolves (names : List String) :
    { request with settings := forcing names }.Resolves {}
      { forcedTypes := .tuple (names.map .str) } schema (names.map .str) :=
  ⟨rfl, rfl, rfl⟩

theorem forcing_agrees (names : List String) :
    request.settings.AgreesBut Settings.forcedKey (forcing names) := .given rfl

end Library

/-- An introspection enum that is forced, too, is one enum more for the library. A type that needs
no force and a name that is no key change nothing. -/
theorem build_forces_names_library :
    ∃ c₁ c₂, ((build Library.request).outcome {}).1 = .ok c₁ ∧
      ((build { Library.request with
        settings := Library.forcing ["__TypeKind", "String"] }).outcome {}).1 = .ok c₂ ∧
      c₁.enums.map Record.name = ["Genre"] ∧ c₂.enums.map Record.name = ["Genre", "__TypeKind"] ∧
      (∃ made : Entries (Kind × Record), c₂.scalars = Context.select .scalar made.values ∧
        c₁.scalars = Context.select .scalar (Entries.values (made.filter fun m =>
          ¬ Library.schema.AddedByForce [] ["String"] ["__TypeKind", "String"] m.1))) ∧
      ((build { Library.request with
        settings := Library.forcing ["String", "Book", "Novel", "String"] }).outcome {}).1 =
          .ok c₁ := by
  obtain ⟨c₁, h₁, henums₁⟩ : ∃ c, ((build Library.request).outcome {}).1 = .ok c ∧
      c.enums.map Record.name = ["Genre"] := ⟨_, rfl, rfl⟩
  obtain ⟨c₂, h₂, henums₂⟩ : ∃ c, ((build { Library.request with
      settings := Library.forcing ["__TypeKind", "String"] }).outcome {}).1 = .ok c ∧
        c.enums.map Record.name = ["Genre", "__TypeKind"] := ⟨_, rfl, rfl⟩
  have hr : Library.request.Resolves {} { forcedTypes := .tuple [.str "String"] } Library.schema
      (["String"].map .str) := Library.request_resolves
  refine ⟨c₁, c₂, h₁, h₂, henums₁, henums₂, ?_, ?_⟩
  · have hsub : ["String"] ⊆ ["__TypeKind", "String"] := by simp
    obtain ⟨⟨made, -, hk⟩, -⟩ := (build_forces_names (Library.forcing_agrees _) hr
      (Library.forcing_resolves _)).1 hsub c₁ c₂ h₁ h₂
    exact ⟨made, hk .scalar⟩
  · refine Eq.trans ((build_forces_names (Library.forcing_agrees _) hr
      (Library.forcing_resolves _)).2 (Request.tells_of_default rfl) ?_) h₁
    intro n
    by_cases hbook : n = "Book"
    · exact .inr (.inr (hbook ▸ by decide))
    · by_cases hnovel : n = "Novel"
      · exact .inr (.inl (hnovel ▸ by decide))
      · simp [hbook, hnovel]

end SchemaContext
