import SchemaContext.Proofs.Completion

/-!
# Outcomes of runs

A run writes a journal, but whether it returns or fails, and with what, does not depend
on the journal that it starts with. So it is with settings and with assemblies. Steps that
write to the journal are followed one by one: a step is taken off the front of a run by
the journal that it leaves to the rest.
-/

namespace SchemaContext

namespace Run

/-- What a run comes to, with whatever journal it starts. -/
def Yields (x : Run α) (a : Except Failure α) : Prop := ∀ j, (x.outcome j).1 = a

variable {x : Run α} {f : α → Run β} {a : Except Failure α}

theorem yields_pure (b : α) : (pure b : Run α).Yields (.ok b) := fun _ => rfl

theorem yields_modify (g : Journal → Journal) : (modify g : Run Unit).Yields (.ok ()) :=
  fun _ => rfl

theorem yields_ofExcept (a : Except Failure α) : (ofExcept a).Yields a := by
  intro j
  rw [outcome_ofExcept]

theorem Yields.bind {g : α → Except Failure β} (hx : x.Yields a) (hf : ∀ b, (f b).Yields (g b)) :
    (x >>= f).Yields (a >>= g) := by
  intro j
  have hxj := hx j
  rw [outcome_bind]
  rcases h : x.outcome j with ⟨e | b, j₁⟩
  · rw [h] at hxj
    subst hxj
    rfl
  · rw [h] at hxj
    subst hxj
    exact hf b j₁

theorem Yields.mapM {f : α → Run β} {g : α → Except Failure β} (hf : ∀ b, (f b).Yields (g b))
    (as : List α) : (as.mapM f).Yields (as.mapM g) := by
  induction as with
  | nil => exact yields_pure []
  | cons b as ih =>
    rw [List.mapM_cons, List.mapM_cons]
    exact (hf b).bind fun _ => ih.bind fun _ => yields_pure _

end Run

namespace Settings

def projectEntries (project : Option Value) : Mapping :=
  match project.getD .null with
  | .dict entries => entries
  | _ => []

theorem projectLayer_yields (project : Option Value) :
    (projectLayer project).Yields (.ok (.dict (projectEntries project))) := by
  intro j
  unfold projectLayer projectEntries
  cases project.getD .null with
  | dict entries => rfl
  | _ =>
    dsimp only
    split <;> rfl

theorem warnUnknown_yields (unknown : List Value) :
    (warnUnknown unknown).Yields ((fun _ => ()) <$> sortKeys unknown) := by
  unfold warnUnknown
  cases unknown with
  | nil => exact Run.yields_pure ()
  | cons k ks =>
    rw [map_eq_pure_bind]
    exact (Run.yields_ofExcept _).bind fun _ => Run.yields_modify _

/-- The settings that a mapping holds, unless its keys cannot be keys or the unknown ones cannot be
put in order. -/
def read (m : Mapping) : Except Failure Settings := do
  let given ← (Mapping.keys m).mapM Value.hashable
  let _ ← sortKeys (unknownKeys given)
  settle m

theorem ofValue_yields (m : Mapping) : (ofValue (.dict m)).Yields (read m) := by
  unfold ofValue
  refine (Run.yields_ofExcept (.ok (Mapping.keys m))).bind
    (g := fun keys => do
      let given ← keys.mapM Value.hashable
      let _ ← sortKeys (unknownKeys given)
      settle m) fun keys => ?_
  refine (Run.yields_ofExcept _).bind fun given => ?_
  have hwarned : (fun _ => ()) <$> sortKeys (unknownKeys given) >>= (fun _ => settle m) =
      sortKeys (unknownKeys given) >>= fun _ => settle m := bind_map_left _ _ _
  rw [← hwarned]
  exact (warnUnknown_yields _).bind fun _ => Run.yields_ofExcept (settle m)

def loaded (project : Option Value) (overrides : Value) : Except Failure Settings :=
  merge [.ofEntries defaults, .dict (projectEntries project), overrides] >>= read

theorem load_yields (project : Option Value) (overrides : Value) :
    (load project overrides).Yields (loaded project overrides) := by
  unfold load
  refine (projectLayer_yields project).bind
    (g := fun layer => merge [.ofEntries defaults, layer, overrides] >>= read) fun layer => ?_
  exact (Run.yields_ofExcept _).bind ofValue_yields

end Settings

def SettingsSource.settled (source : SettingsSource) : Except Failure Settings :=
  (source.resolve.outcome {}).1

theorem SettingsSource.resolve_yields (source : SettingsSource) :
    source.resolve.Yields source.settled := by
  have hsteady : ∃ a, source.resolve.Yields a := by
    cases source with
    | given s => exact ⟨_, Run.yields_pure s⟩
    | layers project overrides => exact ⟨_, Settings.load_yields project overrides⟩
  obtain ⟨a, ha⟩ := hsteady
  intro j
  rw [ha j, settled, ha {}]

theorem SettingsSource.settled_layers (project : Option Value) (overrides : Value) :
    (layers project overrides).settled = Settings.loaded project overrides :=
  Settings.load_yields project overrides {}

section Assembly

variable {ρ : Type} (t : Transformers ρ) (s : Schema)

theorem dispatch_yields (e : String × Entry) :
    (dispatch t s e.1 e.2).Yields (dispatched t s e) := by
  unfold dispatch
  refine (Run.yields_ofExcept _).bind fun type => ?_
  refine (Run.yields_modify _).bind (g := fun _ => _) fun _ => ?_
  exact (Run.yields_ofExcept _).bind fun _ => Run.yields_pure _

theorem assemble_yields (kept : Entries Entry) (directives : List DirectiveDefinition) :
    (assemble t s kept directives).Yields (assembled t s kept directives) := by
  unfold assemble
  refine (Run.Yields.mapM (dispatch_yields t s) kept).bind fun records => ?_
  refine (Run.yields_modify _).bind (g := fun _ => _) fun _ => ?_
  refine (Run.yields_ofExcept _).bind fun defined => ?_
  refine (Run.yields_ofExcept _).bind fun uses => ?_
  refine (Run.yields_modify _).bind (g := fun _ => _) fun _ => ?_
  exact (Run.yields_ofExcept _).bind fun applied => Run.yields_pure _

end Assembly

section Steps

variable {s : Schema}

/-- The journal after an event was emitted: a refusal is logged, if it has a text. -/
def Sink.emitted (k : Sink) (e : Event) (j : Journal) : Journal :=
  match k.receive e j with
  | .ok j => offer e j
  | .error refusal =>
    match refusal.text with
    | .ok text => (offer e j).log (k.refusalLine text)
    | .error _ => offer e j

/-- Every exception by which the sink refuses an event has a text. So it is with the sinks of the
library. -/
def Sink.Tells : Sink → Prop
  | .faulty _ refuses => ∀ n e refusal, refuses n e = some refusal → ∃ text, refusal.text = .ok text
  | _ => True

theorem Sink.Tells.exists_text {k : Sink} (h : k.Tells) {e : Event} {j : Journal}
    {refusal : Refusal} (hrefused : k.receive e j = .error refusal) :
    ∃ text, refusal.text = .ok text := by
  cases k with
  | memory => cases hrefused
  | silent => cases hrefused
  | logging =>
    unfold receive at hrefused
    dsimp only at hrefused
    split at hrefused
    · split at hrefused
      · cases hrefused
      · cases hrefused
        exact ⟨_, rfl⟩
    · cases hrefused
  | faulty name refuses =>
    unfold receive at hrefused
    dsimp only at hrefused
    split at hrefused
    next refusal' hrefuses =>
      cases hrefused
      exact h _ _ _ hrefuses
    next => cases hrefused

theorem Sink.outcome_emit (k : Sink) (e : Event) (j : Journal) :
    (k.emit e).outcome j =
      match k.receive e j with
      | .ok j => (.ok (), offer e j)
      | .error refusal =>
        match refusal.text with
        | .ok text => (.ok (), (offer e j).log (k.refusalLine text))
        | .error f => (.error f, offer e j) := by
  have hread : (k.emit e).outcome j =
      (match k.receive e j with
        | .ok j => set (offer e j)
        | .error refusal => do
          modify (offer e)
          let text ← Run.ofExcept refusal.text
          modify fun j => j.log (k.refusalLine text) : Run Unit).outcome j := rfl
  rw [hread]
  cases k.receive e j with
  | ok j' => rfl
  | error refusal =>
    dsimp only
    rw [Run.outcome_bind, Run.outcome_modify]
    dsimp only
    rw [Run.outcome_bind, Run.outcome_ofExcept]
    cases refusal.text <;> rfl

/-- Emitting an event fails only where a refusal has no text. -/
theorem Sink.emit_cases (k : Sink) (e : Event) (j : Journal) :
    (k.emit e).outcome j = (.ok (), k.emitted e j) ∨
      ¬ k.Tells ∧ ∃ f, (k.emit e).outcome j = (.error f, k.emitted e j) := by
  rw [outcome_emit, emitted]
  cases hreceive : k.receive e j with
  | ok j' => exact .inl rfl
  | error refusal =>
    cases htext : refusal.text with
    | ok text =>
      simp only [htext]
      exact .inl trivial
    | error f =>
      refine .inr ⟨fun htells => ?_, f, by simp [htext]⟩
      obtain ⟨text, htext'⟩ := htells.exists_text hreceive
      rw [htext] at htext'
      cases htext'

theorem Sink.outcome_emit_bind {k : Sink} (h : k.Tells) (e : Event) (f : Unit → Run α)
    (j : Journal) : (k.emit e >>= f).outcome j = (f ()).outcome (k.emitted e j) := by
  rw [Run.outcome_bind]
  rcases k.emit_cases e j with hemit | ⟨hmute, -⟩
  · rw [hemit]
  · exact absurd h hmute

def Snapshot.noted (s : Schema) (j : Journal) : Journal :=
  j.log ⟨.registry, .debug, .text ("Registered " ++ toString s.typeMap.size ++ " schema types")⟩

theorem Snapshot.outcome_take_bind {source : Source} (h : source.unwrap = .ok s)
    (f : Snapshot → Run α) (j : Journal) :
    (take source >>= f).outcome j = (f ⟨s, s.typeMap⟩).outcome (noted s j) := by
  rw [Run.outcome_bind, take, Run.outcome_bind, Run.outcome_ofExcept, h]
  rfl

def introspectionNoted (s : Schema) (documents : List Document) (j : Journal) : Journal :=
  if (introspectionEnums s documents).isEmpty then j
  else j.log ⟨.introspection, .debug, .text ("Introspection enums used by documents: "
    ++ Text.quotedList ((introspectionEnums s documents).map NamedType.name))⟩

theorem outcome_collectIntrospection (s : Schema) (given : List GivenDocument) (j : Journal) :
    (collectIntrospection s given).outcome j =
      match given.mapM (GivenDocument.walked s) with
      | .ok documents => (.ok (introspectionEnums s documents), introspectionNoted s documents j)
      | .error f => (.error f, j) := by
  rw [collectIntrospection, Run.outcome_bind, Run.outcome_ofExcept]
  cases given.mapM (GivenDocument.walked s) with
  | error f => rfl
  | ok documents =>
    dsimp only
    rw [introspectionNoted]
    cases h : (introspectionEnums s documents).isEmpty with
    | true => simp
    | false =>
      simp only [Bool.not_false, if_true, Run.outcome_bind, Run.outcome_log]
      rfl

/-- Documents give their introspection enums if all of them can be walked. -/
theorem collectIntrospection_yields (s : Schema) (documents : List Document) :
    (collectIntrospection s documents).Yields
      ((fun _ => introspectionEnums s documents) <$> (documents : Documents).walked s) := by
  intro j
  have hwalked : (documents : Documents).walked s =
      (documents.map .document).mapM (GivenDocument.walked s) := rfl
  rw [outcome_collectIntrospection, hwalked]
  cases h : (documents.map .document).mapM (GivenDocument.walked s) with
  | error f => rfl
  | ok documents' =>
    have hsame := Documents.parsed_of_walked (hwalked.trans h)
    rw [Documents.parsed_map_document] at hsame
    rw [hsame]
    rfl

end Steps

/-- Names can always be in a set, so that an allow list fails with its forced types. -/
theorem allowedNames_append (names : List String) (forced : List Value) :
    allowedNames (names.map .str ++ forced) =
      (fun vs => (names.map Value.str ++ vs).filterMap Value.text?) <$>
        forced.mapM Value.hashable := by
  have hnames : (names.map Value.str).mapM Value.hashable = .ok (names.map Value.str) := by
    induction names with
    | nil => rfl
    | cons n names ih =>
      rw [List.map_cons, List.mapM_cons, ih]
      rfl
  rw [allowedNames, List.mapM_append, hnames]
  cases forced.mapM Value.hashable with
  | error e => rfl
  | ok vs => rfl

theorem mapM_hashable {forced : List Value} (h : ∀ v ∈ forced, v.unhashable? = none) :
    forced.mapM Value.hashable = .ok forced := by
  refine mapM_eq_ok_iff.2 (List.forall₂_same.2 fun v hv => ?_)
  exact Value.hashable_eq_ok_iff.2 ⟨h v hv, rfl⟩

theorem exists_allowedNames (s : Schema) (documents : List Document) {forced : List Value}
    (h : ∀ v ∈ forced, v.unhashable? = none) :
    ∃ allowed, allowedNames
        ((introspectionEnums s documents).map (fun t => .str t.name) ++ forced) = .ok allowed ∧
      filterTypes allowed s.typeMap.entries = s.survivors documents forced := by
  have hlist := allowedNames_append ((introspectionEnums s documents).map NamedType.name) forced
  rw [List.map_map, mapM_hashable h] at hlist
  exact ⟨_, hlist, Schema.filterTypes_eq_survivors hlist⟩

theorem exists_mapM_hashable_iff {forced : List Value} :
    (∃ vs, forced.mapM Value.hashable = .ok vs) ↔ ∀ v ∈ forced, v.unhashable? = none := by
  simp [exists_mapM_iff, Value.hashable_eq_ok_iff]

end SchemaContext
