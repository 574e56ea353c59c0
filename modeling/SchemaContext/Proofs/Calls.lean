import SchemaContext.Proofs.FirstFailure
import SchemaContext.Proofs.Outcome

/-!
# Calls of transformers

The journal notes every call of a transformer. A build calls nothing before its
assembly, and the assembly calls the transformers for the kept entries in order. Where
it fails at an entry, the calls are those for the entries before it, and the one for
the entry itself if it is a type; nothing is called afterwards.
-/

namespace SchemaContext

def Entry.call? : Entry → Option Call
  | type t => some ⟨.type t.kind, some t.name⟩
  | foreign _ => none

def Entries.calls (es : Entries Entry) : List Call := es.filterMap fun e => e.2.call?

section Journals

variable (j : Journal)

@[simp] theorem Journal.calls_log (line : LogLine) : (j.log line).calls = j.calls := by
  unfold log
  split <;> rfl

@[simp] theorem Sink.calls_emitted (k : Sink) (e : Event) : (k.emitted e j).calls = j.calls :=
  k.view_emitted Journal.calls_log (fun _ _ => rfl) e j

@[simp] theorem Snapshot.calls_noted (s : Schema) : (noted s j).calls = j.calls := j.calls_log _

@[simp] theorem calls_introspectionNoted (s : Schema) (documents : List Document) :
    (introspectionNoted s documents j).calls = j.calls := by
  unfold introspectionNoted
  split
  · rfl
  · exact j.calls_log _

end Journals

namespace Run

/-- The run calls no transformer. -/
def KeepsCalls (x : Run α) : Prop := ∀ j, (x.outcome j).2.calls = j.calls

end Run

theorem SettingsSource.resolve_keepsCalls (source : SettingsSource) :
    source.resolve.KeepsCalls := source.resolve_keeps fun j _ _ => j.calls_log _

section Assembly

variable {ρ : Type} {t : Transformers ρ} {s : Schema} {e : String × Entry}
  {before : Entries Entry} {f : Failure}

theorem dispatched_eq_error_iff :
    dispatched t s e = .error f ↔
      (∃ x, e.2 = .foreign x ∧
        f = .unclassifiable (some (Entry.shownName x (some e.1))) x.text) ∨
      ∃ u, e.2 = .type u ∧ t.ofType u.kind s u = .error f := by
  unfold dispatched
  rw [bind_eq_error_iff]
  obtain ⟨key, u | x⟩ := e
  · simp [Entry.classify, bind_eq_error_iff, pure, Except.pure]
  · simp [Entry.classify, eq_comm]

/-- An assembly fails at the first entry that fails, or when its directives are transformed,
searched for or read. -/
theorem assembled_error_cases {kept : Entries Entry} {directives : List DirectiveDefinition}
    (h : assembled t s kept directives = .error f) :
    (∃ before e after, kept = before ++ e :: after ∧ (∀ e ∈ before, ∃ r, Makes t s e r) ∧
      dispatched t s e = .error f) ∨
    t.ofDirectives s directives = .error f ∨
    Failure.ofArguments (s.usesDirectives kept.values) = .error f ∨
    Failure.ofArguments (s.carrier.applied s) = .error f := by
  rcases bind_eq_error_iff.1 h with h | ⟨records, -, h⟩
  · obtain ⟨before, e, after, hsplit, hbefore, he⟩ := mapM_eq_error_iff.1 h
    simp only [dispatched_eq_ok_iff] at hbefore
    exact .inl ⟨before, e, after, hsplit, hbefore, he⟩
  right
  rcases bind_eq_error_iff.1 h with h | ⟨defined, -, h⟩
  · exact .inl h
  right
  rcases bind_eq_error_iff.1 h with h | ⟨uses, -, h⟩
  · exact .inl h
  right
  rcases bind_eq_error_iff.1 h with h | ⟨applied, -, h⟩
  · exact h
  · cases h

theorem outcome_dispatch (t : Transformers ρ) (s : Schema) (e : String × Entry) (j : Journal) :
    (dispatch t s e.1 e.2).outcome j =
      (dispatched t s e, { j with calls := j.calls ++ e.2.call?.toList }) := by
  refine Prod.ext (dispatch_yields t s e j) ?_
  obtain ⟨key, u | x⟩ := e
  · have hcalled : ((dispatch t s key (.type u)).outcome j) =
        ((do return (u.kind, ← Run.ofExcept (t.ofType u.kind s u)) : Run (Kind × ρ)).outcome
          { j with calls := j.calls ++ [⟨.type u.kind, some u.name⟩] }) := rfl
    rw [hcalled, Run.outcome_bind, Run.outcome_ofExcept]
    cases t.ofType u.kind s u <;> rfl
  · simp [dispatch, Run.outcome_bind, Entry.classify, Entry.call?]

theorem outcome_mapM_dispatch (hbefore : ∀ e ∈ before, ∃ r, Makes t s e r) (j : Journal) :
    ∃ records, (before.mapM fun e => dispatch t s e.1 e.2).outcome j =
      (.ok records, { j with calls := j.calls ++ before.calls }) := by
  induction before generalizing j with
  | nil => exact ⟨[], by simp [Entries.calls]⟩
  | cons e before ih =>
    obtain ⟨⟨r, hr⟩, hbefore⟩ := List.forall_mem_cons.1 hbefore
    obtain ⟨records, hrecords⟩ := ih hbefore { j with calls := j.calls ++ e.2.call?.toList }
    refine ⟨r :: records, ?_⟩
    rw [List.mapM_cons, Run.outcome_bind, outcome_dispatch, dispatched_eq_ok_iff.2 hr]
    dsimp only
    rw [Run.outcome_bind, hrecords]
    cases h : e.2.call? <;> simp [Entries.calls, h]

/-- An assembly that fails at an entry has called for the entries up to this one. -/
theorem outcome_assemble_of_stop (hbefore : ∀ e ∈ before, ∃ r, Makes t s e r)
    (he : dispatched t s e = .error f) (after : Entries Entry)
    (directives : List DirectiveDefinition) (j : Journal) :
    (assemble t s (before ++ e :: after) directives).outcome j =
      (.error f, { j with calls := j.calls ++ Entries.calls (before ++ [e]) }) := by
  obtain ⟨records, hrecords⟩ := outcome_mapM_dispatch hbefore j
  have hstop : ((before ++ e :: after).mapM fun e => dispatch t s e.1 e.2).outcome j =
      (.error f, { j with calls := j.calls ++ Entries.calls (before ++ [e]) }) := by
    rw [List.mapM_append, Run.outcome_bind, hrecords]
    dsimp only
    rw [List.mapM_cons, Run.outcome_bind, Run.outcome_bind, outcome_dispatch, he]
    cases h : e.2.call? <;> simp [Entries.calls, h]
  rw [assemble, Run.outcome_bind, hstop]

theorem outcome_assembleReported_of_error {r : Request ρ} {sink : Sink} (htells : sink.Tells)
    {kept : Entries Entry} {directives : List DirectiveDefinition} {j j₁ : Journal}
    (h : (assemble r.transformers s kept directives).outcome j = (.error f, j₁)) :
    ∃ j₂, (assembleReported r sink s kept directives).outcome j = (.error f, j₂) ∧
      j₂.calls = j₁.calls := by
  rw [assembleReported, Run.outcome_tryCatch, h]
  dsimp only
  cases hf : f.isUnclassifiable with
  | true =>
    rw [if_pos rfl, Sink.outcome_emit_bind htells, Run.outcome_throw]
    exact ⟨_, rfl, Sink.calls_emitted _ _ _⟩
  | false => exact ⟨j₁, rfl, rfl⟩

end Assembly

/-- The journal with which a build begins its assembly: the settings are resolved, and three events
are emitted. -/
def Request.begun (r : Request ρ) (settings : Settings) (s : Schema) (kept : Entries Entry)
    (j : Journal) : Journal :=
  let sink := settings.sink r.sink
  let names := (introspectionEnums s r.documents.parsed).map NamedType.name
  sink.emitted (.filtered r.time s.typeMap.size kept.length) <|
    sink.emitted (.introspectionCollected r.time names) <|
      introspectionNoted s r.documents.parsed <|
        sink.emitted (.started r.time s.typeMap.size r.documents.parsed.length) <|
          Snapshot.noted s (r.settings.resolve.outcome j).2

@[simp] theorem Request.calls_begun (r : Request ρ) (settings : Settings) (s : Schema)
    (kept : Entries Entry) (j : Journal) : (r.begun settings s kept j).calls = j.calls := by
  simp [begun, r.settings.resolve_keepsCalls j]

section Build

variable {ρ : Type} {r : Request ρ} {j : Journal} {settings : Settings} {s : Schema}
  {forced : List Value}

theorem outcome_build (hr : r.Resolves j settings s forced) (htells : r.Tells)
    (hwalked : r.documents.walked s = .ok r.documents.parsed)
    (hforced : ∀ v ∈ forced, v.unhashable? = none) :
    (build r).outcome j =
      (assembleReported r (settings.sink r.sink) s (s.survivors r.documents.parsed forced)
          (settings.recordedDirectives s) >>= fun c => do
        (settings.sink r.sink).emit (.completed r.time c)
        return c).outcome (r.begun settings s (s.survivors r.documents.parsed forced) j) := by
  have hresolve : r.settings.resolve.outcome j = (.ok settings, (r.settings.resolve.outcome j).2) :=
    Prod.ext hr.resolved rfl
  have hsink : (settings.sink r.sink).Tells := htells.settings_sink settings
  obtain ⟨given, hlisted, hgiven⟩ := bind_eq_ok_iff.1 hwalked
  have hcount : given.length = r.documents.parsed.length := by
    rw [GivenDocument.eq_of_mapM_walked hgiven, List.length_map]
  obtain ⟨allowed, hallowed, hkept⟩ := exists_allowedNames s r.documents.parsed hforced
  rw [build, Run.outcome_bind, hresolve]
  dsimp only
  rw [hlisted, Run.outcome_bind, Run.outcome_ofExcept]
  dsimp only
  rw [Snapshot.outcome_take_bind hr.unwrapped, Sink.outcome_emit_bind hsink, Run.outcome_bind,
    outcome_collectIntrospection, hgiven]
  dsimp only
  rw [Sink.outcome_emit_bind hsink, Run.outcome_bind, Run.outcome_ofExcept, hr.elements]
  dsimp only
  rw [Run.outcome_bind, Run.outcome_ofExcept, hallowed]
  dsimp only
  rw [hkept, Sink.outcome_emit_bind hsink, hcount]
  rfl

/-- A build stops at the first survivor of which nothing can be made: it fails with the failure
there, and it has called for the survivors up to this one. -/
theorem build_stops (hr : r.Resolves j settings s forced) (htells : r.Tells)
    (hwalked : r.documents.walked s = .ok r.documents.parsed)
    (hforced : ∀ v ∈ forced, v.unhashable? = none) {before after : Entries Entry}
    {e : String × Entry} {f : Failure}
    (hsplit : s.survivors r.documents.parsed forced = before ++ e :: after)
    (hbefore : ∀ e ∈ before, ∃ m, Makes r.transformers s e m)
    (he : dispatched r.transformers s e = .error f) :
    ((build r).outcome j).1 = .error f ∧
      ((build r).outcome j).2.calls = j.calls ++ Entries.calls (before ++ [e]) := by
  have hassemble := outcome_assemble_of_stop hbefore he after (settings.recordedDirectives s)
    (r.begun settings s (before ++ e :: after) j)
  obtain ⟨j₁, hreported, hcalls⟩ :=
    outcome_assembleReported_of_error (htells.settings_sink settings) hassemble
  rw [outcome_build hr htells hwalked hforced, hsplit, Run.outcome_bind, hreported]
  refine ⟨rfl, hcalls.trans ?_⟩
  rw [r.calls_begun]

end Build
end SchemaContext
