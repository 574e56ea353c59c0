import SchemaContext.Proofs.Keeping

/-!
# Events of runs

What the events of a run leave behind in the journal is seen through `Journal.report`:
the events offered and kept, and the lines of the loggers that tell of them. A run traces
events to a sink if its report is that of emitting these events one after the other, with
whatever journal it starts. What a build comes to is computed by `Request.result`, and its
events by `Request.events`; no sink occurs in either. A sink can keep a build from its
result only by a refusal without a text.
-/

namespace SchemaContext

/-- Whether a line tells of an event: of the event itself, or of its refusal. -/
def LogLine.isReport (l : LogLine) : Bool := l.logger == .events || l.logger == .sinks

/-- What is left of a journal by events alone. -/
def Journal.report (j : Journal) : Journal :=
  { j with lines := j.lines.filter LogLine.isReport, calls := [] }

namespace Journal

variable {line : LogLine}

theorem report_log_of_isReport (h : line.isReport = true) (j : Journal) :
    (j.log line).report = j.report.log line := by
  have henabled : j.report.enabled line.level = j.enabled line.level := rfl
  unfold log
  rw [henabled]
  split
  · simp [report, h]
  · rfl

theorem report_log (h : line.isReport = false) (j : Journal) : (j.log line).report = j.report := by
  unfold log
  split
  · simp [report, h]
  · rfl

theorem filter_lines_log (p : LogLine → Bool) (line : LogLine) (j : Journal) :
    (j.log line).lines.filter p =
      j.lines.filter p ++ if j.enabled line.level && p line then [line] else [] := by
  unfold log
  cases j.enabled line.level with
  | false => simp
  | true => cases hp : p line <;> simp [hp]

theorem filter_lines_report {p : LogLine → Bool} (hp : ∀ l, p l = true → l.isReport = true)
    (j : Journal) : j.report.lines.filter p = j.lines.filter p := by
  rw [report, List.filter_filter]
  apply List.filter_congr
  intro l _
  rw [Bool.and_eq_left_iff_imp]
  exact hp l

theorem offered_log (j : Journal) (line : LogLine) : (j.log line).offered = j.offered := by
  unfold log
  split <;> rfl

theorem threshold_log (j : Journal) (line : LogLine) : (j.log line).threshold = j.threshold := by
  unfold log
  split <;> rfl

end Journal

namespace Sink

theorem receive_report (k : Sink) (e : Event) (j : Journal) :
    k.receive e j.report = Journal.report <$> k.receive e j := by
  cases k with
  | memory => rfl
  | silent => rfl
  | logging =>
    have henabled : j.report.enabled e.severity.logLevel = j.enabled e.severity.logLevel := rfl
    rw [receive, receive, henabled]
    split
    · cases e.json with
      | ok text => exact congrArg Except.ok (j.report_log_of_isReport rfl).symm
      | error f => rfl
    · rfl
  | faulty name refuses =>
    have hcount : j.report.offered.length = j.offered.length := rfl
    rw [receive, receive, hcount]
    cases refuses j.offered.length e <;> rfl

theorem report_emitted (k : Sink) (e : Event) (j : Journal) :
    (k.emitted e j).report = k.emitted e j.report := by
  rw [emitted, emitted, receive_report]
  cases k.receive e j with
  | ok j' => rfl
  | error refusal =>
    cases refusal with
    | failure f => exact (offer e j).report_log_of_isReport rfl
    | mute attempt => rfl

theorem enabled_emitted (k : Sink) (e : Event) (j : Journal) (l : LogLevel) :
    (k.emitted e j).enabled l = j.enabled l := by
  have hthreshold : (k.emitted e j).threshold = j.threshold :=
    k.view_emitted Journal.threshold_log (fun _ _ => rfl) e j
  rw [Journal.enabled, hthreshold, Journal.enabled]

def emittedAll (k : Sink) (es : List Event) (j : Journal) : Journal :=
  es.foldl (fun j e => k.emitted e j) j

theorem emittedAll_cons (k : Sink) (e : Event) (es : List Event) (j : Journal) :
    k.emittedAll (e :: es) j = k.emittedAll es (k.emitted e j) := rfl

theorem emittedAll_append (k : Sink) (es es' : List Event) (j : Journal) :
    k.emittedAll (es ++ es') j = k.emittedAll es' (k.emittedAll es j) := List.foldl_append

theorem offered_emitted (k : Sink) (e : Event) (j : Journal) :
    (k.emitted e j).offered = j.offered ++ [e] :=
  k.view_emitted Journal.offered_log (fun _ _ => rfl) e j

theorem offered_emittedAll (k : Sink) (es : List Event) (j : Journal) :
    (k.emittedAll es j).offered = j.offered ++ es := by
  induction es generalizing j with
  | nil => exact (List.append_nil _).symm
  | cons e es ih =>
    rw [emittedAll_cons, ih, offered_emitted, List.append_assoc, List.singleton_append]

/-- A sink in memory keeps every event. -/
theorem kept_emittedAll_memory (es : List Event) (j : Journal) :
    (memory.emittedAll es j).kept = j.kept ++ es := by
  induction es generalizing j with
  | nil => exact (List.append_nil _).symm
  | cons e es ih =>
    have hkept : (memory.emitted e j).kept = j.kept ++ [e] := rfl
    rw [emittedAll_cons, ih, hkept, List.append_assoc, List.singleton_append]

end Sink

namespace Run

/-- A run comes to a result and emits events to a sink, with whatever journal it starts. Where a
refusal of the sink has no text, it may fail instead. -/
def Traces (x : Run α) (k : Sink) (a : Except Failure α) (es : List Event) : Prop :=
  ∀ j, ((x.outcome j).1 = a ∧ (x.outcome j).2.report = k.emittedAll es j.report) ∨
    ¬ k.Tells ∧ ∃ f, (x.outcome j).1 = .error f

variable {k : Sink} {x : Run α} {f : α → Run β} {a : α} {es es' : List Event}

theorem Yields.traces {r : Except Failure α} (hx : x.Yields r) (hkeeps : x.Keeps Journal.report) :
    x.Traces k r [] := fun j => .inl ⟨hx j, hkeeps j⟩

theorem traces_pure (a : α) : (pure a : Run α).Traces k (.ok a) [] :=
  (yields_pure a).traces (keeps_pure a)

theorem traces_throw (f : Failure) : (throw f : Run α).Traces k (.error f) [] :=
  fun _ => .inl ⟨rfl, rfl⟩

theorem traces_ofExcept {a r : Except Failure α} (h : a = r) : (ofExcept a).Traces k r [] := by
  subst h
  exact (yields_ofExcept a).traces (keeps_ofExcept a)

theorem traces_emit (k : Sink) (e : Event) : (k.emit e).Traces k (.ok ()) [e] := by
  intro j
  rcases k.emit_cases e j with h | ⟨hmute, f, h⟩
  · rw [h]
    exact .inl ⟨rfl, k.report_emitted e j⟩
  · rw [h]
    exact .inr ⟨hmute, f, rfl⟩

theorem Traces.bind {r : Except Failure β} (hx : x.Traces k (.ok a) es)
    (hf : (f a).Traces k r es') : (x >>= f).Traces k r (es ++ es') := by
  intro j
  rw [outcome_bind]
  rcases hxj : x.outcome j with ⟨b, j₁⟩
  have hcases := hx j
  rw [hxj] at hcases
  rcases hcases with ⟨rfl, hreport⟩ | ⟨hmute, f', rfl⟩
  · dsimp only at hreport ⊢
    rw [Sink.emittedAll_append, ← hreport]
    exact hf j₁
  · exact .inr ⟨hmute, f', rfl⟩

theorem Traces.silent_bind {r : Except Failure β} (hx : x.Traces k (.ok a) [])
    (hf : (f a).Traces k r es) : (x >>= f).Traces k r es := hx.bind hf

theorem Traces.emit_bind {f : Unit → Run α} {r : Except Failure α} {e : Event}
    (hf : (f ()).Traces k r es) : (k.emit e >>= f).Traces k r (e :: es) := (traces_emit k e).bind hf

theorem Traces.bind_error {e : Failure} (hx : x.Traces k (.error e) es) :
    (x >>= f).Traces k (.error e) es := by
  intro j
  rw [outcome_bind]
  rcases hxj : x.outcome j with ⟨b, j₁⟩
  have hcases := hx j
  rw [hxj] at hcases
  rcases hcases with ⟨rfl, hreport⟩ | ⟨hmute, f', rfl⟩
  · exact .inl ⟨rfl, hreport⟩
  · exact .inr ⟨hmute, f', rfl⟩

theorem traces_tryCatch_ok {handle : Failure → Run α} (hx : x.Yields (.ok a))
    (hkeeps : x.Keeps Journal.report) : (tryCatch x handle).Traces k (.ok a) [] := by
  intro j
  have hxj : x.outcome j = (.ok a, (x.outcome j).2) := Prod.ext (hx j) rfl
  rw [outcome_tryCatch, hxj]
  exact .inl ⟨rfl, hkeeps j⟩

/-- What a handler emits is emitted after a run that emits nothing. -/
theorem traces_tryCatch_error {handle : Failure → Run α} {e : Failure} {r : Except Failure α}
    (hx : x.Yields (.error e)) (hkeeps : x.Keeps Journal.report)
    (hh : (handle e).Traces k r es) : (tryCatch x handle).Traces k r es := by
  intro j
  have hxj : x.outcome j = (.error e, (x.outcome j).2) := Prod.ext (hx j) rfl
  rw [outcome_tryCatch, hxj, ← hkeeps j]
  exact hh _

end Run

/-- The forced types of settings, if they can be gone through and put into a set. -/
def Settings.forced (settings : Settings) : Except Failure (List Value) := do
  let forced ← settings.forcedTypes.elements
  forced.mapM Value.hashable

theorem Settings.forced_eq_ok_iff {settings : Settings} {forced : List Value} :
    settings.forced = .ok forced ↔
      settings.forcedTypes.elements = .ok forced ∧ ∀ v ∈ forced, v.unhashable? = none := by
  unfold Settings.forced
  rw [bind_eq_ok_iff]
  constructor
  · rintro ⟨vs, hvs, hhash⟩
    have hall := exists_mapM_hashable_iff.1 ⟨forced, hhash⟩
    rw [mapM_hashable hall] at hhash
    obtain rfl := Except.ok.inj hhash
    exact ⟨hvs, hall⟩
  · rintro ⟨hvs, hall⟩
    exact ⟨forced, hvs, mapM_hashable hall⟩

/-- The event that tells how an assembly ended, if one does. -/
def Event.ending (time : String) : Except Failure (Context ρ) → List Event
  | .ok c => [.completed time c]
  | .error f => if f.isUnclassifiable then [.classificationFailed time f] else []

namespace Request

def lateResult (r : Request ρ) (settings : Settings) (s : Schema) :
    Except Failure (Context ρ) := do
  let forced ← settings.forced
  assembled r.transformers s (s.survivors r.documents.parsed forced)
    (settings.recordedDirectives s)

/-- The events of a build after the introspection enums were collected. -/
def lateEvents (r : Request ρ) (settings : Settings) (s : Schema) : List Event :=
  match settings.forced with
  | .ok forced =>
    let kept := s.survivors r.documents.parsed forced
    .filtered r.time s.typeMap.size kept.length ::
      Event.ending r.time (assembled r.transformers s kept (settings.recordedDirectives s))
  | .error _ => []

/-- What a build comes to: the context that the request asks for, or why there is none. -/
def result (r : Request ρ) : Except Failure (Context ρ) := do
  let settings ← r.settings.settled
  let given ← r.documents.listed
  let s ← r.source.unwrap
  let _ ← given.mapM (GivenDocument.walked s)
  r.lateResult settings s

def events (r : Request ρ) : List Event :=
  match r.settings.settled, r.documents.listed, r.source.unwrap with
  | .ok settings, .ok given, .ok s =>
    .started r.time s.typeMap.size given.length ::
      match given.mapM (GivenDocument.walked s) with
      | .ok documents =>
        .introspectionCollected r.time ((introspectionEnums s documents).map NamedType.name) ::
          r.lateEvents settings s
      | .error _ => []
  | _, _, _ => []

variable {r : Request ρ} {settings : Settings} {given : List GivenDocument}
  {documents : List Document} {s : Schema} {f : Failure}

theorem ends_without_settings (hs : r.settings.settled = .error f) :
    r.result = .error f ∧ r.events = [] := by
  rw [result, events, hs]
  exact ⟨rfl, rfl⟩

theorem ends_without_documents (hs : r.settings.settled = .ok settings)
    (hd : r.documents.listed = .error f) : r.result = .error f ∧ r.events = [] := by
  rw [result, events, hs, hd]
  exact ⟨rfl, rfl⟩

theorem ends_without_schema (hs : r.settings.settled = .ok settings)
    (hd : r.documents.listed = .ok given) (hu : r.source.unwrap = .error f) :
    r.result = .error f ∧ r.events = [] := by
  rw [result, events, hs, hd, hu]
  exact ⟨rfl, rfl⟩

/-- A build whose documents cannot be walked fails, and has told only that it started. -/
theorem ends_without_walk (hs : r.settings.settled = .ok settings)
    (hd : r.documents.listed = .ok given) (hu : r.source.unwrap = .ok s)
    (hw : given.mapM (GivenDocument.walked s) = .error f) :
    r.result = .error f ∧ r.events = [.started r.time s.typeMap.size given.length] := by
  constructor
  · rw [result, hs, hd, hu]
    simp only [bind, Except.bind, hw]
  · simp only [events, hs, hd, hu, hw]

theorem walked_eq_parsed (hd : r.documents.listed = .ok given)
    (hw : given.mapM (GivenDocument.walked s) = .ok documents) :
    documents = r.documents.parsed := by
  refine (Documents.parsed_of_walked (s := s) ?_).symm
  rw [Documents.walked, hd]
  exact hw

theorem events_eq_cons (hs : r.settings.settled = .ok settings)
    (hd : r.documents.listed = .ok given) (hu : r.source.unwrap = .ok s)
    (hw : given.mapM (GivenDocument.walked s) = .ok documents) :
    r.events = .started r.time s.typeMap.size given.length ::
      .introspectionCollected r.time ((introspectionEnums s documents).map NamedType.name) ::
        r.lateEvents settings s := by
  simp only [events, hs, hd, hu, hw]

theorem result_eq_lateResult (hs : r.settings.settled = .ok settings)
    (hd : r.documents.listed = .ok given) (hu : r.source.unwrap = .ok s)
    (hw : given.mapM (GivenDocument.walked s) = .ok documents) :
    r.result = r.lateResult settings s := by
  rw [result, hs, hd, hu]
  simp only [bind, Except.bind, hw]

end Request

section Steps

variable {k : Sink}

theorem SettingsSource.resolve_traces (source : SettingsSource) :
    source.resolve.Traces k source.settled [] :=
  source.resolve_yields.traces (source.resolve_keeps fun j _ _ => j.report_log rfl)

theorem Snapshot.take_traces {source : Source} {s : Schema} (h : source.unwrap = .ok s) :
    (take source).Traces k (.ok ⟨s, s.typeMap⟩) [] := by
  refine (Run.traces_ofExcept h).silent_bind (Run.Traces.silent_bind (a := ()) ?_ ?_)
  · exact (Run.yields_modify _).traces (Run.keeps_modify fun j => j.report_log rfl)
  · exact Run.traces_pure _

theorem collectIntrospection_traces (s : Schema) (given : List GivenDocument) :
    (collectIntrospection s given).Traces k
      (introspectionEnums s <$> given.mapM (GivenDocument.walked s)) [] := by
  intro j
  rw [outcome_collectIntrospection]
  cases given.mapM (GivenDocument.walked s) with
  | error f => exact .inl ⟨rfl, rfl⟩
  | ok documents =>
    refine .inl ⟨rfl, ?_⟩
    dsimp only
    unfold introspectionNoted
    split
    · rfl
    · exact j.report_log rfl

theorem assemble_keeps (t : Transformers ρ) (s : Schema) (kept : Entries Entry)
    (directives : List DirectiveDefinition) :
    (assemble t s kept directives).Keeps Journal.report := by
  have hcalled (c : Call) : (Run.called c).Keeps Journal.report := Run.keeps_modify fun _ => rfl
  have hdispatch (e : String × Entry) : (dispatch t s e.1 e.2).Keeps Journal.report := by
    refine (Run.keeps_ofExcept _).bind fun type => (hcalled _).bind fun _ => ?_
    exact (Run.keeps_ofExcept _).bind fun _ => Run.keeps_pure _
  refine (Run.Keeps.mapM hdispatch kept).bind fun records => (hcalled _).bind fun _ => ?_
  refine (Run.keeps_ofExcept _).bind fun defined => (Run.keeps_ofExcept _).bind fun uses => ?_
  refine (Run.keeps_modify fun j => j.report_log rfl).bind fun _ => ?_
  exact (Run.keeps_ofExcept _).bind fun applied => Run.keeps_pure _

theorem assembleReported_traces (r : Request ρ) (s : Schema) (kept : Entries Entry)
    (directives : List DirectiveDefinition) :
    (assembleReported r k s kept directives >>= fun c => do
        k.emit (.completed r.time c)
        return c).Traces k (assembled r.transformers s kept directives)
      (Event.ending r.time (assembled r.transformers s kept directives)) := by
  have hyields := assemble_yields r.transformers s kept directives
  have hkeeps := assemble_keeps r.transformers s kept directives
  unfold assembleReported
  cases hresult : assembled r.transformers s kept directives with
  | ok c =>
    rw [hresult] at hyields
    exact (Run.traces_tryCatch_ok hyields hkeeps).silent_bind (.emit_bind (Run.traces_pure c))
  | error f =>
    rw [hresult] at hyields
    have hhandle : (do
        if f.isUnclassifiable then k.emit (.classificationFailed r.time f)
        throw f : Run (Context ρ)).Traces k (.error f)
          (if f.isUnclassifiable then [.classificationFailed r.time f] else []) := by
      cases f.isUnclassifiable with
      | true => exact Run.Traces.emit_bind (Run.traces_throw f)
      | false => exact Run.traces_throw f
    exact (Run.traces_tryCatch_error hyields hkeeps hhandle).bind_error

end Steps

/-- Forced types that cannot be put into a set keep the allow list from being made, since names
always can. -/
theorem allowedNames_of_error {s : Schema} {documents : List Document} {forced : List Value}
    {e : Failure} (h : forced.mapM Value.hashable = .error e) :
    allowedNames ((introspectionEnums s documents).map (fun t => .str t.name) ++ forced) =
      .error e := by
  have hlist := allowedNames_append ((introspectionEnums s documents).map NamedType.name) forced
  rw [List.map_map, h] at hlist
  exact hlist

def Request.lateBuild (r : Request ρ) (k : Sink) (settings : Settings) (s : Schema) :
    Run (Context ρ) := do
  let forced ← Run.ofExcept settings.forcedTypes.elements
  let names := (introspectionEnums s r.documents.parsed).map fun t => Value.str t.name
  let allowed ← Run.ofExcept (allowedNames (names ++ forced))
  let kept := filterTypes allowed s.typeMap.entries
  k.emit (.filtered r.time s.typeMap.size kept.length)
  let context ← assembleReported r k s kept (settings.recordedDirectives s)
  k.emit (.completed r.time context)
  return context

theorem lateBuild_traces {k : Sink} (r : Request ρ) (settings : Settings) (s : Schema) :
    (r.lateBuild k settings s).Traces k (r.lateResult settings s) (r.lateEvents settings s) := by
  unfold Request.lateBuild Request.lateResult Request.lateEvents
  cases he : settings.forcedTypes.elements with
  | error e =>
    have hforced : settings.forced = .error e := by
      rw [Settings.forced, he]
      rfl
    rw [hforced]
    exact (Run.traces_ofExcept rfl).bind_error
  | ok forced =>
    refine (Run.traces_ofExcept rfl).silent_bind ?_
    cases hh : forced.mapM Value.hashable with
    | error e =>
      have hforced : settings.forced = .error e := by
        rw [Settings.forced, he]
        exact hh
      rw [hforced]
      exact (Run.traces_ofExcept (allowedNames_of_error hh)).bind_error
    | ok vs =>
      have hall := exists_mapM_hashable_iff.1 ⟨vs, hh⟩
      have hforced : settings.forced = .ok forced := Settings.forced_eq_ok_iff.2 ⟨he, hall⟩
      obtain ⟨allowed, hallowed, hkept⟩ := exists_allowedNames s r.documents.parsed hall
      rw [hforced]
      refine (Run.traces_ofExcept hallowed).silent_bind ?_
      rw [hkept]
      exact Run.Traces.emit_bind (assembleReported_traces r s _ _)

/-- The sink of a build: the one of the call, or the one that its settings choose. -/
def Request.usedSink (r : Request ρ) : Sink :=
  match r.settings.settled with
  | .ok settings => settings.sink r.sink
  | .error _ => r.sink.getD .silent

theorem Request.usedSink_of_chosen {r : Request ρ} {k : Sink} (h : r.sink = some k) :
    r.usedSink = k := by
  unfold usedSink
  split
  · rw [Settings.sink, h]
    rfl
  · rw [h]
    rfl

/-- A build comes to its result and emits its events to its sink. -/
theorem build_traces (r : Request ρ) : (build r).Traces r.usedSink r.result r.events := by
  have hresolve : r.settings.resolve.Traces r.usedSink r.settings.settled [] :=
    r.settings.resolve_traces
  unfold build
  cases hs : r.settings.settled with
  | error e =>
    obtain ⟨hresult, hevents⟩ := Request.ends_without_settings hs
    rw [hs] at hresolve
    rw [hresult, hevents]
    exact hresolve.bind_error
  | ok settings =>
    have hsink : settings.sink r.sink = r.usedSink := by simp [Request.usedSink, hs]
    rw [hs] at hresolve
    refine hresolve.silent_bind ?_
    rw [hsink]
    cases hd : r.documents.listed with
    | error e =>
      obtain ⟨hresult, hevents⟩ := Request.ends_without_documents hs hd
      rw [hresult, hevents]
      exact (Run.traces_ofExcept rfl).bind_error
    | ok given =>
      refine (Run.traces_ofExcept rfl).silent_bind ?_
      cases hu : r.source.unwrap with
      | error e =>
        obtain ⟨hresult, hevents⟩ := Request.ends_without_schema hs hd hu
        rw [hresult, hevents]
        exact Run.Traces.bind_error (Run.Traces.bind_error (Run.traces_ofExcept hu))
      | ok s =>
        refine (Snapshot.take_traces hu).silent_bind ?_
        have hcollect := collectIntrospection_traces (k := r.usedSink) s given
        cases hw : given.mapM (GivenDocument.walked s) with
        | error e =>
          obtain ⟨hresult, hevents⟩ := Request.ends_without_walk hs hd hu hw
          rw [hw] at hcollect
          rw [hresult, hevents]
          exact Run.Traces.emit_bind hcollect.bind_error
        | ok documents =>
          rw [hw] at hcollect
          rw [Request.events_eq_cons hs hd hu hw, Request.result_eq_lateResult hs hd hu hw]
          refine Run.Traces.emit_bind (hcollect.silent_bind (Run.Traces.emit_bind ?_))
          obtain rfl := Request.walked_eq_parsed hd hw
          exact lateBuild_traces r settings s

end SchemaContext
