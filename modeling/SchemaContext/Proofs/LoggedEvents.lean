import SchemaContext.Proofs.SinkIndependence

/-!
# Logged events

The sink that a call gets without asking logs each event as JSON text, at the level of
its severity. What it leaves in the log is what a sink in memory keeps of the same
request, apart from the events below the threshold of the loggers. A sink in memory
tells what it has received by types, and so tells each event once.
-/

namespace SchemaContext

def Event.stamped (time : String) (e : Event) : Event := { e with timestamp := time }

namespace Request

variable (r : Request ρ) (time : String)

theorem lateEvents_stamped (settings : Settings) (s : Schema) :
    { r with time := time }.lateEvents settings s =
      (r.lateEvents settings s).map (Event.stamped time) := by
  unfold lateEvents
  cases settings.forced with
  | error f => rfl
  | ok forced =>
    refine congrArg (_ :: ·) ?_
    dsimp only
    cases assembled r.transformers s (s.survivors r.documents.parsed forced)
        (settings.recordedDirectives s) with
    | ok c => rfl
    | error f =>
      rw [Event.ending, Event.ending]
      cases f.isUnclassifiable <;> rfl

/-- The time of a request is in its events only, and there it is the time of the event. -/
theorem events_stamped :
    { r with time := time }.events = r.events.map (Event.stamped time) := by
  unfold events
  cases r.settings.settled with
  | error f => rfl
  | ok settings =>
    cases r.documents.listed with
    | error f => rfl
    | ok given =>
      cases r.source.unwrap with
      | error f => rfl
      | ok s =>
        refine congrArg (_ :: ·) ?_
        dsimp only
        cases given.mapM (GivenDocument.walked s) with
        | error f => rfl
        | ok documents => exact congrArg (_ :: ·) (r.lateEvents_stamped time settings s)

end Request

def Journal.eventLines (j : Journal) : List LogLine := j.lines.filter fun l => l.logger == .events

theorem Journal.eventLines_report (j : Journal) : j.report.eventLines = j.eventLines :=
  filter_lines_report (fun l hl => by rw [LogLine.isReport, hl, Bool.true_or]) j

def Event.logged (e : Event) : LogLine := ⟨.events, e.severity.logLevel, .event e⟩

/-- The line is of the events' logger, at the level of the event's severity, and is the JSON text of
the event, but for its time. -/
structure LogLine.Tells (l : LogLine) (e : Event) : Prop where
  logger : l.logger = .events
  level : l.level = e.severity.logLevel
  told : ∃ time, Text.jsonless? (.ofEntries (e.stamped time).toEntries) = none ∧
    l.message.render = Text.json (.ofEntries (e.stamped time).toEntries)

theorem Event.Writable.jsonless?_eq_none {e : Event} (he : e.Writable) :
    Text.jsonless? (.ofEntries e.toEntries) = none := by
  unfold Writable json at he
  split at he
  · cases he
  · assumption

theorem Event.Writable.tells {e : Event} (he : e.Writable) (time : String) :
    e.logged.Tells (e.stamped time) :=
  ⟨rfl, rfl, e.timestamp, he.jsonless?_eq_none, rfl⟩

namespace Sink

variable {e : Event} {es : List Event}

theorem eventLines_emitted_logging (he : e.Writable) (j : Journal) :
    (logging.emitted e j).eventLines =
      j.eventLines ++ if j.enabled e.severity.logLevel then [e.logged] else [] := by
  cases henabled : j.enabled e.severity.logLevel with
  | true =>
    have htaken : logging.emitted e j = offer e (j.log e.logged) := by
      rw [emitted, receive, henabled, he]
      rfl
    have hline : j.enabled e.logged.level = true := henabled
    have hlines : (offer e (j.log e.logged)).eventLines = (j.log e.logged).eventLines := rfl
    rw [htaken, hlines, Journal.eventLines, Journal.filter_lines_log, hline]
    rfl
  | false =>
    have hignored : logging.emitted e j = offer e j := by
      rw [emitted, receive, henabled]
      rfl
    rw [hignored]
    exact (List.append_nil _).symm

/-- Of events that are emitted one after the other, a logging sink leaves those whose level is
logged. -/
theorem eventLines_emittedAll_logging (hes : ∀ e ∈ es, e.Writable) (j : Journal) :
    (logging.emittedAll es j).eventLines =
      j.eventLines ++ (es.filter fun e => j.enabled e.severity.logLevel).map Event.logged := by
  induction es generalizing j with
  | nil => exact (List.append_nil _).symm
  | cons e es ih =>
    obtain ⟨he, hes⟩ := List.forall_mem_cons.1 hes
    simp only [emittedAll_cons, ih hes, eventLines_emitted_logging he, enabled_emitted,
      List.append_assoc]
    cases henabled : j.enabled e.severity.logLevel <;> simp [henabled]

theorem outcome_ofType_memory (type : EventType) (j : Journal) :
    (memory.ofType type).outcome j = (.ok (j.kept.filter fun e => e.type = type), j) := rfl

theorem kept_forM_write_memory (es : List Event) (j : Journal) :
    ∃ j', (es.forM memory.write).outcome j = (.ok (), j') ∧ j'.kept = j.kept ++ es := by
  induction es generalizing j with
  | nil => exact ⟨j, rfl, (List.append_nil _).symm⟩
  | cons e es ih =>
    obtain ⟨j', houtcome, hkept⟩ := ih (offer e { j with kept := j.kept ++ [e] })
    refine ⟨j', ?_, by rw [hkept, offer, List.append_assoc, List.singleton_append]⟩
    have hwrite : (memory.write e).outcome j =
        (.ok (), offer e { j with kept := j.kept ++ [e] }) := outcome_write_of_ok rfl
    have hcons : (e :: es).forM memory.write =
        memory.write e >>= fun _ => es.forM memory.write := rfl
    rw [hcons, Run.outcome_bind, hwrite]
    exact houtcome

theorem ofType_perm (es : List Event) :
    (EventType.all.flatMap fun type => es.filter fun e => e.type = type).Perm es :=
  flatMap_filter_perm Event.type (by decide) fun e _ => EventType.mem_all e.type

end Sink

theorem Request.on_of_given {r : Request ρ} {settings : Settings}
    (hr : r.settings = .given settings) (hon : settings.emitEvents.truthy = true) :
    ∀ settings', r.settings.settled = .ok settings' → settings'.emitEvents.truthy = true := by
  intro settings' h
  rw [hr] at h
  cases h
  exact hon

theorem Request.report_of_on {r : Request ρ} (hsink : r.sink = none)
    (hon : ∀ settings, r.settings.settled = .ok settings → settings.emitEvents.truthy = true)
    (j : Journal) : ((build r).outcome j).2.report = Sink.logging.emittedAll r.events j.report := by
  rw [(build_settles (.inl (tells_of_default hsink))).2]
  cases hs : r.settings.settled with
  | error f =>
    rw [(ends_without_settings hs).2]
    rfl
  | ok settings =>
    have hused : r.usedSink = .logging := by
      simp only [usedSink, hs, Settings.sink, hsink, Option.getD_none, hon settings hs, if_true]
    rw [hused]

/-- Where the settings turn events on and the call chooses no sink, a build logs what a sink in
memory receives of the same build, whether this returns or fails: in order and at the levels of
their severities, as JSON text and but for the time, the events whose level reaches the threshold.
Whatever a sink in memory has received, it tells the events of each type in order, and by the five
types each event once. -/
theorem build_logs_received_events :
    (∀ {ρ : Type} {r : Request ρ} (time : String) (j j' : Journal), r.sink = none →
      (∀ settings, r.settings.settled = .ok settings → settings.emitEvents.truthy = true) →
      ∃ lines received,
        ((build r).outcome j).2.eventLines = j.eventLines ++ lines ∧
        ((build { r with sink := some .memory, time := time }).outcome j').2.kept =
          j'.kept ++ received ∧
        List.Forall₂ LogLine.Tells lines
          (received.filter fun e => j.threshold.rank ≤ e.severity.logLevel.rank) ∧
        ((build { r with sink := some .memory, time := time }).outcome j').1 =
          ((build r).outcome j).1) ∧
    ∀ (es : List Event) (j : Journal), j.kept = [] →
      (∀ type, ((do es.forM Sink.memory.write; Sink.memory.ofType type).outcome j).1 =
        .ok (es.filter fun e => e.type = type)) ∧
      (EventType.all.flatMap fun type => es.filter fun e => e.type = type).Perm es := by
  constructor
  · intro ρ r time j j' hsink hon
    refine ⟨(r.events.filter fun e => j.enabled e.severity.logLevel).map Event.logged,
      r.events.map (Event.stamped time), ?_, ?_, ?_, ?_⟩
    · rw [← Journal.eventLines_report, Request.report_of_on hsink hon,
        Sink.eventLines_emittedAll_logging r.events_writable, Journal.eventLines_report]
      rfl
    · rw [build_keeps_events (r := { r with sink := some .memory, time := time }) rfl]
      exact congrArg (j'.kept ++ ·) (r.events_stamped time)
    · rw [List.filter_map]
      refine List.forall₂_map_left_iff.2 (List.forall₂_map_right_iff.2 ?_)
      refine List.forall₂_same.2 fun e he => ?_
      exact (r.events_writable e (List.mem_filter.1 he).1).tells time
    · have hmemory : { r with sink := some .memory, time := time }.Tells :=
        Request.tells_of_sink rfl trivial
      rw [build_yields hmemory j', build_yields (Request.tells_of_default hsink) j]
      rfl
  · intro es j hj
    refine ⟨fun type => ?_, Sink.ofType_perm es⟩
    obtain ⟨j', houtcome, hkept⟩ := Sink.kept_forM_write_memory es j
    rw [Run.outcome_bind, houtcome]
    dsimp only
    rw [Sink.outcome_ofType_memory, hkept, hj, List.nil_append]

namespace Library

def receivedOfGuest : List Event :=
  ((build { visitedRequest "Guest" with sink := some .memory, time := "noon" }).outcome {}).2.kept

end Library

/-- Above debugging, only the completion of the library's context is logged. Where all levels are
logged, all four events of the build that meets the guest are, and a sink in memory tells the last
of them by its type. -/
theorem build_logs_received_events_library :
    (∃ line e, ((build Library.request).outcome { threshold := .info }).2.eventLines = [line] ∧
      line.Tells e ∧ e.type = .completed ∧ line.level = .info) ∧
    (List.Forall₂ LogLine.Tells
        ((build (Library.visitedRequest "Guest")).outcome { threshold := .debug }).2.eventLines
        Library.receivedOfGuest ∧
      Library.receivedOfGuest.map Event.severity = [.debug, .debug, .debug, .error]) ∧
    ∃ e, Library.receivedOfGuest.getLast? = some e ∧ ((do
        Library.receivedOfGuest.forM Sink.memory.write
        Sink.memory.ofType .classificationFailed).outcome {}).1 = .ok [e] := by
  refine ⟨?_, ⟨?_, rfl⟩, ?_⟩
  · obtain ⟨lines, received, hlines, hkept, htells, -⟩ := build_logs_received_events.1 "noon"
      { threshold := .info } {} (r := Library.request) rfl (Request.on_of_given rfl rfl)
    obtain ⟨e, hreached, htype, hseverity⟩ : ∃ e, (received.filter fun e =>
        LogLevel.info.rank ≤ e.severity.logLevel.rank) = [e] ∧ e.type = .completed ∧
          e.severity = .info := by
      rw [List.nil_append] at hkept
      rw [← hkept]
      exact ⟨_, rfl, rfl, rfl⟩
    rw [hreached] at htells
    obtain ⟨line, rest, hline, hrest, rfl⟩ := List.forall₂_cons_right_iff.1 htells
    obtain rfl := List.forall₂_nil_right_iff.1 hrest
    refine ⟨line, e, hlines, hline, htype, ?_⟩
    rw [hline.level, hseverity]
    rfl
  · obtain ⟨lines, received, hlines, hkept, htells, -⟩ := build_logs_received_events.1 "noon"
      { threshold := .debug } {} (r := Library.visitedRequest "Guest") rfl
      (Request.on_of_given rfl rfl)
    rw [List.nil_append] at hkept
    rw [← hkept] at htells
    rw [hlines]
    exact htells
  · obtain ⟨e, hlast, hfailed⟩ : ∃ e, Library.receivedOfGuest.getLast? = some e ∧
        Library.receivedOfGuest.filter (fun e => e.type = .classificationFailed) = [e] :=
      ⟨_, rfl, rfl⟩
    refine ⟨e, hlast, ?_⟩
    rw [(build_logs_received_events.2 Library.receivedOfGuest {} rfl).1, hfailed]

end SchemaContext
