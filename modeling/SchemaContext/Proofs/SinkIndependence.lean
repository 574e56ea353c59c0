import SchemaContext.Proofs.ForeignTypes
import SchemaContext.Proofs.SettingsLayers

/-!
# Builds and their sinks

What a build comes to, and which events it offers, does not depend on the sink that they
are offered to, nor on whether the settings turn events off. All that a sink can do is to
refuse an event: each refusal is logged, by one line, if errors are logged, and the later
events are offered to it as if it had taken this one. Only a refusal that has no text ends
the build.
-/

namespace SchemaContext

namespace Text

theorem jsonlessItems?_eq_none {items : List Value} (h : ∀ v ∈ items, jsonless? v = none) :
    jsonlessItems? items = none := by
  induction items with
  | nil => rfl
  | cons v items ih =>
    obtain ⟨hv, hitems⟩ := List.forall_mem_cons.1 h
    rw [jsonlessItems?, hv, ih hitems]
    rfl

theorem jsonlessEntries?_ofEntries_eq_none {entries : Entries Value}
    (h : ∀ e ∈ entries, jsonless? e.2 = none) :
    jsonlessEntries? (Mapping.ofEntries entries) = none := by
  induction entries with
  | nil => rfl
  | cons e entries ih =>
    obtain ⟨he, hentries⟩ := List.forall_mem_cons.1 h
    have hcons : Mapping.ofEntries (e :: entries) =
        (.str e.1, e.2) :: Mapping.ofEntries entries := rfl
    rw [hcons, jsonlessEntries?, he, ih hentries]
    rfl

end Text

namespace Event

def Writable (e : Event) : Prop := e.json = .ok e.line

theorem writable_of_parts {e : Event} (hmessage : Text.jsonless? e.message = none)
    (hname : Text.jsonless? e.typeName = none) (hcontext : Text.jsonless? e.context = none) :
    e.Writable := by
  have hall : Text.jsonless? (.ofEntries e.toEntries) = none := by
    refine Text.jsonlessEntries?_ofEntries_eq_none fun p hp => ?_
    simp only [toEntries, details, List.cons_append, List.nil_append, List.mem_cons,
      List.not_mem_nil, or_false] at hp
    rcases hp with rfl | rfl | rfl | rfl | rfl | rfl
    · rfl
    · exact hmessage
    · rfl
    · exact hname
    · exact hcontext
    · rfl
  rw [Writable, json, hall]

theorem introspectionCollected_writable (time : String) (names : List String) :
    (introspectionCollected time names).Writable := by
  refine writable_of_parts rfl rfl (Text.jsonlessEntries?_ofEntries_eq_none ?_)
  intro p hp
  obtain rfl := List.mem_singleton.1 hp
  exact Text.jsonlessItems?_eq_none (by simp [Text.jsonless?])

theorem classificationFailed_writable (time : String) (f : Failure) :
    (classificationFailed time f).Writable := by
  refine writable_of_parts rfl ?_ rfl
  cases h : f.typeName? <;> simp [classificationFailed, h, Value.ofText, Text.jsonless?]

theorem completed_writable (time : String) (c : Context ρ) : (completed time c).Writable := by
  refine writable_of_parts rfl rfl (Text.jsonlessEntries?_ofEntries_eq_none ?_)
  intro p hp
  rcases List.mem_append.1 hp with hp | hp
  · obtain ⟨l, -, rfl⟩ := List.mem_map.1 hp
    rfl
  · obtain rfl := List.mem_singleton.1 hp
    rfl

theorem ending_writable (time : String) (x : Except Failure (Context ρ)) :
    ∀ e ∈ ending time x, e.Writable := by
  cases x with
  | ok c => exact List.forall_mem_singleton.2 (completed_writable time c)
  | error f =>
    rw [ending]
    split
    · exact List.forall_mem_singleton.2 (classificationFailed_writable time f)
    · exact List.forall_mem_nil _

end Event

/-- Whatever a build has to tell can be written as JSON text. -/
theorem Request.events_writable (r : Request ρ) : ∀ e ∈ r.events, e.Writable := by
  have hlate (settings : Settings) (s : Schema) : ∀ e ∈ r.lateEvents settings s, e.Writable := by
    rw [lateEvents]
    cases settings.forced with
    | error f => exact List.forall_mem_nil _
    | ok forced =>
      exact List.forall_mem_cons.2 ⟨Event.writable_of_parts rfl rfl rfl, Event.ending_writable _ _⟩
  unfold events
  split
  · refine List.forall_mem_cons.2 ⟨Event.writable_of_parts rfl rfl rfl, ?_⟩
    split
    · exact List.forall_mem_cons.2 ⟨Event.introspectionCollected_writable _ _, hlate _ _⟩
    · exact List.forall_mem_nil _
  · exact List.forall_mem_nil _

def LogLine.isRefusal (l : LogLine) : Bool := l.logger == .sinks

def Journal.refusals (j : Journal) : List LogLine := j.lines.filter LogLine.isRefusal

theorem Journal.refusals_report (j : Journal) : j.report.refusals = j.refusals :=
  filter_lines_report
    (fun l hl => by rw [LogLine.isReport, ← LogLine.isRefusal, hl, Bool.or_true]) j

theorem Journal.refusals_log (j : Journal) {line : LogLine} (h : line.isRefusal = false) :
    (j.log line).refusals = j.refusals := by
  rw [refusals, filter_lines_log, h, refusals]
  simp

theorem Journal.refusals_log_of_isRefusal (j : Journal) {line : LogLine}
    (h : line.isRefusal = true) :
    (j.log line).refusals = j.refusals ++ if j.enabled line.level then [line] else [] := by
  rw [refusals, filter_lines_log, h, Bool.and_true, refusals]

namespace Sink

variable {k : Sink} {e : Event}

/-- The exception by which a sink refuses an event that can be written, by how many events were
offered before it. -/
def refusal? (k : Sink) (n : Nat) (e : Event) : Option Refusal :=
  match k with
  | faulty _ refuses => refuses n e
  | _ => none

theorem receive_cases (he : e.Writable) (j : Journal) :
    (∃ refusal, k.refusal? j.offered.length e = some refusal ∧ k.receive e j = .error refusal) ∨
    (k.refusal? j.offered.length e = none ∧
      ∃ j', k.receive e j = .ok j' ∧ j'.refusals = j.refusals) := by
  cases k with
  | memory => exact .inr ⟨rfl, _, rfl, rfl⟩
  | silent => exact .inr ⟨rfl, _, rfl, rfl⟩
  | logging =>
    refine .inr ⟨rfl, ?_⟩
    rw [receive, he]
    split
    · exact ⟨_, rfl, j.refusals_log rfl⟩
    · exact ⟨_, rfl, rfl⟩
  | faulty name refuses =>
    rw [receive, refusal?]
    cases refuses j.offered.length e with
    | some refusal => exact .inl ⟨_, rfl, rfl⟩
    | none => exact .inr ⟨rfl, _, rfl, rfl⟩

theorem outcome_get (j : Journal) : (get : Run Journal).outcome j = (.ok j, j) := rfl

theorem outcome_write_of_ok {j j' : Journal} (h : k.receive e j = .ok j') :
    (k.write e).outcome j = (.ok (), offer e j') := by
  rw [write, Run.outcome_bind, outcome_get]
  dsimp only
  rw [h]
  rfl

theorem outcome_write_of_error {j : Journal} {refusal : Refusal}
    (h : k.receive e j = .error refusal) :
    (k.write e).outcome j = (.error refusal.raised, offer e j) := by
  rw [write, Run.outcome_bind, outcome_get]
  dsimp only
  rw [h]
  rfl

/-- The line about a refusal, with the text of this. -/
def Reports (k : Sink) (refusal : Refusal) (line : LogLine) : Prop :=
  ∃ text, refusal.text = .ok text ∧ line = k.refusalLine text

/-- Emitting an event adds one line where writing it fails, and none where it does not. -/
theorem refusals_emitted (htells : k.Tells) (he : e.Writable) (j : Journal) :
    ∃ lines, List.Forall₂ k.Reports (k.refusal? j.offered.length e).toList lines ∧
      (k.emitted e j).refusals = j.refusals ++ if j.enabled .error then lines else [] := by
  rcases receive_cases he j with ⟨refusal, hrefusal, hreceive⟩ | ⟨hrefusal, j', hreceive, hsame⟩
  · obtain ⟨text, htext⟩ := htells.exists_text hreceive
    refine ⟨[k.refusalLine text], ?_, ?_⟩
    · rw [hrefusal]
      exact .cons ⟨text, htext, rfl⟩ .nil
    · rw [emitted, hreceive]
      dsimp only
      rw [htext]
      exact (offer e j).refusals_log_of_isRefusal rfl
  · refine ⟨[], ?_, ?_⟩
    · rw [hrefusal]
      exact .nil
    · rw [emitted, hreceive]
      exact hsame.trans (by simp)

/-- The exceptions by which a sink refuses events, a number of them being offered before. -/
def refused (k : Sink) (n : Nat) (es : List Event) : List Refusal :=
  (es.zipIdx n).filterMap fun p => k.refusal? p.2 p.1

theorem refusals_emittedAll (htells : k.Tells) {es : List Event} (hes : ∀ e ∈ es, e.Writable)
    (j : Journal) :
    ∃ lines, List.Forall₂ k.Reports (k.refused j.offered.length es) lines ∧
      (k.emittedAll es j).refusals = j.refusals ++ if j.enabled .error then lines else [] := by
  induction es generalizing j with
  | nil => exact ⟨[], .nil, by simp [emittedAll]⟩
  | cons e es ih =>
    obtain ⟨he, hes⟩ := List.forall_mem_cons.1 hes
    obtain ⟨first, hfirst, hemitted⟩ := refusals_emitted htells he j
    obtain ⟨rest, hrest, hall⟩ := ih hes (k.emitted e j)
    have hrefused : k.refused j.offered.length (e :: es) =
        (k.refusal? j.offered.length e).toList ++ k.refused (j.offered.length + 1) es := by
      rw [refused, List.zipIdx_cons, List.filterMap_cons, refused]
      cases k.refusal? j.offered.length e <;> rfl
    refine ⟨first ++ rest, ?_, ?_⟩
    · rw [hrefused]
      rw [offered_emitted, List.length_append, List.length_singleton] at hrest
      exact List.rel_append hfirst hrest
    · rw [emittedAll_cons, hall, hemitted, enabled_emitted]
      cases j.enabled .error <;> simp

end Sink

theorem Request.refused_usedSink {r : Request ρ} (h : r.sink = none) (n : Nat) (es : List Event) :
    r.usedSink.refused n es = [] := by
  have hnone : ∀ m e, r.usedSink.refusal? m e = none := by
    intro m e
    unfold usedSink
    split
    · rw [Settings.sink, h, Option.getD_none]
      split <;> rfl
    · rw [h]
      rfl
  simp [Sink.refused, hnone]

/-- A build adds one line for each event that its sink refuses, if errors are logged. -/
theorem build_refusals {r : Request ρ} (htells : r.Tells) (j : Journal) :
    ∃ lines, List.Forall₂ r.usedSink.Reports (r.usedSink.refused j.offered.length r.events) lines ∧
      ((build r).outcome j).2.refusals = j.refusals ++ if j.enabled .error then lines else [] := by
  obtain ⟨lines, hlines, hrefusals⟩ :=
    Sink.refusals_emittedAll htells.usedSink r.events_writable j.report
  refine ⟨lines, hlines, ?_⟩
  rw [← Journal.refusals_report, (build_settles (.inl htells)).2, hrefusals,
    Journal.refusals_report]
  rfl

section Settings

variable {r : Request ρ} {settings' : SettingsSource} {sink' : Option Sink}

theorem Request.result_of_agrees (h : r.settings.AgreesButForEvents settings') :
    { r with settings := settings', sink := sink' }.result = r.result := by
  refine bind_eq_of_map_eq h.settled fun settings other hsame => ?_
  rw [Settings.watched_eq, Settings.watched_eq] at hsame
  simp only [lateResult, Settings.forced, Settings.forcedTypes_of_defaultAt (by decide) hsame,
    Settings.recordedDirectives_of_defaultAt (by decide) hsame]

theorem Request.events_of_agrees (h : r.settings.AgreesButForEvents settings') :
    { r with settings := settings', sink := sink' }.events = r.events := by
  have hsettled := h.settled
  unfold events
  cases hs : r.settings.settled with
  | error f =>
    cases hs' : settings'.settled with
    | error f' => rfl
    | ok other =>
      rw [hs, hs'] at hsettled
      cases hsettled
  | ok settings =>
    cases hs' : settings'.settled with
    | error f' =>
      rw [hs, hs'] at hsettled
      cases hsettled
    | ok other =>
      rw [hs, hs'] at hsettled
      have hsame : other.watched = settings.watched := Except.ok.inj hsettled
      rw [Settings.watched_eq, Settings.watched_eq] at hsame
      have hlate (s : Schema) : { r with settings := settings', sink := sink' }.lateEvents other s =
          r.lateEvents settings s := by
        simp only [lateEvents, Settings.forced, Settings.forcedTypes_of_defaultAt (by decide) hsame,
          Settings.recordedDirectives_of_defaultAt (by decide) hsame]
      cases r.documents.listed with
      | error f => rfl
      | ok given =>
        cases r.source.unwrap with
        | error f => rfl
        | ok s => simp only [hlate]

end Settings

/-- Two builds that differ in their sinks, and in whether their settings turn events on, come to the
same context or fail with the same failure, and offer the same events, if there is a text for every
refusal. A sink that the call chooses causes one line for each event that it refuses, in order and
with the text of the refusal, if errors are logged at all; without such a sink there is no such
line. -/
theorem build_ignores_sink {r : Request ρ} {settings' : SettingsSource} {sink' : Option Sink}
    (j j' : Journal) (htells : r.Tells) (htells' : ∀ k, sink' = some k → k.Tells)
    (h : r.settings.AgreesButForEvents settings') :
    ((build { r with settings := settings', sink := sink' }).outcome j').1 =
        ((build r).outcome j).1 ∧
      ∃ events, ((build r).outcome j).2.offered = j.offered ++ events ∧
        ((build { r with settings := settings', sink := sink' }).outcome j').2.offered =
          j'.offered ++ events ∧
        (∀ k, sink' = some k →
          ∃ lines, List.Forall₂ k.Reports (k.refused j'.offered.length events) lines ∧
            ((build { r with settings := settings', sink := sink' }).outcome j').2.refusals =
              j'.refusals ++ if j'.enabled .error then lines else []) ∧
        (sink' = none →
          ((build { r with settings := settings', sink := sink' }).outcome j').2.refusals =
            j'.refusals) := by
  have hevents : { r with settings := settings', sink := sink' }.events = r.events :=
    Request.events_of_agrees h
  have hother : { r with settings := settings', sink := sink' }.Tells := htells'
  have hoffers := build_offers (j := j') (.inl hother)
  rw [hevents] at hoffers
  refine ⟨?_, r.events, build_offers (.inl htells), hoffers, ?_, ?_⟩
  · rw [build_yields hother j', build_yields htells j]
    exact Request.result_of_agrees h
  · rintro k rfl
    have hrefusals := build_refusals hother j'
    rwa [Request.usedSink_of_chosen rfl, hevents] at hrefusals
  · rintro rfl
    obtain ⟨lines, hlines, hrefusals⟩ := build_refusals hother j'
    rw [Request.refused_usedSink rfl] at hlines
    cases hlines
    rw [hrefusals]
    simp

namespace Library

def full : Refusal := .failure (.sink "full")

def brokenSink : Sink := .faulty "BrokenSink" fun _ _ => some full

def brokenRequest : Request Record :=
  { visitedRequest "Guest" with
    settings := .given { forcedTypes := .tuple [.str "String"], emitEvents := .bool false }
    sink := some brokenSink }

def overriddenRequest (overrides : Value) : Request Record :=
  { request with settings := .layers none overrides }

def noEvents : Value := .ofEntries [(Settings.emitKey, .bool false)]

theorem brokenSink_tells : brokenSink.Tells := by
  rintro n e refusal hrefuses
  cases hrefuses
  exact ⟨"full", rfl⟩

theorem refused_brokenSink (n : Nat) (es : List Event) :
    brokenSink.refused n es = List.replicate es.length full := by
  have hrefusal (m : Nat) (e : Event) : brokenSink.refusal? m e = some full := rfl
  simp [Sink.refused, hrefusal, List.map_const']

theorem overriddenRequest_settled :
    (overriddenRequest .null).settings.settled = .ok { forcedTypes := .tuple [] } :=
  (SettingsSource.settled_layers none .null).trans Settings.loaded_defaults

theorem exists_build_overriddenRequest :
    ∃ c, ((build (overriddenRequest .null)).outcome {}).1 = .ok c := by
  rw [build_yields (r := overriddenRequest .null) (Request.tells_of_default rfl) {},
    Request.result, overriddenRequest_settled]
  exact ⟨_, rfl⟩

end Library

/-- The broken sink refuses all four events, also the one about the guest, and the build fails
because of the guest as with any other sink. Overrides that turn events off give the same
context. -/
theorem build_ignores_broken_sink :
    (((build Library.brokenRequest).outcome { threshold := .error }).1 =
        .error (.unclassifiable (some "Guest") "<visitor>") ∧
      ((build Library.brokenRequest).outcome { threshold := .error }).2.refusals =
        List.replicate 4 (Library.brokenSink.refusalLine "full")) ∧
    (∃ c, ((build (Library.overriddenRequest .null)).outcome {}).1 = .ok c ∧
      ((build (Library.overriddenRequest Library.noEvents)).outcome {}).1 = .ok c) := by
  constructor
  · obtain ⟨hresult, events, hoffered, -, hrefusals, -⟩ :=
      @build_ignores_sink _ (Library.visitedRequest "Guest") Library.brokenRequest.settings
        (some Library.brokenSink) {} { threshold := .error } (Request.tells_of_default rfl)
        (by rintro k ⟨⟩; exact Library.brokenSink_tells) (.given rfl rfl)
    have hcount : events.length = 4 := by
      rw [← List.nil_append events]
      exact (congrArg List.length hoffered).symm
    obtain ⟨lines, hlines, hlogged⟩ := hrefusals _ rfl
    rw [Library.refused_brokenSink, hcount] at hlines
    refine ⟨hresult.trans rfl, hlogged.trans ?_⟩
    refine List.eq_replicate_iff.2 ⟨hlines.length_eq.symm, fun line hline => ?_⟩
    obtain ⟨refusal, hrefusal, text, htext, rfl⟩ := exists_mem_of_forall₂ hlines hline
    obtain rfl := List.eq_of_mem_replicate hrefusal
    cases htext
    rfl
  · obtain ⟨c, hc⟩ := Library.exists_build_overriddenRequest
    refine ⟨c, hc, ?_⟩
    rw [← hc]
    exact (@build_ignores_sink _ (Library.overriddenRequest .null)
      (Library.overriddenRequest Library.noEvents).settings none {} {}
      (Request.tells_of_default rfl) nofun (.layers rfl rfl)).1

namespace Library

/-- A sink that refuses every event by an exception without a text. -/
def muteSink : Sink := .faulty "MuteSink" fun _ _ => some (.mute (.sink "no text"))

end Library

/-- A sink without a text for its refusals ends the build that would return. Where errors are not
logged, a broken sink refuses four events without a line. -/
theorem build_heeds_mute_sink :
    ((∃ c, ((build Library.request).outcome {}).1 = .ok c) ∧
      ((build { Library.request with sink := some Library.muteSink }).outcome {}).1 =
        .error (.sink "no text")) ∧
    ((build { Library.request with sink := some Library.brokenSink }).outcome
        { threshold := .critical }).2.offered.length = 4 ∧
      ((build { Library.request with sink := some Library.brokenSink }).outcome
        { threshold := .critical }).2.refusals = [] :=
  ⟨⟨⟨_, rfl⟩, rfl⟩, rfl, rfl⟩

end SchemaContext
