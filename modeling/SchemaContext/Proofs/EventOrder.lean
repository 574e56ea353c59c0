import SchemaContext.Proofs.ForeignTypes

/-!
# The order of events

A build tells of its stages in order, each once, and then of its end: that it was
completed, or that a type was of none of the kinds. A build that fails in another way
tells of the stages that it has reached, and of nothing else. Only the assembly can fail
because a type is of none of the kinds, so that this end is always told after all stages.
-/

namespace SchemaContext

/-- The events of the stages of a build, in order. -/
def EventType.stages : List EventType := [.started, .introspectionCollected, .filtered]

theorem EventType.ne_of_prefix_stages {types : List EventType} (h : types <+: stages)
    (t : EventType) : types ≠ stages ++ [t] := by
  rintro rfl
  have hlength := h.length_le
  rw [List.length_append, List.length_singleton] at hlength
  omega

theorem Request.late_events_cases (r : Request ρ) (settings : Settings) (s : Schema) (count : Nat) :
    let events := .started r.time s.typeMap.size count ::
      .introspectionCollected r.time
        ((introspectionEnums s r.documents.parsed).map NamedType.name) :: r.lateEvents settings s
    (∃ f, r.lateResult settings s = .error f ∧ f.isUnclassifiable = false ∧
      events.map Event.type <+: EventType.stages) ∨
    ∃ told, told.map Event.type = EventType.stages ∧
      events = told ++ Event.ending r.time (r.lateResult settings s) := by
  intro events
  cases hforced : settings.forced with
  | error f =>
    refine .inl ⟨f, ?_, settings.forced_classifies f hforced, ?_⟩
    · rw [lateResult, hforced]
      rfl
    · simp [events, lateEvents, hforced, EventType.stages, Event.started,
        Event.introspectionCollected]
  | ok forced =>
    have hresult : r.lateResult settings s = assembled r.transformers s
        (s.survivors r.documents.parsed forced) (settings.recordedDirectives s) := by
      rw [lateResult, hforced]
      rfl
    refine .inr ⟨[.started r.time s.typeMap.size count,
      .introspectionCollected r.time
        ((introspectionEnums s r.documents.parsed).map NamedType.name),
      .filtered r.time s.typeMap.size (s.survivors r.documents.parsed forced).length], rfl, ?_⟩
    simp [events, lateEvents, hforced, hresult]

/-- A build ends before its assembly, having told of some of the stages and failed for another
reason than a type of none of the kinds; or it tells of all stages and of how its assembly ends. -/
theorem Request.events_cases (r : Request ρ) :
    (∃ f, r.result = .error f ∧ f.isUnclassifiable = false ∧
      r.events.map Event.type <+: EventType.stages) ∨
    ∃ told, told.map Event.type = EventType.stages ∧
      r.events = told ++ Event.ending r.time r.result := by
  cases hs : r.settings.settled with
  | error f =>
    obtain ⟨hresult, hevents⟩ := ends_without_settings hs
    exact .inl ⟨f, hresult, r.settings.settled_classifies f hs, by simp [hevents]⟩
  | ok settings =>
    cases hd : r.documents.listed with
    | error f =>
      obtain ⟨hresult, hevents⟩ := ends_without_documents hs hd
      exact .inl ⟨f, hresult, r.documents.listed_classifies f hd, by simp [hevents]⟩
    | ok given =>
      cases hu : r.source.unwrap with
      | error f =>
        obtain ⟨hresult, hevents⟩ := ends_without_schema hs hd hu
        exact .inl ⟨f, hresult, r.source.unwrap_classifies f hu, by simp [hevents]⟩
      | ok s =>
        cases hw : given.mapM (GivenDocument.walked s) with
        | error f =>
          obtain ⟨hresult, hevents⟩ := ends_without_walk hs hd hu hw
          have hclassified := Classifies.mapM (GivenDocument.walked_classifies s) given f hw
          refine .inl ⟨f, hresult, hclassified, ?_⟩
          simp [hevents, EventType.stages, Event.started]
        | ok documents =>
          obtain rfl := walked_eq_parsed hd hw
          rw [result_eq_lateResult hs hd hu hw, events_eq_cons hs hd hu hw]
          exact r.late_events_cases settings s given.length

section Ends

variable {ρ : Type} {r : Request ρ} {c : Context ρ} {f : Failure}

theorem Request.events_of_ok (h : r.result = .ok c) :
    ∃ told, told.map Event.type = EventType.stages ∧
      r.events = told ++ [.completed r.time c] := by
  rcases r.events_cases with ⟨f, hf, -⟩ | ⟨told, htold, hevents⟩
  · rw [h] at hf
    cases hf
  · rw [h] at hevents
    exact ⟨told, htold, hevents⟩

theorem Request.events_of_unclassifiable (h : r.result = .error f)
    (hf : f.isUnclassifiable = true) :
    ∃ told, told.map Event.type = EventType.stages ∧
      r.events = told ++ [.classificationFailed r.time f] := by
  rcases r.events_cases with ⟨f', hf', hother, -⟩ | ⟨told, htold, hevents⟩
  · obtain rfl := Except.error.inj (h.symm.trans hf')
    rw [hf] at hother
    cases hother
  · rw [h, Event.ending, if_pos hf] at hevents
    exact ⟨told, htold, hevents⟩

theorem Request.events_of_error (h : r.result = .error f) (hf : f.isUnclassifiable = false) :
    r.events.map Event.type <+: EventType.stages := by
  rcases r.events_cases with ⟨f', -, -, hprefix⟩ | ⟨told, htold, hevents⟩
  · exact hprefix
  · rw [h, Event.ending, if_neg (by simp [hf]), List.append_nil] at hevents
    have htypes : r.events.map Event.type = EventType.stages := by rw [hevents, htold]
    exact htypes ▸ List.prefix_rfl

/-- The types of the events, by what the build comes to. -/
theorem Request.event_types_cases (r : Request ρ) :
    (∃ c, r.result = .ok c ∧ r.events.map Event.type = EventType.stages ++ [.completed]) ∨
    (∃ f, r.result = .error f ∧ f.isUnclassifiable = true ∧
      r.events.map Event.type = EventType.stages ++ [.classificationFailed]) ∨
    ∃ f, r.result = .error f ∧ f.isUnclassifiable = false ∧
      r.events.map Event.type <+: EventType.stages := by
  cases h : r.result with
  | ok c =>
    obtain ⟨told, htold, hevents⟩ := events_of_ok h
    refine .inl ⟨c, rfl, ?_⟩
    rw [hevents, List.map_append, htold]
    rfl
  | error f =>
    cases hf : f.isUnclassifiable with
    | true =>
      obtain ⟨told, htold, hevents⟩ := events_of_unclassifiable h hf
      refine .inr (.inl ⟨f, rfl, hf, ?_⟩)
      rw [hevents, List.map_append, htold]
      rfl
    | false => exact .inr (.inr ⟨f, rfl, hf, events_of_error h hf⟩)

theorem Request.event_types_nodup (r : Request ρ) : (r.events.map Event.type).Nodup := by
  rcases r.event_types_cases with ⟨c, -, h⟩ | ⟨f, -, -, h⟩ | ⟨f, -, -, h⟩
  · rw [h]
    decide
  · rw [h]
    decide
  · exact h.sublist.nodup (by decide)

theorem Request.after_end {before after : List Event} {e : Event}
    (h : r.events = before ++ e :: after)
    (he : e.type = .completed ∨ e.type = .classificationFailed) : after = [] := by
  have hend : e.type ∉ EventType.stages := by
    rcases he with he | he <;> rw [he] <;> decide
  have hlast {told : List Event} {x : Event} (htold : told.map Event.type = EventType.stages)
      (hevents : r.events = told ++ [x]) : after = [] := by
    rcases List.eq_nil_or_concat after with hafter | ⟨rest, y, rfl⟩
    · exact hafter
    · rw [hevents, List.concat_eq_append, ← List.cons_append, ← List.append_assoc] at h
      have htell : told = before ++ e :: rest := (List.append_inj' h rfl).1
      refine absurd ?_ hend
      rw [← htold, htell]
      simp
  cases hresult : r.result with
  | ok c =>
    obtain ⟨told, htold, hevents⟩ := events_of_ok hresult
    exact hlast htold hevents
  | error f =>
    cases hf : f.isUnclassifiable with
    | true =>
      obtain ⟨told, htold, hevents⟩ := events_of_unclassifiable hresult hf
      exact hlast htold hevents
    | false =>
      refine absurd ((events_of_error hresult hf).subset ?_) hend
      rw [h]
      simp

end Ends

namespace Library

def recorded (r : Request ρ) : Request ρ := { r with sink := some .memory }

theorem recorded_tells (r : Request ρ) : (recorded r).Tells := Request.tells_of_sink rfl trivial

def numberRequest : Request Record :=
  recorded { request with documents := .items [.other "42"] }

end Library

end SchemaContext
