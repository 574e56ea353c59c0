import SchemaContext.Proofs.Yields

/-!
# What runs leave as it was

A run writes to its journal, but each of its parts writes to little of it. What is seen
of a journal through a view is kept by a run if every single write of the run keeps it.
Resolving settings writes nothing but lines of its own logger, and a sink adds lines and kept events
to the events that are offered to it.
-/

namespace SchemaContext

namespace Run

/-- The run leaves what is seen of a journal as it was. -/
def Keeps (view : Journal → β) (x : Run α) : Prop := ∀ j, view (x.outcome j).2 = view j

variable {view : Journal → γ} {x : Run α} {f : α → Run β}

theorem keeps_pure (a : α) : (pure a : Run α).Keeps view := fun _ => rfl

theorem keeps_modify {g : Journal → Journal} (h : ∀ j, view (g j) = view j) :
    (modify g : Run Unit).Keeps view := h

theorem keeps_ofExcept (a : Except Failure α) : (ofExcept a).Keeps view := by
  intro j
  rw [outcome_ofExcept]

theorem Keeps.bind (hx : x.Keeps view) (hf : ∀ a, (f a).Keeps view) : (x >>= f).Keeps view := by
  intro j
  have hxj := hx j
  rw [outcome_bind]
  rcases h : x.outcome j with ⟨e | a, j₁⟩
  · rw [h] at hxj
    exact hxj
  · rw [h] at hxj
    exact (hf a j₁).trans hxj

theorem Keeps.mapM (hf : ∀ a, (f a).Keeps view) (as : List α) : (as.mapM f).Keeps view := by
  induction as with
  | nil => exact keeps_pure []
  | cons a as ih =>
    rw [List.mapM_cons]
    exact (hf a).bind fun _ => ih.bind fun _ => keeps_pure _

end Run

section Settings

variable {view : Journal → γ}
  (hlog : ∀ j level text, view (Journal.log j ⟨.settings, level, .text text⟩) = view j)
include hlog

theorem Settings.projectLayer_keeps (project : Option Value) :
    (projectLayer project).Keeps view := by
  unfold projectLayer
  split
  · exact Run.keeps_pure _
  · split
    · exact (Run.keeps_modify fun j => hlog j _ _).bind fun _ => Run.keeps_pure _
    · exact Run.keeps_pure _

theorem Settings.warnUnknown_keeps (unknown : List Value) : (warnUnknown unknown).Keeps view := by
  unfold warnUnknown
  split
  · exact Run.keeps_pure _
  · exact (Run.keeps_ofExcept _).bind fun _ => Run.keeps_modify fun j => hlog j _ _

theorem SettingsSource.resolve_keeps (source : SettingsSource) : source.resolve.Keeps view := by
  cases source with
  | given s => exact Run.keeps_pure s
  | layers project overrides =>
    refine (Settings.projectLayer_keeps hlog project).bind fun layer => ?_
    refine (Run.keeps_ofExcept _).bind fun merged => ?_
    refine (Run.keeps_ofExcept _).bind fun given => ?_
    refine (Run.keeps_ofExcept _).bind fun given => ?_
    exact (Settings.warnUnknown_keeps hlog _).bind fun _ => Run.keeps_ofExcept _

end Settings

section Sinks

variable {view : Journal → γ}
  (hlog : ∀ j line, view (Journal.log j line) = view j)
  (hkept : ∀ (j : Journal) es, view { j with kept := es } = view j)
include hlog hkept

/-- Whatever a sink makes of an event, but for lines and kept events the event is only offered. -/
theorem Sink.view_emitted (k : Sink) (e : Event) (j : Journal) :
    view (k.emitted e j) = view (offer e j) := by
  have hoffer (line : LogLine) : offer e (j.log line) = (offer e j).log line := by
    have henabled : (offer e j).enabled line.level = j.enabled line.level := rfl
    unfold Journal.log
    rw [henabled]
    split <;> rfl
  cases k with
  | memory => exact hkept (offer e j) _
  | silent => rfl
  | logging =>
    by_cases henabled : j.enabled e.severity.logLevel = true
    · cases hjson : e.json with
      | ok text =>
        have htaken : logging.emitted e j =
            offer e (j.log ⟨.events, e.severity.logLevel, .event e⟩) := by
          simp [emitted, receive, henabled, hjson]
        rw [htaken, hoffer]
        exact hlog _ _
      | error f =>
        have hrefused : logging.emitted e j =
            (offer e j).log (logging.refusalLine f.message) := by
          simp [emitted, receive, henabled, hjson, Refusal.text]
        rw [hrefused]
        exact hlog _ _
    · have hignored : logging.emitted e j = offer e j := by simp [emitted, receive, henabled]
      rw [hignored]
  | faulty name refuses =>
    rw [emitted, receive]
    cases refuses j.offered.length e with
    | none => exact hkept (offer e j) _
    | some refusal =>
      cases refusal with
      | failure f => exact hlog _ _
      | mute attempt => rfl

end Sinks
end SchemaContext
