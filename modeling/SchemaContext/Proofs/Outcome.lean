import SchemaContext.Proofs.EventTrace

/-!
# Outcomes of builds

What a build comes to is the result of its request, in which neither journal nor sink
occurs: builds whose requests have the same result return the same context or fail with
the same failure. Only a sink whose refusal has no text can make a build fail that would
return; a build that returns has come to its result, and has emitted all events.
-/

namespace SchemaContext

/-- Every refusal of the sink that the request chooses, if it chooses one, has a text. -/
def Request.Tells (r : Request ρ) : Prop := ∀ k, r.sink = some k → k.Tells

theorem Request.tells_of_sink {r : Request ρ} {k : Sink} (hsink : r.sink = some k) (hk : k.Tells) :
    r.Tells := by
  intro k' hk'
  rw [hsink] at hk'
  cases hk'
  exact hk

theorem Request.tells_of_default {r : Request ρ} (hsink : r.sink = none) : r.Tells := by
  intro k hk
  rw [hsink] at hk
  cases hk

theorem Request.Tells.settings_sink {r : Request ρ} (h : r.Tells) (settings : Settings) :
    (settings.sink r.sink).Tells := by
  unfold Settings.sink
  cases hsink : r.sink with
  | none =>
    rw [Option.getD_none]
    split <;> trivial
  | some k => exact h k hsink

theorem Request.Tells.usedSink {r : Request ρ} (h : r.Tells) : r.usedSink.Tells := by
  unfold Request.usedSink
  split
  · exact h.settings_sink _
  · cases hsink : r.sink with
    | none => trivial
    | some k => exact h k hsink

section Builds

variable {ρ : Type} {r : Request ρ} {j : Journal} {c : Context ρ}

/-- A build comes to its result and reports its events, if its sink can tell of refusals or if it
returns at all. -/
theorem build_settles (h : r.Tells ∨ ∃ c, ((build r).outcome j).1 = .ok c) :
    ((build r).outcome j).1 = r.result ∧
      ((build r).outcome j).2.report = r.usedSink.emittedAll r.events j.report := by
  rcases build_traces r j with hsettled | ⟨hmute, f, hf⟩
  · exact hsettled
  · rcases h with htells | ⟨c, hc⟩
    · exact absurd htells.usedSink hmute
    · rw [hf] at hc
      cases hc

/-- Reporting and logging play no part in what a build comes to. -/
theorem build_yields (h : r.Tells) : (build r).Yields r.result :=
  fun _ => (build_settles (.inl h)).1

theorem result_of_returns (h : ((build r).outcome j).1 = .ok c) : r.result = .ok c := by
  rw [← (build_settles (.inr ⟨c, h⟩)).1, h]

/-- A build offers every event to its sink, whichever it is and whether it takes it or not. -/
theorem build_offers (h : r.Tells ∨ ∃ c, ((build r).outcome j).1 = .ok c) :
    ((build r).outcome j).2.offered = j.offered ++ r.events := by
  have hreport := congrArg Journal.offered (build_settles h).2
  rw [Sink.offered_emittedAll] at hreport
  exact hreport

theorem build_keeps_events (h : r.sink = some .memory) (j : Journal) :
    ((build r).outcome j).2.kept = j.kept ++ r.events := by
  have hsettled := build_settles (j := j) (.inl (Request.tells_of_sink h trivial))
  have hreport := congrArg Journal.kept hsettled.2
  rw [Request.usedSink_of_chosen h, Sink.kept_emittedAll_memory] at hreport
  exact hreport

end Builds

theorem Request.result_eq_bind {r : Request ρ} {settings : Settings} {s : Schema}
    (hsettled : r.settings.settled = .ok settings) (hunwrapped : r.source.unwrap = .ok s) :
    r.result = r.documents.walked s >>= fun documents => settings.forced >>= fun forced =>
      assembled r.transformers s (s.survivors documents forced)
        (settings.recordedDirectives s) := by
  rw [Documents.walked, bind_assoc]
  cases hd : r.documents.listed with
  | error e => exact (ends_without_documents hsettled hd).1
  | ok given =>
    change r.result = given.mapM (GivenDocument.walked s) >>= _
    cases hw : given.mapM (GivenDocument.walked s) with
    | error e => exact (ends_without_walk hsettled hd hunwrapped hw).1
    | ok documents =>
      obtain rfl := walked_eq_parsed hd hw
      exact result_eq_lateResult hsettled hd hunwrapped hw

theorem build_returns {r : Request ρ} {j : Journal} {c : Context ρ}
    (h : ((build r).outcome j).1 = .ok c) :
    ∃ settings s forced, r.Resolves j settings s forced ∧
      r.documents.walked s = .ok r.documents.parsed ∧ (∀ v ∈ forced, v.unhashable? = none) ∧
      Assembles r.transformers s (s.survivors r.documents.parsed forced)
        (settings.recordedDirectives s) c := by
  have hresult := result_of_returns h
  obtain ⟨settings, hsettled, hlate⟩ := bind_eq_ok_iff.1 hresult
  obtain ⟨given, -, hlate⟩ := bind_eq_ok_iff.1 hlate
  obtain ⟨s, hunwrapped, -⟩ := bind_eq_ok_iff.1 hlate
  rw [Request.result_eq_bind hsettled hunwrapped] at hresult
  obtain ⟨documents, hwalked, hrest⟩ := bind_eq_ok_iff.1 hresult
  obtain ⟨forced, hforced, hassembled⟩ := bind_eq_ok_iff.1 hrest
  obtain ⟨helements, hhash⟩ := Settings.forced_eq_ok_iff.1 hforced
  have hresolved := (r.settings.resolve_yields j).trans hsettled
  refine ⟨settings, s, forced, ⟨hresolved, hunwrapped, helements⟩, ?_, hhash, ?_⟩
  · rw [hwalked, Documents.parsed_of_walked hwalked]
  · rw [Documents.parsed_of_walked hwalked]
    exact assembled_eq_ok_iff.1 hassembled

namespace Request.Resolves

variable {r : Request ρ} {j : Journal} {settings : Settings} {s : Schema} {forced : List Value}

theorem result_eq_bind (h : r.Resolves j settings s forced) :
    r.result = r.documents.walked s >>= fun documents => settings.forced >>= fun forced =>
      assembled r.transformers s (s.survivors documents forced)
        (settings.recordedDirectives s) :=
  Request.result_eq_bind ((r.settings.resolve_yields j).symm.trans h.resolved) h.unwrapped

theorem forced_eq (h : r.Resolves j settings s forced)
    (hforced : ∀ v ∈ forced, v.unhashable? = none) : settings.forced = .ok forced :=
  Settings.forced_eq_ok_iff.2 ⟨h.elements, hforced⟩

/-- Where the documents can be walked and the allow list can be made, a build comes to what its
assembly comes to. -/
theorem result_eq (h : r.Resolves j settings s forced)
    (hwalked : r.documents.walked s = .ok r.documents.parsed)
    (hforced : ∀ v ∈ forced, v.unhashable? = none) :
    r.result = assembled r.transformers s (s.survivors r.documents.parsed forced)
      (settings.recordedDirectives s) := by
  rw [h.result_eq_bind, hwalked, h.forced_eq hforced]
  rfl

theorem returns (h : r.Resolves j settings s forced) (htells : r.Tells)
    (hwalked : r.documents.walked s = .ok r.documents.parsed)
    (hforced : ∀ v ∈ forced, v.unhashable? = none) {c : Context ρ}
    (hassembles : Assembles r.transformers s (s.survivors r.documents.parsed forced)
      (settings.recordedDirectives s) c) : ((build r).outcome j).1 = .ok c := by
  rw [build_yields htells j, h.result_eq hwalked hforced, assembled_eq_ok_iff.2 hassembles]

theorem assembles (h : r.Resolves j settings s forced) {c : Context ρ}
    (hc : ((build r).outcome j).1 = .ok c) :
    Assembles r.transformers s (s.survivors r.documents.parsed forced)
      (settings.recordedDirectives s) c := by
  obtain ⟨settings', s', forced', hr, -, -, hassembles⟩ := build_returns hc
  obtain rfl : settings = settings' := Except.ok.inj (h.resolved.symm.trans hr.resolved)
  obtain rfl : s = s' := Except.ok.inj (h.unwrapped.symm.trans hr.unwrapped)
  obtain rfl : forced = forced' := Except.ok.inj (h.elements.symm.trans hr.elements)
  exact hassembles

end Request.Resolves
end SchemaContext
