import Mathlib.Algebra.GroupWithZero.Nat
import SchemaContext.Proofs.DocumentEffect
import SchemaContext.Proofs.EventOrder

/-!
# What events count

A build counts at every stage what it has at hand: the types of the schema and the
documents, the entries that the filter keeps and drops, and at last the records of each
list. The counters are those of different things, but they agree with each other and with
the context, since nothing is lost or doubled between the stages.
-/

namespace SchemaContext

theorem Value.entryAt_ofEntries {m : Entries Value} {key : String} {v : Value}
    (h : m.get? key = some v) : (ofEntries m).entryAt key = .ok v := by
  have hget : Mapping.get? (Mapping.ofEntries m) (.str key) = some v := by
    rw [Mapping.get?_ofEntries, h]
  simp only [ofEntries, entryAt, hget]

namespace Event

variable {time : String} {c : Context ρ}

theorem entryAt_completed_target (k : Kind) :
    (completed time c).context.entryAt k.target = .ok (.int (c.ofKind k).length) := by
  refine Value.entryAt_ofEntries ?_
  cases k <;> rfl

theorem entryAt_completed_defined :
    (completed time c).context.entryAt "defined_directives" =
      .ok (.int c.definedDirectives.length) :=
  Value.entryAt_ofEntries rfl

theorem entryAt_completed_uses :
    (completed time c).context.entryAt "uses_directives" = .ok (.bool c.usesDirectives) :=
  Value.entryAt_ofEntries rfl

end Event

theorem Assembles.sum_length_ofKind {t : Transformers ρ} {s : Schema} {kept : Entries Entry}
    {directives : List DirectiveDefinition} {c : Context ρ}
    (h : Assembles t s kept directives c) :
    (Kind.all.map fun k => (c.ofKind k).length).sum = kept.length := by
  obtain ⟨records, hmade, hk⟩ := h.made
  rw [← c.length_placed, (placed_perm hk).length_eq, hmade.length_eq]

section Filter

variable {types : Entries α} {allowed : List String} {n : String}

theorem length_filterTypes_add_dropped (allowed : List String) (types : Entries α) :
    (filterTypes allowed types).length + (types.length - (filterTypes allowed types).length) =
      types.length :=
  Nat.add_sub_cancel' (filterTypes_sublist allowed types).length_le

theorem mem_keys_filterTypes (hn : n ∈ allowed) (h : n ∈ types.keys) :
    n ∈ (filterTypes allowed types).keys := by
  obtain ⟨e, he, rfl⟩ := List.mem_map.1 h
  exact List.mem_map_of_mem (mem_filterTypes.2 ⟨he, survives_iff.2 (.inl hn)⟩)

theorem mem_of_allowedNames {names : List String} {forced : List Value}
    (h : allowedNames (names.map .str ++ forced) = .ok allowed) (hn : n ∈ names) :
    n ∈ allowed := by
  obtain ⟨-, rfl⟩ := allowedNames_eq_ok_iff.1 h
  exact mem_allowed_iff.2 (List.mem_append_left _ (List.mem_map_of_mem hn))

end Filter

/-- The four events of a build that returns; the filter's allow list is made of the names that the
second of them tells, and of the forced types. -/
theorem Request.exists_events_of_returns {r : Request ρ} {j : Journal} {c : Context ρ}
    (h : ((build r).outcome j).1 = .ok c) :
    ∃ settings s forced, ∃ names allowed : List String, r.Resolves j settings s forced ∧
      allowedNames (names.map .str ++ forced) = .ok allowed ∧
      Assembles r.transformers s (filterTypes allowed s.typeMap.entries)
        (settings.recordedDirectives s) c ∧
      r.events = [.started r.time s.typeMap.size r.documents.parsed.length,
        .introspectionCollected r.time names,
        .filtered r.time s.typeMap.size (filterTypes allowed s.typeMap.entries).length,
        .completed r.time c] := by
  obtain ⟨settings, s, forced, hr, hwalked, hhash, hassembles⟩ := build_returns h
  obtain ⟨allowed, hallowed, hkept⟩ := exists_allowedNames s r.documents.parsed hhash
  have hnames : ((introspectionEnums s r.documents.parsed).map NamedType.name).map Value.str =
      (introspectionEnums s r.documents.parsed).map fun t => .str t.name := List.map_map
  have hsettled : r.settings.settled = .ok settings := by
    rw [← r.settings.resolve_yields j, hr.resolved]
  obtain ⟨given, hlisted, hgiven⟩ := bind_eq_ok_iff.1 hwalked
  have hcount : given.length = r.documents.parsed.length := by
    rw [GivenDocument.eq_of_mapM_walked hgiven, List.length_map]
  refine ⟨settings, s, forced, (introspectionEnums s r.documents.parsed).map NamedType.name,
    allowed, hr, by rw [hnames, hallowed], by rwa [hkept], ?_⟩
  rw [events_eq_cons hsettled hlisted hr.unwrapped hgiven, lateEvents, hr.forced_eq hhash, hkept,
    hcount]
  simp only [assembled_eq_ok_iff.2 hassembles, Event.ending]

/-- The four events of a build that returns count the same things as its context. The first counts
the types of the schema and the documents; the third counts the entries that the filter keeps and
drops, which are all types together; the last counts the records of each list, which are as many as
were kept, and the directives as the context has them. No name that the second event tells is
dropped. -/
theorem build_counts_agree {r : Request ρ} {j : Journal} {c : Context ρ}
    (h : ((build r).outcome j).1 = .ok c) :
    ∃ settings s forced, ∃ names allowed : List String,
      ∃ kept started collected filtered completed, r.Resolves j settings s forced ∧
      ((build r).outcome j).2.offered =
        j.offered ++ [started, collected, filtered, completed] ∧
      (r.sink = some .memory → ((build r).outcome j).2.kept =
        j.kept ++ [started, collected, filtered, completed]) ∧
      (started.type = .started ∧ collected.type = .introspectionCollected ∧
        filtered.type = .filtered ∧ completed.type = .completed) ∧
      (started.context.entryAt "total_types" = .ok (.int s.typeMap.size) ∧
        started.context.entryAt "documents" = .ok (.int r.documents.parsed.length)) ∧
      (collected.context.entryAt "types" = .ok (.list (names.map .str)) ∧
        allowedNames (names.map .str ++ forced) = .ok allowed ∧
        kept = filterTypes allowed s.typeMap.entries ∧
        ∀ n ∈ names, n ∈ s.typeMap.keys → n ∈ kept.keys) ∧
      (filtered.context.entryAt "kept" = .ok (.int kept.length) ∧
        ∃ dropped : Nat, filtered.context.entryAt "dropped" = .ok (.int dropped) ∧
          kept.length + dropped = s.typeMap.size) ∧
      ((∀ k : Kind, completed.context.entryAt k.target = .ok (.int (c.ofKind k).length)) ∧
        (Kind.all.map fun k => (c.ofKind k).length).sum = kept.length) ∧
      completed.context.entryAt "defined_directives" = .ok (.int c.definedDirectives.length) ∧
      completed.context.entryAt "uses_directives" = .ok (.bool c.usesDirectives) := by
  obtain ⟨settings, s, forced, names, allowed, hr, hallowed, hassembles, hevents⟩ :=
    Request.exists_events_of_returns h
  have hoffered := build_offers (.inr ⟨c, h⟩)
  rw [hevents] at hoffered
  refine ⟨settings, s, forced, names, allowed, filterTypes allowed s.typeMap.entries, _, _, _, _,
    hr, hoffered, ?_, ⟨rfl, rfl, rfl, rfl⟩, ?_, ?_, ?_, ?_, Event.entryAt_completed_defined,
    Event.entryAt_completed_uses⟩
  · intro hsink
    rw [build_keeps_events hsink j, hevents]
  · exact ⟨Value.entryAt_ofEntries rfl, Value.entryAt_ofEntries rfl⟩
  · refine ⟨Value.entryAt_ofEntries rfl, hallowed, rfl, fun n hn hkey => ?_⟩
    exact mem_keys_filterTypes (mem_of_allowedNames hallowed hn) hkey
  · exact ⟨Value.entryAt_ofEntries rfl, _, Value.entryAt_ofEntries rfl,
      length_filterTypes_add_dropped allowed s.typeMap.entries⟩
  · exact ⟨Event.entryAt_completed_target, hassembles.sum_length_ofKind⟩

namespace Library

def kindRequest : Request Record :=
  { recorded request with documents := [kindQuery], settings := .given {} }

end Library

/-- Of the library's four types the primitive scalar is dropped. The enum that the document
introspects is kept, and is one of the three records of the context. -/
theorem build_counts_agree_library :
    ∃ c started collected filtered completed,
      ((build Library.kindRequest).outcome {}).1 = .ok c ∧
      ((build Library.kindRequest).outcome {}).2.kept =
        [started, collected, filtered, completed] ∧
      started.context.entryAt "total_types" = .ok (.int 4) ∧
      started.context.entryAt "documents" = .ok (.int 1) ∧
      collected.context.entryAt "types" = .ok (.list [.str "__TypeKind"]) ∧
      filtered.context.entryAt "kept" = .ok (.int 3) ∧
      filtered.context.entryAt "dropped" = .ok (.int 1) ∧
      completed.context.entryAt "types" = .ok (.int 1) ∧
      completed.context.entryAt "enums" = .ok (.int 2) ∧
      completed.context.entryAt "uses_directives" = .ok (.bool c.usesDirectives) := by
  obtain ⟨c, hc, htypes, henums, hsum⟩ : ∃ c, ((build Library.kindRequest).outcome {}).1 = .ok c ∧
      c.types.length = 1 ∧ c.enums.length = 2 ∧
        (Kind.all.map fun k => (c.ofKind k).length).sum = 3 := ⟨_, rfl, rfl, rfl, rfl⟩
  obtain ⟨settings, s, forced, names, allowed, kept, started, collected, filtered, completed, hr, -,
    hkept, -, ⟨htotal, hdocuments⟩, -, ⟨hcount, dropped, hdropped, hall⟩, ⟨hkinds, hlists⟩, -,
    huses⟩ := build_counts_agree hc
  obtain rfl : s = Library.schema := Except.ok.inj hr.unwrapped.symm
  have hthree : kept.length = 3 := hlists.symm.trans hsum
  have hone : dropped = 1 := by
    have hfour : kept.length + dropped = 4 := hall
    omega
  have hobjects := hkinds .object
  have hgenres := hkinds .enum
  rw [hthree] at hcount
  rw [hone] at hdropped
  refine ⟨c, started, collected, filtered, completed, hc, hkept rfl, htotal, hdocuments, ?_, hcount,
    hdropped, ?_, ?_, huses⟩
  · have hevents : ((build Library.kindRequest).outcome {}).2.kept[1]? = some collected := by
      rw [hkept rfl]
      rfl
    cases hevents
    exact Value.entryAt_ofEntries rfl
  · rwa [Context.ofKind, htypes] at hobjects
  · rwa [Context.ofKind, henums] at hgenres

end SchemaContext
