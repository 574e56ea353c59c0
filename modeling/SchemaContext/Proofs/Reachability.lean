import SchemaContext.Schema.TypeMap

/-!
# The type map of a new schema is closed under references

The names that are collected for a type map are settled: each of them is defined, and
what its definition refers to is among them as far as it is defined. A depth first
collection settles every name that it adds. The listed types are taken out and collected
anew one after the other, so a name that is not settled yet is one that is still to be
taken out.
-/

namespace SchemaContext
namespace TypeMap

variable {definitions : List NamedType} {waiting listed seen names : List String} {n : String}

def Defined (definitions : List NamedType) (n : String) : Prop := ∃ t ∈ definitions, t.name = n

/-- The name is defined, and what its definition refers to is among the names, unless undefined. -/
def Settled (definitions : List NamedType) (names : List String) (n : String) : Prop :=
  ∃ t, definitions.find? (fun t => t.name == n) = some t ∧
    ∀ m ∈ t.body.references, Defined definitions m → m ∈ names

theorem defined_iff_isSome :
    Defined definitions n ↔ (definitions.find? fun t => t.name == n).isSome = true := by
  simp [Defined, List.find?_isSome]

theorem Settled.mono {names' : List String} (h : Settled definitions names n)
    (hsub : ∀ m ∈ names, Defined definitions m → m ∈ names') : Settled definitions names' n := by
  obtain ⟨t, ht, hrefs⟩ := h
  exact ⟨t, ht, fun m hm hd => hsub m (hrefs m hm hd) hd⟩

theorem subset_collect : seen ⊆ collect definitions waiting seen := by
  fun_induction collect definitions waiting seen with
  | case1 => exact List.Subset.refl _
  | case2 seen n rest hn ih => exact ih
  | case3 seen n rest hn ht ih => exact ih
  | case4 seen n rest hn t ht ih => exact fun m hm => ih (List.mem_append_left _ hm)

theorem mem_collect_of_waiting (h : n ∈ waiting) (hd : Defined definitions n) :
    n ∈ collect definitions waiting seen := by
  fun_induction collect definitions waiting seen with
  | case1 => exact absurd h List.not_mem_nil
  | case2 seen m rest hm ih =>
    rcases List.mem_cons.1 h with rfl | h
    · exact subset_collect hm
    · exact ih h
  | case3 seen m rest hm ht ih =>
    rcases List.mem_cons.1 h with rfl | h
    · rw [defined_iff_isSome, ht] at hd
      cases hd
    · exact ih h
  | case4 seen m rest hm t ht ih =>
    rcases List.mem_cons.1 h with rfl | h
    · exact subset_collect (List.mem_append_right _ List.mem_cons_self)
    · exact ih (List.mem_append_right _ h)

theorem settled_of_mem_collect (h : n ∈ collect definitions waiting seen) (hn : n ∉ seen) :
    Settled definitions (collect definitions waiting seen) n := by
  fun_induction collect definitions waiting seen with
  | case1 => exact absurd h hn
  | case2 seen m rest hm ih => exact ih h hn
  | case3 seen m rest hm ht ih => exact ih h hn
  | case4 seen m rest hm t ht ih =>
    by_cases hnm : n = m
    · subst hnm
      -- The references of the name wait in front, so that the rest of the collection has them.
      exact ⟨t, ht, fun x hx hd => mem_collect_of_waiting (List.mem_append_left _ hx) hd⟩
    · exact ih h (by simp [hn, hnm])

/-- Taking a listed name out and collecting it anew leaves no name unsettled but those that are
still to be taken out. -/
theorem settled_or_listed {rest : List String}
    (h : ∀ m ∈ seen, m ∈ n :: rest ∨ Settled definitions seen m) :
    ∀ m ∈ collect definitions [n] (seen.filter (· ≠ n)),
      m ∈ rest ∨ Settled definitions (collect definitions [n] (seen.filter (· ≠ n))) m := by
  intro m hm
  by_cases hkept : m ∈ seen.filter (· ≠ n)
  · obtain ⟨hseen, hne⟩ := List.mem_filter.1 hkept
    have hne : m ≠ n := by simpa using hne
    rcases h m hseen with hlisted | hsettled
    · exact .inl ((List.mem_cons.1 hlisted).resolve_left hne)
    · right
      apply hsettled.mono
      intro x hx hd
      by_cases hxn : x = n
      · subst hxn
        exact mem_collect_of_waiting List.mem_cons_self hd
      · exact subset_collect (List.mem_filter.2 ⟨hx, by simpa using hxn⟩)
  · exact .inr (settled_of_mem_collect hm hkept)

theorem settled_collectListed (h : ∀ m ∈ seen, m ∈ listed ∨ Settled definitions seen m) :
    ∀ m ∈ collectListed definitions listed seen,
      Settled definitions (collectListed definitions listed seen) m := by
  induction listed generalizing seen with
  | nil =>
    intro m hm
    exact (h m hm).resolve_left List.not_mem_nil
  | cons n rest ih => exact ih (settled_or_listed h)

theorem settled_names (definitions : List NamedType) (p : SchemaParts) :
    ∀ n ∈ TypeMap.names definitions p, Settled definitions (TypeMap.names definitions p) n := by
  intro n hn
  by_cases hseen : n ∈ collectListed definitions p.listed (firstOccurrences id p.listed)
  · have hsettled :=
      settled_collectListed (fun m hm => .inl (mem_of_mem_firstOccurrences hm)) n hseen
    exact hsettled.mono fun m hm _ => subset_collect hm
  · exact settled_of_mem_collect hn hseen

theorem mem_names_of_root {p : SchemaParts} (h : n ∈ roots p) (hd : Defined definitions n) :
    n ∈ TypeMap.names definitions p := mem_collect_of_waiting h hd

theorem mem_ofNames {e : String × Entry} :
    e ∈ ofNames definitions names ↔
      e.1 ∈ names ∧ ∃ t, definitions.find? (fun t => t.name == e.1) = some t ∧ e.2 = .type t := by
  simp only [ofNames, List.mem_filterMap, Option.map_eq_some_iff]
  constructor
  · rintro ⟨n, hn, t, ht, rfl⟩
    exact ⟨hn, t, ht, rfl⟩
  · rintro ⟨hn, t, ht, he⟩
    exact ⟨e.1, hn, t, ht, by rw [← he]⟩

theorem mem_keys_ofNames (hn : n ∈ names) (hd : Defined definitions n) :
    n ∈ (ofNames definitions names).keys := by
  obtain ⟨t, ht⟩ := Option.isSome_iff_exists.1 (defined_iff_isSome.1 hd)
  exact List.mem_map.2 ⟨(n, .type t), mem_ofNames.2 ⟨hn, t, ht, rfl⟩, rfl⟩

end TypeMap

namespace Schema

theorem defined_iff {s : Schema} {n : String} :
    TypeMap.Defined s.definitions n ↔ ∃ t, s.resolve? n = some t := by
  rw [TypeMap.defined_iff_isSome, Option.isSome_iff_exists]
  rfl

theorem resolve?_name {s : Schema} {n : String} {t : NamedType} (h : s.resolve? n = some t) :
    t.name = n := by
  simpa using List.find?_some h

/-- The type map holds types under their own names, as references find them, and with a type what it
refers to; what arguments of directives refer to is there as well. -/
structure Closed (s : Schema) : Prop where
  own : ∀ e ∈ s.typeMap.entries, ∃ t, s.resolve? e.1 = some t ∧ e.2 = .type t
  references : ∀ e ∈ s.typeMap.entries, ∀ t, e.2 = .type t → ∀ n ∈ t.body.references,
    TypeMap.Defined s.definitions n → n ∈ s.typeMap.keys
  arguments : ∀ d ∈ s.directives, ∀ a ∈ d.args,
    TypeMap.Defined s.definitions a.type.name → a.type.name ∈ s.typeMap.keys

theorem Closed.resolves {s : Schema} (hs : s.Closed) {e : String × Entry}
    (he : e ∈ s.typeMap.entries) {t : NamedType} (htype : e.2 = .type t) :
    s.resolve? e.1 = some t := by
  obtain ⟨t', hresolve, htype'⟩ := hs.own e he
  obtain rfl : t = t' := Entry.type.inj (htype.symm.trans htype')
  exact hresolve

/-- The type map of a schema that was made and not edited is closed. -/
theorem closed_ofParts (p : SchemaParts) : (ofParts p).Closed where
  own := by
    intro e he
    obtain ⟨-, t, ht, htype⟩ := TypeMap.mem_ofNames.1 he
    exact ⟨t, ht, htype⟩
  references := by
    intro e he t htype n hn hd
    obtain ⟨hname, t', ht', htype'⟩ := TypeMap.mem_ofNames.1 he
    obtain ⟨t'', ht'', hrefs⟩ := TypeMap.settled_names _ p e.1 hname
    obtain rfl : t'' = t' := Option.some.inj (ht''.symm.trans ht')
    obtain rfl : t = t'' := Entry.type.inj (htype.symm.trans htype')
    exact TypeMap.mem_keys_ofNames (hrefs n hn hd) hd
  arguments := by
    intro d hd a ha hdefined
    have hroot : a.type.name ∈ TypeMap.roots p := by
      apply List.mem_append_left
      apply List.mem_append_right
      exact List.mem_flatMap.2 ⟨d, hd, List.mem_map.2 ⟨a, ha, rfl⟩⟩
    exact TypeMap.mem_keys_ofNames (TypeMap.mem_names_of_root hroot hdefined) hdefined

end Schema
end SchemaContext
