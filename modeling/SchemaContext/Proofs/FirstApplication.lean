import Mathlib.Data.List.Induction
import SchemaContext.Proofs.DirectiveUse
import SchemaContext.Proofs.ReadingOrder

/-!
# What is read off the nodes of an element

Of the uses of a directive on an element's nodes the first counts, and of the definitions
of a directive the last. The definitions are read in the order of the schema, so that the
first of them whose use cannot be read decides how the reading fails, whatever the order
of the uses is.
-/

namespace SchemaContext

def FirstNamed (name : α → String) (as : List α) (n : String) (a : α) : Prop :=
  ∃ before after, as = before ++ a :: after ∧ name a = n ∧ ∀ b ∈ before, name b ≠ n

def LastNamed (name : α → String) (as : List α) (n : String) (a : α) : Prop :=
  ∃ before after, as = before ++ a :: after ∧ name a = n ∧ ∀ b ∈ after, name b ≠ n

section Named

variable {name : α → String} {as : List α} {n : String} {a : α}

theorem firstNamed_iff_find? :
    FirstNamed name as n a ↔ as.find? (fun a => name a == n) = some a := by
  simp only [FirstNamed, List.find?_eq_some_iff_append, beq_iff_eq, Bool.not_eq_true',
    beq_eq_false_iff_ne]
  constructor
  · rintro ⟨before, after, has, hn, hbefore⟩
    exact ⟨hn, before, after, has, hbefore⟩
  · rintro ⟨hn, before, after, has, hbefore⟩
    exact ⟨before, after, has, hn, hbefore⟩

theorem exists_firstNamed_iff : (∃ a, FirstNamed name as n a) ↔ ∃ a ∈ as, name a = n := by
  simp only [firstNamed_iff_find?, ← Option.isSome_iff_exists, List.find?_isSome, beq_iff_eq]

theorem lastNamed_iff_firstNamed : LastNamed name as n a ↔ FirstNamed name as.reverse n a := by
  constructor
  · rintro ⟨before, after, rfl, hn, hafter⟩
    exact ⟨after.reverse, before.reverse, by simp, hn, by simpa using hafter⟩
  · rintro ⟨before, after, has, hn, hbefore⟩
    exact ⟨after.reverse, before.reverse, by simpa using congrArg List.reverse has, hn,
      by simpa using hbefore⟩

theorem exists_lastNamed_iff : (∃ a, LastNamed name as n a) ↔ ∃ a ∈ as, name a = n := by
  simp only [lastNamed_iff_firstNamed, exists_firstNamed_iff, List.mem_reverse]

theorem LastNamed.mem (h : LastNamed name as n a) : a ∈ as := by
  obtain ⟨before, after, rfl, -⟩ := h
  exact List.mem_append_right _ List.mem_cons_self

theorem LastNamed.name_eq (h : LastNamed name as n a) : name a = n := by
  obtain ⟨before, after, -, hn, -⟩ := h
  exact hn

/-- An element that comes after all others is the last of its name, and changes no other name. -/
theorem lastNamed_concat {b : α} :
    LastNamed name (as ++ [b]) n a ↔ if name b = n then a = b else LastNamed name as n a := by
  simp only [lastNamed_iff_firstNamed, firstNamed_iff_find?, List.reverse_append,
    List.reverse_singleton, List.singleton_append, List.find?_cons]
  by_cases hb : name b = n
  · simp [hb, eq_comm]
  · simp [hb, beq_eq_false_iff_ne.2 hb]

end Named

/-- The first use of a directive cannot be read by a definition of it. -/
def Schema.Misreads (s : Schema) (uses : List DirectiveUse) (d : DirectiveDefinition)
    (fault : ArgumentFault) : Prop :=
  ∃ use, FirstNamed DirectiveUse.name uses d.name use ∧ d.argumentsOf s use = .error fault

namespace Carrier

variable {s : Schema} {c : Carrier} {ds : List DirectiveDefinition}

theorem firstUse?_eq_some_iff {n : String} {use : DirectiveUse} :
    c.firstUse? n = some use ↔ FirstNamed DirectiveUse.name c.nodes.flatten n use := by
  rw [firstUse?_eq_find?, firstNamed_iff_find?]

/-- What one declared directive contributes: the arguments of its first use, if it is used. -/
def reading (s : Schema) (c : Carrier) (d : DirectiveDefinition) :
    Except ArgumentFault (Option (Entries Value)) :=
  match c.firstUse? d.name with
  | none => .ok none
  | some use => some <$> d.argumentsOf s use

theorem reading_of_none {d : DirectiveDefinition} (h : c.firstUse? d.name = none) :
    c.reading s d = .ok none := by
  rw [reading, h]

theorem reading_of_some {d : DirectiveDefinition} {use : DirectiveUse}
    (h : c.firstUse? d.name = some use) : c.reading s d = some <$> d.argumentsOf s use := by
  rw [reading, h]

theorem reading_eq_error_iff {d : DirectiveDefinition} {fault : ArgumentFault} :
    c.reading s d = .error fault ↔ s.Misreads c.nodes.flatten d fault := by
  simp only [Schema.Misreads, ← firstUse?_eq_some_iff]
  cases huse : c.firstUse? d.name with
  | none => simp [reading_of_none huse]
  | some use =>
    rw [reading_of_some huse]
    cases hargs : d.argumentsOf s use <;> simp [hargs]

theorem exists_reading_iff {d : DirectiveDefinition} :
    (∃ args?, c.reading s d = .ok args?) ↔ ∀ fault, ¬ s.Misreads c.nodes.flatten d fault := by
  simp only [← reading_eq_error_iff]
  cases c.reading s d <;> simp

theorem applyOne_failsAs (found : Applied) (d : DirectiveDefinition) :
    FailsAs (applyOne s c found d) (c.reading s d) := by
  unfold applyOne reading
  cases c.firstUse? d.name with
  | none => exact FailsAs.ok found none
  | some use =>
    dsimp only
    rw [map_eq_pure_bind]
    exact (FailsAs.refl _).bind_pure.trans (FailsAs.refl _).bind_pure.symm

theorem foldlM_applyOne_failsAs (ds : List DirectiveDefinition) (found : Applied) :
    FailsAs (ds.foldlM (applyOne s c) found) (ds.mapM (c.reading s)) := by
  induction ds generalizing found with
  | nil => exact FailsAs.ok found []
  | cons d ds ih =>
    rw [List.foldlM_cons, List.mapM_cons]
    refine (applyOne_failsAs found d).bind fun found' _ _ _ => ?_
    exact (ih found').trans (FailsAs.refl _).bind_pure.symm

theorem applyOne_eq_ok_iff {found m : Applied} {d : DirectiveDefinition} :
    applyOne s c found d = .ok m ↔
      (c.firstUse? d.name = none ∧ found = m) ∨
        ∃ use args, c.firstUse? d.name = some use ∧ d.argumentsOf s use = .ok args ∧
          found.put d.name args = m := by
  unfold applyOne
  cases c.firstUse? d.name with
  | none => simp
  | some use => simp [bind_eq_ok_iff, pure, Except.pure]

/-- What the definitions contribute, up to one and then by this one. -/
theorem foldlM_applyOne_concat {d : DirectiveDefinition} {m : Applied}
    (h : (ds ++ [d]).foldlM (applyOne s c) [] = .ok m) :
    ∃ found, ds.foldlM (applyOne s c) [] = .ok found ∧ applyOne s c found d = .ok m := by
  rw [List.foldlM_append] at h
  obtain ⟨found, hfound, h⟩ := bind_eq_ok_iff.1 h
  obtain ⟨m', hone, h⟩ := bind_eq_ok_iff.1 h
  cases h
  exact ⟨found, hfound, hone⟩

theorem distinct_of_foldlM_applyOne {m : Applied} (h : ds.foldlM (applyOne s c) [] = .ok m) :
    m.Distinct := by
  induction ds using List.reverseRecOn generalizing m with
  | nil =>
    cases h
    exact Entries.distinct_nil
  | append_singleton ds d ih =>
    obtain ⟨found, hfound, hone⟩ := foldlM_applyOne_concat h
    rcases applyOne_eq_ok_iff.1 hone with ⟨-, rfl⟩ | ⟨use, args, -, -, rfl⟩
    · exact ih hfound
    · exact (ih hfound).put d.name args

/-- Under a name stand the arguments of its first use, as its last definition reads them. -/
theorem get?_foldlM_applyOne {m : Applied} (h : ds.foldlM (applyOne s c) [] = .ok m) {n : String}
    {args : Entries Value} :
    m.get? n = some args ↔ ∃ d use, LastNamed DirectiveDefinition.name ds n d ∧
      c.firstUse? n = some use ∧ d.argumentsOf s use = .ok args := by
  -- A definition that is read later overwrites what stands under its name, and nothing else.
  induction ds using List.reverseRecOn generalizing m with
  | nil =>
    cases h
    simp [LastNamed]
  | append_singleton ds d ih =>
    obtain ⟨found, hfound, hone⟩ := foldlM_applyOne_concat h
    rcases applyOne_eq_ok_iff.1 hone with ⟨hunused, rfl⟩ | ⟨use, args', huse, hargs, rfl⟩
    · rw [ih hfound]
      refine exists_congr fun d' => exists_congr fun use => and_congr_left ?_
      rintro ⟨huse, -⟩
      have hne : d.name ≠ n := by
        rintro rfl
        cases hunused.symm.trans huse
      rw [lastNamed_concat, if_neg hne]
    · rw [Entries.get?_put]
      by_cases hn : d.name = n
      · subst hn
        simp [lastNamed_concat, huse, hargs]
      · simp only [lastNamed_concat, if_neg hn, ih hfound]

theorem exists_reading_of_foldlM {found m : Applied} (h : ds.foldlM (applyOne s c) found = .ok m)
    {d : DirectiveDefinition} (hd : d ∈ ds) : ∃ args?, c.reading s d = .ok args? :=
  exists_mapM_iff.1 ((foldlM_applyOne_failsAs ds found).succeeds_iff.1 ⟨m, h⟩) d hd

theorem mem_keys_foldlM_applyOne {m : Applied} (h : ds.foldlM (applyOne s c) [] = .ok m)
    {n : String} :
    n ∈ m.keys ↔ (∃ d ∈ ds, d.name = n) ∧ ∃ node ∈ c.nodes, ∃ use ∈ node, use.name = n := by
  have hkeys : n ∈ m.keys ↔ ∃ args, m.get? n = some args := by
    rw [← Option.isSome_iff_exists, ← Option.ne_none_iff_isSome, Ne, Entries.get?_eq_none_iff,
      not_not]
  rw [hkeys, ← firstUse?_isSome_iff]
  simp only [get?_foldlM_applyOne h]
  constructor
  · rintro ⟨args, d, use, hlast, huse, -⟩
    exact ⟨exists_lastNamed_iff.1 ⟨d, hlast⟩, by rw [huse, Option.isSome_some]⟩
  · rintro ⟨hdeclared, hused⟩
    obtain ⟨d, hlast⟩ := exists_lastNamed_iff.2 hdeclared
    obtain ⟨use, huse⟩ := Option.isSome_iff_exists.1 hused
    obtain ⟨args?, hread⟩ := exists_reading_of_foldlM h hlast.mem
    rw [reading_of_some (hlast.name_eq ▸ huse), map_eq_ok_iff] at hread
    obtain ⟨args, hargs, -⟩ := hread
    exact ⟨args, d, use, hlast, huse, hargs⟩

theorem applied_of_nodes_ne_nil (h : c.nodes ≠ []) :
    c.applied s = s.directives.foldlM (applyOne s c) [] := by
  rw [applied, List.isEmpty_eq_false_iff.2 h]
  rfl

/-- The first definition that cannot read the first use of its name tells why there is nothing to
be had. -/
theorem applied_eq_error_iff (h : c.nodes ≠ []) {fault : ArgumentFault} :
    c.applied s = .error fault ↔ ∃ before d after, s.directives = before ++ d :: after ∧
      (∀ b ∈ before, ∀ fault', ¬ s.Misreads c.nodes.flatten b fault') ∧
      s.Misreads c.nodes.flatten d fault := by
  rw [applied_of_nodes_ne_nil h, foldlM_applyOne_failsAs s.directives [] fault, mapM_eq_error_iff]
  simp only [exists_reading_iff, reading_eq_error_iff]

theorem exists_applied_error_iff (h : c.nodes ≠ []) :
    (∃ fault, c.applied s = .error fault) ↔
      ∃ d ∈ s.directives, ∃ fault, s.Misreads c.nodes.flatten d fault := by
  have hsucceeds := (foldlM_applyOne_failsAs (s := s) (c := c) s.directives []).succeeds_iff
  rw [exists_mapM_iff] at hsucceeds
  simp only [exists_reading_iff] at hsucceeds
  rw [applied_of_nodes_ne_nil h]
  have hnot := not_congr hsucceeds
  push Not at hnot
  rw [← hnot]
  cases s.directives.foldlM (applyOne s c) [] <;> simp

end Carrier

/-- An element has the syntax nodes of its definition and its extensions, in this order. If there
are any, it has the directives that the schema declares and a node applies. Under each name stand
the arguments of its first use, as the last definition of the name reads them. They cannot be read
exactly if a definition cannot read the first use of its name, and then the first such definition
tells why; the element's deprecation plays no part. An element without nodes has its deprecation
reason for a use of `@deprecated`, if it has a reason, and no other directive. -/
theorem applied_reads_first_uses (s : Schema) (definition : Option (List DirectiveUse))
    (extensions : List (List DirectiveUse)) (deprecation : Option String) :
    let c : Carrier := ⟨definition.toList ++ extensions, deprecation⟩
    (c.nodes ≠ [] →
      (∀ m, c.applied s = .ok m → m.Distinct ∧
        (∀ n, n ∈ m.keys ↔
          (∃ d ∈ s.directives, d.name = n) ∧ ∃ node ∈ c.nodes, ∃ use ∈ node, use.name = n) ∧
        ∀ n args, m.get? n = some args ↔
          ∃ d use, LastNamed DirectiveDefinition.name s.directives n d ∧
            FirstNamed DirectiveUse.name c.nodes.flatten n use ∧
            d.argumentsOf s use = .ok args) ∧
      ((∃ fault, c.applied s = .error fault) ↔
        ∃ d ∈ s.directives, ∃ fault, s.Misreads c.nodes.flatten d fault) ∧
      (∀ fault, c.applied s = .error fault ↔
        ∃ before d after, s.directives = before ++ d :: after ∧
          (∀ b ∈ before, ∀ fault', ¬ s.Misreads c.nodes.flatten b fault') ∧
          s.Misreads c.nodes.flatten d fault) ∧
      ∀ other, Carrier.applied s ⟨c.nodes, other⟩ = c.applied s) ∧
    (c.nodes = [] →
      (∀ reason, c.deprecation = some reason →
        c.applied s = .ok [("deprecated", [("reason", .str reason)])]) ∧
      (c.deprecation = none → c.applied s = .ok [])) := by
  intro c
  constructor
  · intro hnodes
    refine ⟨fun m hm => ?_, Carrier.exists_applied_error_iff hnodes,
      fun fault => Carrier.applied_eq_error_iff hnodes, fun other => ?_⟩
    · rw [Carrier.applied_of_nodes_ne_nil hnodes] at hm
      refine ⟨Carrier.distinct_of_foldlM_applyOne hm, fun n => Carrier.mem_keys_foldlM_applyOne hm,
        fun n args => ?_⟩
      simp only [Carrier.get?_foldlM_applyOne hm, Carrier.firstUse?_eq_some_iff]
    · rw [Carrier.applied_of_nodes_ne_nil hnodes]
      exact Carrier.applied_of_nodes_ne_nil (c := ⟨c.nodes, other⟩) hnodes
  · intro hnodes
    rw [Carrier.applied_of_nodes_nil hnodes, Carrier.reported]
    constructor
    · intro reason hreason
      rw [hreason]
      rfl
    · intro hnone
      rw [hnone]

namespace Library

/-- A later definition of the directive by which the library marks what it no longer lends: it takes
the day, and no reason. -/
def withdrawal : DirectiveDefinition :=
  { name := "deprecated", locations := ["OBJECT"], repeatable := false, description := none
    args := [{ name := "day", type := .named "Int" false, default := some (.int 1)
               description := none, deprecation := none, node := none }] }

def withdrawingSchema : Schema := { schema with directives := schema.directives ++ [withdrawal] }

end Library

/-- Of the two uses of `@deprecated` on a node and an extension the library's schema reads the
first, by the second of its definitions. The first definition ends the reading where it cannot read
the use, though the second could. Without nodes the reason counts, even if it says nothing. -/
theorem applied_reads_first_uses_library :
    (Carrier.applied Library.withdrawingSchema
        ⟨[[⟨"deprecated", [("reason", .string "worn")]⟩], [⟨"deprecated", [("day", .int "3")]⟩]],
          none⟩ = .ok [("deprecated", [("day", .int 1)])] ∧
      ∃ d use,
        LastNamed DirectiveDefinition.name Library.withdrawingSchema.directives "deprecated" d ∧
        FirstNamed DirectiveUse.name
          [⟨"deprecated", [("reason", .string "worn")]⟩, ⟨"deprecated", [("day", .int "3")]⟩]
          "deprecated" use ∧
        d.argumentsOf Library.withdrawingSchema use = .ok [("day", .int 1)]) ∧
    (Carrier.applied Library.withdrawingSchema ⟨[Library.misprint "1"], none⟩ =
        .error (.invalid "reason" (.int "1")) ∧
      ∃ d ∈ Library.withdrawingSchema.directives, ∃ fault,
        Library.withdrawingSchema.Misreads (Library.misprint "1") d fault) ∧
    Carrier.applied { Library.schema with directives := [] } ⟨[], some ""⟩ =
      .ok [("deprecated", [("reason", .str "")])] := by
  have huses : Carrier.applied Library.withdrawingSchema
      ⟨[[⟨"deprecated", [("reason", .string "worn")]⟩], [⟨"deprecated", [("day", .int "3")]⟩]],
        none⟩ = .ok [("deprecated", [("day", .int 1)])] := rfl
  have hmisprint : Carrier.applied Library.withdrawingSchema ⟨[Library.misprint "1"], none⟩ =
      .error (.invalid "reason" (.int "1")) := rfl
  refine ⟨⟨huses, ?_⟩, ⟨hmisprint, ?_⟩, ?_⟩
  · obtain ⟨hread, -⟩ := (applied_reads_first_uses Library.withdrawingSchema
      (some [⟨"deprecated", [("reason", .string "worn")]⟩])
      [[⟨"deprecated", [("day", .int "3")]⟩]] none).1 (List.cons_ne_nil _ _)
    exact ((hread _ huses).2.2 "deprecated" _).1 rfl
  · obtain ⟨-, hfails, -⟩ := (applied_reads_first_uses Library.withdrawingSchema
      (some (Library.misprint "1")) [] none).1 (List.cons_ne_nil _ _)
    exact hfails.1 ⟨_, hmisprint⟩
  · exact ((applied_reads_first_uses { Library.schema with directives := [] } none [] (some "")).2
      rfl).1 "" rfl

end SchemaContext
