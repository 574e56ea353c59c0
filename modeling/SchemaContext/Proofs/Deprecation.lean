import SchemaContext.Proofs.BareSchema

/-!
# Deprecation by syntax and by reason

An element tells of its deprecation in two ways: its syntax nodes apply `@deprecated`,
or, where it has no nodes, its deprecation reason counts as such an application. Where
the nodes agree with the reason and the directive is the standard one, both ways lead to
the same directive map, and that map can always be read.
-/

namespace SchemaContext

def defaultReason : String := "No longer supported"

/-- Whether the arguments of an applied `@deprecated` state a reason, by a literal or by default. -/
def StatesReason (args : List (String × Literal)) (reason : String) : Prop :=
  (Entries.ofList args).get? "reason" = some (.string reason) ∨
    ((Entries.ofList args).get? "reason" = none ∧ reason = defaultReason)

/-- The one directive that a schema knows as `deprecated` is the standard one, whether or not it
was written down, and its argument is a text. -/
structure Schema.StandardDeprecation (s : Schema) : Prop where
  only : (s.directives.filter fun d => d.name == "deprecated").map DirectiveDefinition.bare
    = (BuiltIn.directive? "deprecated").toList
  text : s.body? "String" = some .scalar

namespace Carrier

/-- The directive map that the deprecation reason stands for. -/
def reported (c : Carrier) : Applied :=
  match c.deprecation with
  | some reason => deprecated reason
  | none => []

/-- The syntax nodes, if there are any, apply nothing but a `@deprecated` with the very reason that
the element has, and nothing at all where it has none. -/
def Agrees (c : Carrier) : Prop :=
  c.nodes ≠ [] →
    match c.deprecation with
    | none => c.nodes.flatten = []
    | some reason => ∃ args, c.nodes.flatten = [⟨"deprecated", args⟩] ∧ StatesReason args reason

variable {s : Schema} {c : Carrier}

theorem applied_of_nodes_nil (h : c.nodes = []) : c.applied s = .ok c.reported := by
  rw [applied, h, reported]
  rfl

theorem firstUse?_eq_find? (c : Carrier) (n : String) :
    c.firstUse? n = c.nodes.flatten.find? fun use => use.name == n := by
  rw [firstUse?, List.find?_flatten]

theorem foldlM_applyOne_of_none {ds : List DirectiveDefinition} {found : Applied}
    (h : ∀ d ∈ ds, c.firstUse? d.name = none) : ds.foldlM (applyOne s c) found = .ok found := by
  induction ds with
  | nil => rfl
  | cons d ds ih =>
    have hone : applyOne s c found d = .ok found := by
      rw [applyOne, h d List.mem_cons_self]
    rw [List.foldlM_cons, hone]
    exact ih fun d hd => h d (List.mem_cons_of_mem _ hd)

/-- Where only one of the directives is applied, the map is what this one contributes. -/
theorem foldlM_applyOne_of_only {ds : List DirectiveDefinition} {d : DirectiveDefinition}
    {n : String} (honly : ds.filter (fun d => d.name == n) = [d])
    (hnone : ∀ m, m ≠ n → c.firstUse? m = none) :
    ds.foldlM (applyOne s c) [] = applyOne s c [] d := by
  obtain ⟨before, after, hds, hbefore, -, hafter⟩ := List.filter_eq_cons_iff.1 honly
  have hunused (ds : List DirectiveDefinition) (h : ∀ d ∈ ds, ¬ (d.name == n) = true) :
      ∀ d ∈ ds, c.firstUse? d.name = none := by
    intro d hd
    apply hnone
    intro hname
    exact h d hd (by simp [hname])
  rw [hds, List.foldlM_append, foldlM_applyOne_of_none (hunused _ hbefore)]
  change (d :: after).foldlM (applyOne s c) [] = _
  rw [List.foldlM_cons]
  cases applyOne s c [] d with
  | error fault => rfl
  | ok found => exact foldlM_applyOne_of_none (hunused _ (List.filter_eq_nil_iff.1 hafter))

end Carrier

section Standard

variable {s : Schema} {args : List (String × Literal)} {reason : String}

theorem coerce?_text (ht : s.body? "String" = some .scalar) :
    (Literal.string reason).coerce? s (.named "String" false) = some (.str reason) := by
  simp [Literal.coerce?, TypeRef.name, TypeRef.dimension, Literal.leafValue?, ht,
    Literal.scalarValue?, Value.inLists]

theorem valueIn_reason (ht : s.body? "String" = some .scalar) {a : InputValue}
    (hn : a.name = "reason") (hr : a.type = .named "String" false)
    (hd : a.default = some (.str defaultReason)) (h : StatesReason args reason) :
    a.valueIn s args = .ok (some (.str reason)) := by
  rcases h with h | ⟨h, rfl⟩
  · simp [InputValue.valueIn, hn, h, hr, Literal.isNull, coerce?_text ht]
  · have hdefault : a.defaultValue? s = some (.str defaultReason) := by
      simp [InputValue.defaultValue?, hd, hr, Schema.refersTo, ht, TypeBody.isInputObject]
    simp [InputValue.valueIn, hn, h, InputValue.absent, hdefault]

theorem argumentsOf_standard (ht : s.body? "String" = some .scalar) {d : DirectiveDefinition}
    (hd : BuiltIn.directive? "deprecated" = some d.bare) (h : StatesReason args reason) :
    d.argumentsOf s ⟨"deprecated", args⟩ = .ok [("reason", .str reason)] := by
  have hargs := congrArg DirectiveDefinition.args (Option.some.inj hd)
  obtain ⟨a, hd, ha⟩ := List.map_eq_singleton_iff.1 hargs.symm
  have hn : a.name = "reason" := congrArg InputValue.name ha
  have hr : a.type = .named "String" false := congrArg InputValue.type ha
  have hdefault : a.default = some (.str defaultReason) := congrArg InputValue.default ha
  rw [DirectiveDefinition.argumentsOf, bind_eq_ok_iff, hd]
  refine ⟨[some ("reason", .str reason)], mapM_eq_ok_iff.2 (.cons ?_ .nil), rfl⟩
  exact bind_eq_ok_iff.2 ⟨_, valueIn_reason ht hn hr hdefault h, by rw [hn]; rfl⟩

end Standard

namespace Carrier

variable {s : Schema} {c : Carrier}

/-- Where the nodes agree with the reason, they are read as the reason alone would be. -/
theorem applied_of_agrees (hs : s.StandardDeprecation) (hc : c.Agrees) :
    c.applied s = .ok c.reported := by
  by_cases hnodes : c.nodes = []
  · exact applied_of_nodes_nil hnodes
  have hc := hc hnodes
  rw [applied, List.isEmpty_eq_false_iff.2 hnodes, reported]
  cases hd : c.deprecation with
  | none =>
    rw [hd] at hc
    apply foldlM_applyOne_of_none
    intro d _
    rw [firstUse?_eq_find?, hc]
    rfl
  | some reason =>
    rw [hd] at hc
    obtain ⟨args, huse, hreason⟩ := hc
    have hfirst (n : String) :
        c.firstUse? n = if "deprecated" = n then some ⟨"deprecated", args⟩ else none := by
      rw [firstUse?_eq_find?, huse]
      by_cases hn : "deprecated" = n <;> simp [hn]
    obtain ⟨d, honly, hstandard⟩ := List.map_eq_singleton_iff.1 hs.only
    have hname : d.name = "deprecated" := congrArg DirectiveDefinition.name hstandard
    have hrest : ∀ m, m ≠ "deprecated" → c.firstUse? m = none := by
      intro m hm
      rw [hfirst, if_neg (Ne.symm hm)]
    have hargs := argumentsOf_standard hs.text (congrArg some hstandard).symm hreason
    refine (foldlM_applyOne_of_only honly hrest).trans ?_
    rw [applyOne, hfirst, if_pos hname.symm, hname]
    exact bind_eq_ok_iff.2 ⟨_, hargs, rfl⟩

end Carrier
end SchemaContext
