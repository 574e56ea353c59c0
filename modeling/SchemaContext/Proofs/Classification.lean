import SchemaContext.Proofs.FirstFailure
import SchemaContext.Proofs.Outcome

/-!
# Failures to classify

That a type is of none of the kinds is a failure of the assembly alone. The stages of a
build before it, from its settings to its allow list, fail for other reasons.
-/

namespace SchemaContext

/-- The computation may fail, but not because a type is of none of the kinds. -/
def Classifies (x : Except Failure α) : Prop := ∀ f, x = .error f → f.isUnclassifiable = false

namespace Classifies

theorem ok (a : α) : Classifies (.ok a : Except Failure α) := fun _ h => nomatch h

theorem error {f : Failure} (h : f.isUnclassifiable = false) :
    Classifies (.error f : Except Failure α) := by
  intro f' hf
  rwa [← Except.error.inj hf]

theorem bind {x : Except Failure α} {g : α → Except Failure β} (hx : Classifies x)
    (hg : ∀ a, Classifies (g a)) : Classifies (x >>= g) := by
  intro f h
  rcases bind_eq_error_iff.1 h with h | ⟨a, -, h⟩
  · exact hx f h
  · exact hg a f h

theorem mapM {g : α → Except Failure β} (hg : ∀ a, Classifies (g a)) (as : List α) :
    Classifies (as.mapM g) := by
  induction as with
  | nil => exact ok []
  | cons a as ih =>
    rw [List.mapM_cons]
    exact (hg a).bind fun b => ih.bind fun bs => ok _

theorem foldlM {g : β → α → Except Failure β} (hg : ∀ b a, Classifies (g b a)) (as : List α)
    (b : β) : Classifies (as.foldlM g b) := by
  induction as generalizing b with
  | nil => exact ok b
  | cons a as ih =>
    rw [List.foldlM_cons]
    exact (hg b a).bind ih

end Classifies

namespace Value

theorem elements_classifies (v : Value) : Classifies v.elements := by
  unfold elements
  split
  · exact .ok _
  · exact .error rfl

theorem hashable_classifies (v : Value) : Classifies v.hashable := by
  unfold hashable
  split
  · exact .error rfl
  · exact .ok v

theorem pairAt_classifies (index : Nat) (item : Value) : Classifies (pairAt index item) := by
  unfold pairAt
  split
  · exact .error rfl
  · exact (hashable_classifies _).bind fun _ => .ok _
  · exact .error rfl

theorem asMapping_classifies (v : Value) : Classifies v.asMapping := by
  unfold asMapping
  split
  · exact .ok _
  · refine v.elements_classifies.bind fun items => ?_
    exact (Classifies.mapM (fun item => pairAt_classifies _ _) _).bind fun _ => .ok _

end Value

namespace Settings

theorem forced_classifies (settings : Settings) : Classifies settings.forced :=
  settings.forcedTypes.elements_classifies.bind fun _ => .mapM Value.hashable_classifies _

theorem settle_classifies (m : Mapping) : Classifies (settle m) := by
  have helements (v : Value) : Classifies (forcedElements v) := by
    unfold forcedElements
    split
    · exact v.elements_classifies.bind fun _ => .ok _
    · exact .ok _
  exact (helements _).bind fun _ => .ok _

theorem sortKeys_classifies (ks : List Value) : Classifies (sortKeys ks) := by
  unfold sortKeys
  split
  case h_1 f h =>
    obtain ⟨_, _, rfl⟩ := exists_of_unordered? h
    exact .error rfl
  case h_2 => exact .ok _

theorem loaded_classifies (project : Option Value) (overrides : Value) :
    Classifies (loaded project overrides) := by
  have hlayer (below : Mapping) (layer : Value) : Classifies (mergeLayer below layer) := by
    unfold mergeLayer
    split
    · exact layer.asMapping_classifies.bind fun _ => .ok _
    · exact .ok _
  refine (Classifies.foldlM hlayer _ _).bind fun m => ?_
  refine (Classifies.mapM Value.hashable_classifies _).bind fun given => ?_
  exact (sortKeys_classifies _).bind fun _ => settle_classifies m

end Settings

theorem SettingsSource.settled_classifies (source : SettingsSource) :
    Classifies source.settled := by
  cases source with
  | given s => exact .ok s
  | layers project overrides =>
    rw [settled_layers]
    exact Settings.loaded_classifies project overrides

theorem Source.unwrap_classifies (source : Source) : Classifies source.unwrap := by
  cases source with
  | other sort => exact .error rfl
  | _ => exact .ok _

theorem Documents.listed_classifies (d : Documents) : Classifies d.listed := by
  cases d with
  | items given => exact .ok given
  | notIterable sort => exact .error rfl
  | broken text => exact .error rfl

theorem GivenDocument.walked_classifies (s : Schema) (x : GivenDocument) :
    Classifies (x.walked s) := by
  have hwrap (required : Bool) (e : Entry) (f : Failure) (h : e.wrapFault? required = some f) :
      f.isUnclassifiable = false := by
    cases e with
    | type t => cases h
    | foreign x =>
      unfold Entry.wrapFault? at h
      dsimp only at h
      split at h
      · cases h
        rfl
      · split at h
        · cases h
          rfl
        · cases h
  have hfault (t : TypeRef) (f : Failure) (h : s.variableFault? t = some f) :
      f.isUnclassifiable = false := by
    fun_induction s.variableFault? t with
    | case1 n =>
      obtain ⟨e, -, he⟩ := Option.bind_eq_some_iff.1 h
      exact hwrap true e f he
    | case2 n required hrequired => cases h
    | case3 n required =>
      obtain ⟨e, -, he⟩ := Option.bind_eq_some_iff.1 h
      exact hwrap false e f he
    | case4 item required hitem ih => exact ih h
  cases x with
  | other shown => exact .error rfl
  | document d =>
    rw [walked, Document.walked]
    cases hd : d.variableTypes.findSome? s.variableFault? with
    | none => exact .ok d
    | some f =>
      obtain ⟨t, -, ht⟩ := List.exists_of_findSome?_eq_some hd
      exact .error (hfault t f ht)

theorem Documents.walked_classifies (s : Schema) (d : Documents) : Classifies (d.walked s) :=
  d.listed_classifies.bind (Classifies.mapM (GivenDocument.walked_classifies s))

end SchemaContext
