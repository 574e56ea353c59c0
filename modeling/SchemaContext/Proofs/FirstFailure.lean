import SchemaContext.Proofs.Success

/-!
# Computations that fail

A sequence of computations fails with its first failure. Two computations fail alike
where one fails exactly if the other does, and with the same failure; what is done for
the elements of a list, each in steps of its own, fails as all the steps in order do.
-/

namespace SchemaContext

theorem bind_eq_error_iff {x : Except ε α} {f : α → Except ε β} {e : ε} :
    x >>= f = .error e ↔ x = .error e ∨ ∃ a, x = .ok a ∧ f a = .error e := by
  cases x with
  | error e' => simp [bind, Except.bind]
  | ok a => simp [bind, Except.bind]

theorem mapError_eq_ok_iff {x : Except ε α} {g : ε → ε'} {a : α} :
    x.mapError g = .ok a ↔ x = .ok a := by
  cases x <;> simp [Except.mapError]

theorem mapError_eq_error_iff {x : Except ε α} {g : ε → ε'} {e' : ε'} :
    x.mapError g = .error e' ↔ ∃ e, x = .error e ∧ g e = e' := by
  cases x <;> simp [Except.mapError]

theorem mapM_mapError (g : ε → ε') (f : α → Except ε β) (as : List α) :
    (as.mapM fun a => (f a).mapError g) = (as.mapM f).mapError g := by
  induction as with
  | nil => rfl
  | cons a as ih =>
    rw [List.mapM_cons, List.mapM_cons, ih]
    cases f a with
    | error e => rfl
    | ok b => cases as.mapM f <;> rfl

/-- What is done for the elements of a list fails at the first for which it cannot be done. -/
theorem mapM_eq_error_iff {f : α → Except ε β} {as : List α} {e : ε} :
    as.mapM f = .error e ↔
      ∃ before a after, as = before ++ a :: after ∧ (∀ b ∈ before, ∃ c, f b = .ok c) ∧
        f a = .error e := by
  induction as with
  | nil => simp [pure, Except.pure]
  | cons a as ih =>
    rw [List.mapM_cons, bind_eq_error_iff]
    simp only [bind_eq_error_iff, ih]
    constructor
    · rintro (h | ⟨b, hb, ⟨before, a', after, rfl, hbefore, h⟩ | ⟨bs, -, h⟩⟩)
      · exact ⟨[], a, as, rfl, by simp, h⟩
      · exact ⟨a :: before, a', after, rfl, List.forall_mem_cons.2 ⟨⟨b, hb⟩, hbefore⟩, h⟩
      · cases h
    · rintro ⟨before, a', after, has, hbefore, h⟩
      cases before with
      | nil =>
        cases has
        exact .inl h
      | cons b before =>
        cases has
        obtain ⟨⟨c, hc⟩, hbefore⟩ := List.forall_mem_cons.1 hbefore
        exact .inr ⟨c, hc, .inl ⟨before, a', after, rfl, hbefore, h⟩⟩

/-- Two computations fail alike: with the same failure, or both not at all. -/
def FailsAs (x : Except ε α) (y : Except ε β) : Prop := ∀ e, x = .error e ↔ y = .error e

namespace FailsAs

variable {x : Except ε α} {y : Except ε β}

theorem refl (x : Except ε α) : FailsAs x x := fun _ => Iff.rfl

theorem symm (h : FailsAs x y) : FailsAs y x := fun e => (h e).symm

theorem trans {z : Except ε γ} (hxy : FailsAs x y) (hyz : FailsAs y z) : FailsAs x z :=
  fun e => (hxy e).trans (hyz e)

theorem ok (a : α) (b : β) : FailsAs (.ok a : Except ε α) (.ok b : Except ε β) := by
  intro e
  simp

theorem succeeds_iff (h : FailsAs x y) : (∃ a, x = .ok a) ↔ ∃ b, y = .ok b := by
  cases x with
  | error e => simp [(h e).1 rfl]
  | ok a =>
    cases y with
    | error e => exact absurd ((h e).2 rfl) (by simp)
    | ok b => simp

theorem bind {f : α → Except ε γ} {g : β → Except ε δ} (h : FailsAs x y)
    (hfg : ∀ a b, x = .ok a → y = .ok b → FailsAs (f a) (g b)) : FailsAs (x >>= f) (y >>= g) := by
  cases x with
  | error e =>
    rw [(h e).1 rfl]
    exact fun e' => by rw [bind_eq_error_iff, bind_eq_error_iff]; simp
  | ok a =>
    cases y with
    | error e => exact absurd ((h e).2 rfl) (by simp)
    | ok b => exact hfg a b rfl rfl

/-- What follows and does not fail plays no part. -/
theorem bind_ok {f : α → Except ε γ} (h : FailsAs x y) (hf : ∀ a, x = .ok a → ∃ c, f a = .ok c) :
    FailsAs (x >>= f) y := by
  intro e
  rw [bind_eq_error_iff, h e, or_iff_left]
  rintro ⟨a, ha, he⟩
  obtain ⟨c, hc⟩ := hf a ha
  cases hc.symm.trans he

theorem bind_pure {f : α → γ} (h : FailsAs x y) : FailsAs (x >>= fun a => pure (f a)) y :=
  h.bind_ok fun a _ => ⟨f a, rfl⟩

theorem mapError (g : ε → ε') (h : FailsAs x y) : FailsAs (x.mapError g) (y.mapError g) := by
  intro e'
  simp only [mapError_eq_error_iff, h _]

variable {r : κ → Except ε δ}

theorem single (k : κ) : FailsAs (r k) ([k].mapM r) := by
  rw [List.mapM_cons, List.mapM_nil]
  exact (refl (r k)).bind_pure.symm

theorem append {f : α → Except ε γ} {ks ls : List κ} (hx : FailsAs x (ks.mapM r))
    (hf : ∀ a, x = .ok a → FailsAs (f a) (ls.mapM r)) : FailsAs (x >>= f) ((ks ++ ls).mapM r) := by
  rw [List.mapM_append]
  refine hx.bind fun a _ ha _ => ?_
  exact (hf a ha).trans (refl _).bind_pure.symm

theorem mapM {f : α → Except ε β} {steps : α → List κ} {as : List α}
    (h : ∀ a ∈ as, FailsAs (f a) ((steps a).mapM r)) :
    FailsAs (as.mapM f) ((as.flatMap steps).mapM r) := by
  induction as with
  | nil => exact ok [] []
  | cons a as ih =>
    rw [List.mapM_cons, List.flatMap_cons]
    refine append (h a List.mem_cons_self) fun b _ => ?_
    exact (ih fun a ha => h a (List.mem_cons_of_mem _ ha)).bind_pure

theorem mapM_map {f : α → Except ε β} {step : α → κ} (as : List α)
    (h : ∀ a, FailsAs (f a) (r (step a))) : FailsAs (as.mapM f) ((as.map step).mapM r) := by
  rw [List.map_eq_flatMap]
  exact mapM fun a _ => (h a).trans (single (step a))

end FailsAs
end SchemaContext
