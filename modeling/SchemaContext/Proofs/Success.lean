import Mathlib.Data.List.Forall2
import SchemaContext.Record.Transformers

/-!
# Computations that succeed

What a computation that succeeded was made of: the steps of a sequence of computations
that may fail, and the results for the elements of a list. Proofs about contexts go
through these lemmas and do not open the monads.
-/

namespace SchemaContext

theorem bind_eq_ok_iff {x : Except ε α} {f : α → Except ε β} {b : β} :
    x >>= f = .ok b ↔ ∃ a, x = .ok a ∧ f a = .ok b := by
  cases x with
  | error e => simp [bind, Except.bind]
  | ok a => simp [bind, Except.bind]

theorem bind_congr_of_ok {x : Except ε α} {f g : α → Except ε β} (h : ∀ a, x = .ok a → f a = g a) :
    x >>= f = x >>= g := by
  cases x with
  | error e => rfl
  | ok a => exact h a rfl

theorem map_eq_ok_iff {x : Except ε α} {f : α → β} {b : β} :
    f <$> x = .ok b ↔ ∃ a, x = .ok a ∧ f a = b := by
  cases x with
  | error e => simp
  | ok a => simp

/-- Computations whose results look alike, or that fail alike, may be followed by what does not tell
such results apart. -/
theorem bind_eq_of_map_eq {v : α → β} {x y : Except ε α} {f g : α → Except ε γ}
    (h : v <$> y = v <$> x) (hfg : ∀ a b, v b = v a → g b = f a) : y >>= g = x >>= f := by
  cases x with
  | error e =>
    cases y with
    | error e' =>
      cases h
      rfl
    | ok b => cases h
  | ok a =>
    cases y with
    | error e' => cases h
    | ok b => exact hfg a b (Except.ok.inj h)

theorem map_eq_of_map_eq {v : α → β} {x y : Except ε α} {f g : α → γ} (h : v <$> y = v <$> x)
    (hfg : ∀ a b, v b = v a → g b = f a) : g <$> y = f <$> x := by
  rw [map_eq_pure_bind, map_eq_pure_bind]
  exact bind_eq_of_map_eq h fun a b hab => congrArg pure (hfg a b hab)

theorem map_pair_eq {α β γ : Type u} {f : α → β} {g : α → γ} {x y : Except ε α}
    (hf : f <$> y = f <$> x) (hg : g <$> y = g <$> x) :
    (fun a => (f a, g a)) <$> y = (fun a => (f a, g a)) <$> x := by
  cases x with
  | error e =>
    cases y with
    | error e' =>
      cases hf
      rfl
    | ok b => cases hf
  | ok a =>
    cases y with
    | error e' => cases hf
    | ok b => exact congrArg Except.ok (Prod.ext (Except.ok.inj hf) (Except.ok.inj hg))

/-- The results for a list are those for its elements, one by one. -/
theorem mapM_eq_ok_iff {f : α → Except ε β} {as : List α} {bs : List β} :
    as.mapM f = .ok bs ↔ List.Forall₂ (fun a b => f a = .ok b) as bs := by
  induction as generalizing bs with
  | nil => cases bs <;> simp [pure, Except.pure]
  | cons a as ih =>
    rw [List.mapM_cons, bind_eq_ok_iff]
    constructor
    · rintro ⟨b, hb, h⟩
      obtain ⟨rest, hrest, he⟩ := bind_eq_ok_iff.1 h
      cases he
      exact .cons hb (ih.1 hrest)
    · rintro (_ | ⟨hb, hrest⟩)
      exact ⟨_, hb, bind_eq_ok_iff.2 ⟨_, ih.2 hrest, rfl⟩⟩

theorem mapM_map_eq {f : β → Except ε γ} {g : α → Except ε γ} {h : α → β} {as : List α}
    (hfg : ∀ a ∈ as, f (h a) = g a) : (as.map h).mapM f = as.mapM g := by
  induction as with
  | nil => rfl
  | cons a as ih =>
    rw [List.map_cons, List.mapM_cons, List.mapM_cons, hfg a List.mem_cons_self,
      ih fun a ha => hfg a (List.mem_cons_of_mem _ ha)]

theorem mapM_eq_of_forall₂ {f : α → Except ε γ} {g : β → Except ε γ} {as : List α} {bs : List β}
    (h : List.Forall₂ (fun a b => g b = f a) as bs) : bs.mapM g = as.mapM f := by
  induction h with
  | nil => rfl
  | cons hab _ ih => rw [List.mapM_cons, List.mapM_cons, hab, ih]

theorem exists_forall₂ {R : α → β → Prop} {as : List α} (h : ∀ a ∈ as, ∃ b, R a b) :
    ∃ bs, List.Forall₂ R as bs := by
  induction as with
  | nil => exact ⟨[], .nil⟩
  | cons a as ih =>
    obtain ⟨b, hb⟩ := h a List.mem_cons_self
    obtain ⟨bs, hbs⟩ := ih fun a ha => h a (List.mem_cons_of_mem _ ha)
    exact ⟨b :: bs, .cons hb hbs⟩

theorem exists_iff_of_forall₂ {R : α → β → Prop} {p : α → Prop} {q : β → Prop} {as : List α}
    {bs : List β} (h : List.Forall₂ R as bs) (hpq : ∀ a b, R a b → (p a ↔ q b)) :
    (∃ a ∈ as, p a) ↔ ∃ b ∈ bs, q b := by
  induction h with
  | nil => simp
  | cons hab _ ih => simp only [List.exists_mem_cons_iff, hpq _ _ hab, ih]

theorem exists_mem_of_forall₂ {R : α → β → Prop} {as : List α} {bs : List β}
    (h : List.Forall₂ R as bs) {b : β} (hb : b ∈ bs) : ∃ a ∈ as, R a b := by
  induction h with
  | nil => exact absurd hb List.not_mem_nil
  | @cons a' b' as bs hab _ ih =>
    rcases List.mem_cons.1 hb with rfl | hb
    · exact ⟨a', List.mem_cons_self, hab⟩
    · obtain ⟨a, ha, hr⟩ := ih hb
      exact ⟨a, List.mem_cons_of_mem _ ha, hr⟩

theorem exists_mapM_iff {f : α → Except ε β} {as : List α} :
    (∃ bs, as.mapM f = .ok bs) ↔ ∀ a ∈ as, ∃ b, f a = .ok b := by
  simp only [mapM_eq_ok_iff]
  constructor
  · rintro ⟨bs, h⟩ a ha
    obtain ⟨b, -, hb⟩ := exists_mem_of_forall₂ h.flip ha
    exact ⟨b, hb⟩
  · exact exists_forall₂

namespace Failure

theorem ofArguments_eq_ok_iff {x : Except ArgumentFault α} {a : α} :
    ofArguments x = .ok a ↔ x = .ok a := by
  cases x with
  | error e => simp [ofArguments, Except.mapError]
  | ok b => simp [ofArguments, Except.mapError]

end Failure

end SchemaContext
