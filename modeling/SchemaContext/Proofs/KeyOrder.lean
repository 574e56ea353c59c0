import Mathlib.Data.List.Sort
import Mathlib.Data.String.Basic
import SchemaContext.Proofs.NumberOrder
import SchemaContext.Proofs.MappingKeys

/-!
# Keys in order

Keys can be sorted if any two of them have an order. If they can be put in a row in which
each is before all that follow, they are sorted into this row. Different texts can, and so
can numbers other than NaN that differ in value.
-/

namespace SchemaContext

namespace Value

def Precedes (a b : Value) : Prop := a.before b = .ok true ∧ b.before a = .ok false

variable {a b : Value}

theorem before_str (s t : String) : (str s).before (str t) = .ok (decide (s < t)) := rfl

theorem before_of_isNumber (ha : a.isNumber = true) (hb : b.isNumber = true) :
    a.before b = .ok (a.numberBefore b) := by
  cases a <;> cases ha <;> cases b <;> cases hb <;> rfl

theorem numberBefore_self (a : Value) : a.numberBefore a = false := by
  unfold numberBefore
  cases a.magnitude? with
  | none => rfl
  | some m => exact (m.less_eq m).trans (decide_eq_false (lt_irrefl _))

mutual

theorem before_self (v : Value) : v.before v ≠ .ok true := by
  cases v with
  | tuple items =>
    rw [before]
    exact itemsBefore_self items
  | str s => simp [before_str]
  | bool _ | int _ | float _ | notNumber =>
    rw [before_of_isNumber rfl rfl, numberBefore_self]
    simp
  | _ => nofun

theorem itemsBefore_self (items : List Value) : itemsBefore items items ≠ .ok true := by
  cases items with
  | nil => simp [itemsBefore]
  | cons v rest =>
    rw [itemsBefore]
    split
    · exact itemsBefore_self rest
    · exact before_self v

end

def place (v : Value) : WithBot (WithTop ℚ) := (v.magnitude?.map Magnitude.place).getD ⊥

theorem isNumber_of_magnitude? (h : a.magnitude?.isSome = true) : a.isNumber = true := by
  cases a <;> first | rfl | cases h

theorem before_of_magnitude? (ha : a.magnitude?.isSome = true) (hb : b.magnitude?.isSome = true) :
    a.before b = .ok (decide (a.place < b.place)) := by
  obtain ⟨m, hm⟩ := Option.isSome_iff_exists.1 ha
  obtain ⟨n, hn⟩ := Option.isSome_iff_exists.1 hb
  rw [before_of_isNumber (isNumber_of_magnitude? ha) (isNumber_of_magnitude? hb), numberBefore,
    place, place, hm, hn]
  exact congrArg Except.ok (m.less_eq n)

theorem integer?_of_place {m : Magnitude} {k : Int} (ha : a.magnitude? = some m)
    (h : m.place = (Magnitude.ofInt k).place) : a.integer? = some k := by
  have hinj {i : Int} (h : (Magnitude.ofInt i).place = (Magnitude.ofInt k).place) : i = k := by
    simpa [Magnitude.ofInt, Magnitude.place] using h
  cases a with
  | bool b =>
    obtain rfl := Option.some.inj ha
    exact congrArg some (hinj h)
  | int n =>
    obtain rfl := Option.some.inj ha
    exact congrArg some (hinj h)
  | float x => exact Binary64.toInt?_of_place ha h
  | _ => cases ha

theorem equal_of_place (ha : a.magnitude?.isSome = true) (hb : b.magnitude?.isSome = true)
    (h : a.place = b.place) : a.equal .apart b = true := by
  obtain ⟨m, hm⟩ := Option.isSome_iff_exists.1 ha
  obtain ⟨n, hn⟩ := Option.isSome_iff_exists.1 hb
  have hplace : m.place = n.place := by
    rw [place, place, hm, hn] at h
    exact h
  cases a with
  | bool v =>
    obtain rfl := Option.some.inj hm
    rw [equal, integer?_of_place hn hplace.symm, beq_self_eq_true]
  | int i =>
    obtain rfl := Option.some.inj hm
    rw [equal, integer?_of_place hn hplace.symm, beq_self_eq_true]
  | float x =>
    cases b with
    | float y =>
      have hequal : x.equal y = true := Binary64.equal_of_place hm hn hplace
      rw [equal, floatEqual, hequal, Bool.true_or]
    | bool v =>
      obtain rfl := Option.some.inj hn
      have hx : x.toInt? = some _ := integer?_of_place hm hplace
      simp [equal, hx, integer?]
    | int i =>
      obtain rfl := Option.some.inj hn
      have hx : x.toInt? = some _ := integer?_of_place hm hplace
      simp [equal, hx, integer?]
    | _ => cases hb
  | _ => cases ha

end Value

namespace Settings

variable {ks row : List Value}

theorem inOrder_iff_of_row (h : row.Pairwise Value.Precedes) {i j : Fin row.length} :
    inOrder (row.get i) (row.get j) = true ↔ i ≤ j := by
  have hrow := List.pairwise_iff_get.1 h
  have hbefore : inOrder (row.get i) (row.get j) = true ↔
      (row.get j).before (row.get i) ≠ .ok true := by
    unfold inOrder
    cases (row.get j).before (row.get i) with
    | ok r => simp [Except.toOption]
    | error sorts => simp [Except.toOption]
  rw [hbefore]
  rcases lt_trichotomy i j with hlt | rfl | hgt
  · rw [(hrow i j hlt).2]
    simp [hlt.le]
  · simp [Value.before_self]
  · rw [(hrow j i hgt).1]
    simp [hgt.not_ge]

/-- Keys are sorted into the row that they can be put in. -/
theorem mergeSort_eq_of_row (hperm : row.Perm ks) (hrow : row.Pairwise Value.Precedes) :
    ks.mergeSort inOrder = row := by
  have hrow_get : (List.finRange row.length).map row.get = row := List.map_get_finRange row
  obtain ⟨positions, hpositions, rfl⟩ :
      ∃ positions : List (Fin row.length),
        positions.Perm (List.finRange row.length) ∧ positions.map row.get = ks := by
    have hall : List.Forall₂ (fun v i => row.get i = v) ((List.finRange row.length).map row.get)
        (List.finRange row.length) :=
      List.forall₂_map_left_iff.2 (List.forall₂_same.2 fun _ _ => rfl)
    rw [hrow_get] at hall
    obtain ⟨positions, hks, hpositions⟩ := List.perm_comp_forall₂ hperm.symm hall
    refine ⟨positions, hpositions, ?_⟩
    rw [← List.forall₂_eq_eq_eq, List.forall₂_map_left_iff]
    exact hks.flip
  have hsorted : positions.mergeSort (fun i j => decide (i ≤ j)) = List.finRange row.length :=
    ((List.mergeSort_perm positions _).trans hpositions).eq_of_pairwise'
      (List.pairwise_mergeSort' (· ≤ ·) positions) (List.pairwise_le_finRange _)
  rw [← List.map_mergeSort (r := fun i j => decide (i ≤ j)), hsorted, hrow_get]
  intro i _ j _
  rw [Bool.eq_iff_iff, decide_eq_true_iff, inOrder_iff_of_row hrow]

/-- Keys whose order is that of ranks, no two of one rank, can be put in a row. -/
theorem exists_row_of_rank {α : Type*} [LinearOrder α] (rank : Value → α)
    (hbefore : ∀ a ∈ ks, ∀ b ∈ ks, a.before b = .ok (decide (rank a < rank b)))
    (hne : ks.Pairwise fun a b => rank a ≠ rank b) :
    ∃ row : List Value, row.Perm ks ∧ row.Pairwise Value.Precedes := by
  have hperm := List.mergeSort_perm ks fun a b => decide (rank a ≤ rank b)
  refine ⟨_, hperm, ?_⟩
  have hascending : (ks.mergeSort fun a b => decide (rank a ≤ rank b)).Pairwise
      fun a b => decide (rank a ≤ rank b) = true := by
    refine List.pairwise_mergeSort (fun a b c hab hbc => ?_) (fun a b => ?_) ks
    · rw [decide_eq_true_iff] at hab hbc ⊢
      exact hab.trans hbc
    · rw [Bool.or_eq_true, decide_eq_true_iff, decide_eq_true_iff]
      exact le_total _ _
  have hdifferent := (hperm.pairwise_iff fun h => Ne.symm h).2 hne
  refine (hascending.and hdifferent).imp_of_mem fun {a b} ha hb hab => ?_
  have hlt : rank a < rank b := lt_of_le_of_ne (of_decide_eq_true hab.1) hab.2
  rw [Value.Precedes, hbefore a (hperm.mem_iff.1 ha) b (hperm.mem_iff.1 hb),
    hbefore b (hperm.mem_iff.1 hb) a (hperm.mem_iff.1 ha), decide_eq_true hlt,
    decide_eq_false hlt.not_gt]
  exact ⟨rfl, rfl⟩

theorem undecided?_eq_none_iff {k other : Value} :
    undecided? k other = none ↔ ∃ r, k.before other = .ok r := by
  unfold undecided?
  cases k.before other <;> simp

/-- Keys can be sorted if any two of them have an order. -/
theorem unordered?_eq_none_iff {earlier : List Value} :
    unordered? ks earlier = none ↔
      (ks.Pairwise fun k k' => ∃ r, k'.before k = .ok r) ∧
        ∀ k ∈ ks, ∀ k' ∈ earlier, ∃ r, k.before k' = .ok r := by
  induction ks generalizing earlier with
  | nil => simp [unordered?]
  | cons k rest ih =>
    rw [unordered?, Option.or_eq_none_iff, ih, List.findSome?_eq_none_iff]
    simp only [undecided?_eq_none_iff, List.pairwise_cons, List.forall_mem_cons]
    grind

end Settings
end SchemaContext
