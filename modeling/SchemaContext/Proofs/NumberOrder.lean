import Mathlib.Algebra.Order.Field.Rat
import Mathlib.Order.Monotone.Basic
import Mathlib.Order.WithBot
import Mathlib.Tactic.Positivity
import Mathlib.Tactic.Ring
import SchemaContext.Value.Order

/-!
# Order of numbers

A number that is no NaN has a place among the rationals or at one of their two ends. It
is before another where its place is, and numbers in one place are equal: a double is
given by its place, but for the sign of zero.
-/

namespace SchemaContext

theorem Binary64.powerOfTwo_eq (n : Nat) : powerOfTwo n = 2 ^ n := rfl

namespace Magnitude

def place : Magnitude → WithBot (WithTop ℚ)
  | lowest => ⊥
  | finite n halvings => ((n / 2 ^ halvings : ℚ) : WithTop ℚ)
  | highest => (⊤ : WithTop ℚ)

theorem less_eq (m n : Magnitude) : m.less n = decide (m.place < n.place) := by
  cases m with
  | lowest => cases n <;> simp [less, place]
  | highest => cases n <;> simp [less, place]
  | finite i j =>
    cases n with
    | lowest => simp [less, place]
    | highest =>
      have hbelow : (finite i j).place < highest.place :=
        WithBot.coe_lt_coe.2 (WithTop.coe_lt_top _)
      rw [less, decide_eq_true hbelow]
    | finite k l =>
      have hpowers (n : Nat) : (0 : ℚ) < 2 ^ n := by positivity
      rw [less, place, place, decide_eq_decide, WithBot.coe_lt_coe, WithTop.coe_lt_coe,
        div_lt_div_iff₀ (hpowers j) (hpowers l), Binary64.powerOfTwo_eq, Binary64.powerOfTwo_eq]
      norm_cast

end Magnitude

namespace Binary64

def unsigned (x : Binary64) : Nat := x.bits.toNat % powerOfTwo 63

def negative (x : Binary64) : Bool := x.bits.toNat / powerOfTwo 63 == 1

/-- How often the smallest double above zero goes into the double with given bits below the sign. -/
def units (bits : Nat) : Nat :=
  if bits / powerOfTwo 52 = 0 then bits
  else (powerOfTwo 52 + bits % powerOfTwo 52) * 2 ^ (bits / powerOfTwo 52 - 1)

theorem units_lt_succ (bits : Nat) : units bits < units (bits + 1) := by
  have hlarge : powerOfTwo 52 = 4503599627370496 := rfl
  unfold units
  rw [hlarge]
  by_cases hcarry : bits % 4503599627370496 + 1 < 4503599627370496
  · have hquotient : (bits + 1) / 4503599627370496 = bits / 4503599627370496 := by omega
    have hremainder : (bits + 1) % 4503599627370496 = bits % 4503599627370496 + 1 := by omega
    rw [hquotient, hremainder]
    split
    · omega
    · exact Nat.mul_lt_mul_of_pos_right (by omega) (by positivity)
  · have hquotient : (bits + 1) / 4503599627370496 = bits / 4503599627370496 + 1 := by omega
    have hremainder : (bits + 1) % 4503599627370496 = 0 := by omega
    rw [hquotient, hremainder]
    split
    case isTrue hzero =>
      rw [hzero, if_neg (by decide), Nat.zero_add, Nat.sub_self, pow_zero]
      omega
    case isFalse hne =>
      obtain ⟨b, hb⟩ := Nat.exists_eq_succ_of_ne_zero hne
      have hpower : 0 < 2 ^ b := by positivity
      rw [hb, if_neg (Nat.succ_ne_zero _), Nat.succ_sub_one, Nat.add_sub_cancel,
        Nat.succ_eq_add_one, pow_succ]
      calc (4503599627370496 + bits % 4503599627370496) * 2 ^ b
          < (4503599627370496 * 2) * 2 ^ b := Nat.mul_lt_mul_of_pos_right (by omega) hpower
        _ = (4503599627370496 + 0) * (2 ^ b * 2) := by ring

theorem units_strictMono : StrictMono units := strictMono_nat_of_lt_succ units_lt_succ

theorem eq_of_bits {x y : Binary64} (hsign : x.negative = y.negative)
    (hunsigned : x.unsigned = y.unsigned) : x = y := by
  have hx := x.bits.toNat_lt
  have hy := y.bits.toNat_lt
  have hlarge : powerOfTwo 63 = 9223372036854775808 := rfl
  obtain ⟨x⟩ := x
  obtain ⟨y⟩ := y
  rw [negative, negative, hlarge, Bool.eq_iff_iff, beq_iff_eq, beq_iff_eq] at hsign
  rw [unsigned, unsigned, hlarge] at hunsigned
  rw [mk.injEq, ← UInt64.toNat_inj]
  dsimp only at *
  omega

theorem decode_eq (x : Binary64) :
    x.decode =
      if x.unsigned / powerOfTwo 52 = 2047 then
        if x.unsigned % powerOfTwo 52 = 0 then .infinite x.negative else .nan
      else if x.unsigned / powerOfTwo 52 = 0 then .finite x.negative x.unsigned leastExponent
      else .finite x.negative (powerOfTwo 52 + x.unsigned % powerOfTwo 52)
        ((x.unsigned / powerOfTwo 52 : Nat) - 1 + leastExponent) := by
  have h63 : powerOfTwo 63 = 9223372036854775808 := rfl
  have h52 : powerOfTwo 52 = 4503599627370496 := rfl
  have h11 : powerOfTwo 11 = 2048 := rfl
  unfold decode unsigned negative fractionBits
  rw [h63, h52, h11]
  have hbiased : x.bits.toNat / 4503599627370496 % 2048 =
      x.bits.toNat % 9223372036854775808 / 4503599627370496 := by omega
  have hfraction : x.bits.toNat % 4503599627370496 =
      x.bits.toNat % 9223372036854775808 % 4503599627370496 := by omega
  dsimp only
  rw [hbiased, hfraction]
  split
  · rfl
  · split
    · rename_i hzero
      congr 1
      omega
    · rfl

theorem signed_mul (negative : Bool) (m n : Nat) :
    signed negative (m * n) = signed negative m * n := by
  cases negative <;> simp [signed]

theorem signed_natAbs (negative : Bool) (n : Nat) : (signed negative n).natAbs = n := by
  cases negative <;> simp [signed]

/-- How often one is halved to come to a unit. -/
def unitHalvings : Nat := (-leastExponent).toNat

/-- The significand times a power of two is a number of units. -/
theorem units_of_finite {x : Binary64} {negative : Bool} {m : Nat} {e : Int}
    (h : x.decode = .finite negative m e) :
    negative = x.negative ∧
      m * 2 ^ e.toNat * 2 ^ unitHalvings = units x.unsigned * 2 ^ (-e).toNat := by
  rw [decode_eq] at h
  split at h
  · split at h <;> cases h
  · unfold units
    split at h
    case isTrue hzero =>
      obtain ⟨rfl, rfl, rfl⟩ := Decoded.finite.inj h
      have hwhole : leastExponent.toNat = 0 := rfl
      rw [if_pos hzero, hwhole, pow_zero, mul_one, unitHalvings]
      exact ⟨rfl, rfl⟩
    case isFalse hne =>
      obtain ⟨rfl, rfl, rfl⟩ := Decoded.finite.inj h
      have hleast : leastExponent = -1074 := rfl
      have hhalvings : unitHalvings = 1074 := rfl
      rw [if_neg hne, mul_assoc, mul_assoc, ← pow_add, ← pow_add, hleast, hhalvings]
      refine ⟨rfl, ?_⟩
      congr 2
      generalize x.unsigned / powerOfTwo 52 = biased at *
      omega

theorem magnitude?_of_finite {x : Binary64} {negative : Bool} {m : Nat} {e : Int}
    (h : x.decode = .finite negative m e) :
    x.magnitude? = some (.finite (signed negative (m * 2 ^ e.toNat)) (-e).toNat) := by
  rw [magnitude?, h, ← powerOfTwo_eq]

theorem place_of_finite {x : Binary64} {negative : Bool} {m : Nat} {e : Int}
    (h : x.decode = .finite negative m e) :
    (signed negative (m * 2 ^ e.toNat) / 2 ^ (-e).toNat : ℚ) =
      signed x.negative (units x.unsigned) / 2 ^ unitHalvings := by
  obtain ⟨rfl, hunits⟩ := units_of_finite h
  have hsigned := congrArg (signed x.negative) hunits
  rw [signed_mul, signed_mul _ (units _)] at hsigned
  rw [div_eq_div_iff (by positivity) (by positivity)]
  exact_mod_cast hsigned

/-- The place of the double that is above or below all others. -/
def extreme (negative : Bool) : WithBot (WithTop ℚ) := if negative then ⊥ else (⊤ : WithTop ℚ)

theorem extreme_inj {a b : Bool} (h : extreme a = extreme b) : a = b := by
  cases a <;> cases b <;> simp_all [extreme]

theorem extreme_ne_coe (a : Bool) (q : ℚ) :
    extreme a ≠ ((q : WithTop ℚ) : WithBot (WithTop ℚ)) := by
  cases a
  · intro h
    exact WithTop.coe_ne_top (WithBot.coe_inj.1 h).symm
  · exact WithBot.bot_ne_coe

theorem place_cases {x : Binary64} {m : Magnitude} (h : x.magnitude? = some m) :
    (x.unsigned = 2047 * powerOfTwo 52 ∧ m.place = extreme x.negative) ∨
      m.place = ((signed x.negative (units x.unsigned) / 2 ^ unitHalvings : ℚ) : WithTop ℚ) := by
  cases hdecode : x.decode with
  | nan =>
    rw [magnitude?, hdecode] at h
    cases h
  | infinite negative =>
    rw [magnitude?, hdecode] at h
    rw [decode_eq] at hdecode
    split at hdecode
    case isTrue hbiased =>
      split at hdecode
      case isTrue hfraction =>
        obtain rfl := Decoded.infinite.inj hdecode
        have hbits := Nat.div_add_mod x.unsigned (powerOfTwo 52)
        rw [hbiased, hfraction, Nat.add_zero, mul_comm] at hbits
        obtain rfl := Option.some.inj h
        refine .inl ⟨hbits.symm, ?_⟩
        cases x.negative <;> rfl
      case isFalse => cases hdecode
    case isFalse => split at hdecode <;> cases hdecode
  | finite negative s e =>
    rw [magnitude?_of_finite hdecode, Option.some.injEq] at h
    rw [← h, Magnitude.place, place_of_finite hdecode]
    exact .inr rfl

theorem signed_inj {a b : Bool} {m n : Nat} (h : signed a m = signed b n) :
    m = n ∧ (a = b ∨ m = 0) := by
  cases a <;> cases b <;> simp only [signed] at h <;> grind

theorem isNaN_of_magnitude? {x : Binary64} {m : Magnitude} (h : x.magnitude? = some m) :
    x.isNaN = false := by
  unfold magnitude? at h
  unfold isNaN
  split at h
  case h_1 => cases h
  all_goals simp_all

/-- Doubles in one place are the same or both zero. -/
theorem eq_or_zero_of_place {x y : Binary64} {m n : Magnitude} (hx : x.magnitude? = some m)
    (hy : y.magnitude? = some n) (h : m.place = n.place) :
    x = y ∨ (x.unsigned = 0 ∧ y.unsigned = 0) := by
  rcases place_cases hx with ⟨hxbits, hxplace⟩ | hxplace <;>
    rcases place_cases hy with ⟨hybits, hyplace⟩ | hyplace <;> rw [hxplace, hyplace] at h
  · exact .inl (eq_of_bits (extreme_inj h) (hxbits.trans hybits.symm))
  · exact absurd h (extreme_ne_coe _ _)
  · exact absurd h.symm (extreme_ne_coe _ _)
  · have hzero : units 0 = 0 := rfl
    have hpower : (2 ^ unitHalvings : ℚ) ≠ 0 := by positivity
    rw [WithBot.coe_inj, WithTop.coe_inj, div_left_inj' hpower, Int.cast_inj] at h
    obtain ⟨hunits, hsign | hnone⟩ := signed_inj h
    · exact .inl (eq_of_bits hsign (units_strictMono.injective hunits))
    · exact .inr ⟨units_strictMono.injective (hnone.trans hzero.symm),
        units_strictMono.injective ((hunits.symm.trans hnone).trans hzero.symm)⟩

theorem equal_of_place {x y : Binary64} {m n : Magnitude} (hx : x.magnitude? = some m)
    (hy : y.magnitude? = some n) (h : m.place = n.place) : x.equal y = true := by
  rw [equal, isNaN_of_magnitude? hx, isNaN_of_magnitude? hy]
  rcases eq_or_zero_of_place hx hy h with rfl | ⟨hxzero, hyzero⟩
  · simp
  · rw [unsigned] at hxzero hyzero
    simp [isZero, hxzero, hyzero]

theorem toInt?_of_place {x : Binary64} {m : Magnitude} {k : Int} (hx : x.magnitude? = some m)
    (h : m.place = (Magnitude.ofInt k).place) : x.toInt? = some k := by
  cases hdecode : x.decode with
  | nan =>
    rw [magnitude?, hdecode] at hx
    cases hx
  | infinite negative =>
    rw [magnitude?, hdecode] at hx
    obtain rfl := Option.some.inj hx
    cases negative
    · exact absurd h (extreme_ne_coe false _)
    · exact absurd h (extreme_ne_coe true _)
  | finite negative s e =>
    rw [magnitude?_of_finite hdecode, Option.some.injEq] at hx
    rw [← hx, Magnitude.ofInt, Magnitude.place, Magnitude.place, WithBot.coe_inj, WithTop.coe_inj,
      pow_zero, div_one, div_eq_iff (by positivity)] at h
    have hplace : signed negative (s * 2 ^ e.toNat) = k * 2 ^ (-e).toNat := by exact_mod_cast h
    rw [toInt?, hdecode]
    dsimp only
    split
    case isTrue hwhole =>
      rw [Int.toNat_of_nonpos (by omega : -e ≤ 0), pow_zero, mul_one] at hplace
      rw [powerOfTwo_eq, hplace]
    case isFalse hpart =>
      rw [Int.toNat_of_nonpos (by omega : e ≤ 0), pow_zero, mul_one] at hplace
      have hpower : 0 < 2 ^ (-e).toNat := by positivity
      have hs : s = k.natAbs * 2 ^ (-e).toNat := by
        rw [← signed_natAbs negative s, hplace, Int.natAbs_mul, Int.natAbs_pow]
        rfl
      have hk : signed negative k.natAbs = k := by
        rw [hs, signed_mul] at hplace
        exact mul_right_cancel₀ (by exact_mod_cast hpower.ne') hplace
      have hdivides : s % powerOfTwo (-e).toNat = 0 := by
        rw [powerOfTwo_eq, hs, Nat.mul_mod_left]
      have hquotient : s / powerOfTwo (-e).toNat = k.natAbs := by
        rw [powerOfTwo_eq, hs, Nat.mul_div_cancel _ hpower]
      rw [if_pos hdivides, hquotient, hk]

end Binary64
end SchemaContext
