import Rollup.Proofs.Binary64.Rounding
import Rollup.Proofs.Text.Digits

/-!
# Rounding keeps the order

What is larger is not rounded to something smaller. So numbers can be compared by their places in
the order of all numbers, an infinity having its place one unit beyond the largest finite number,
and the place of a rounded number is a monotone function of the number.
-/

namespace Rollup.Binary64

open Text (signed)

section Units

variable {num more : Nat} (h : num ≤ more) (den : Nat)
include h

/-- Rounding to the nearest natural number keeps the order. -/
theorem roundQuotient_mono : roundQuotient num den ≤ roundQuotient more den := by
  have hdiv : num / den ≤ more / den := Nat.div_le_div_right h
  rcases Nat.lt_or_eq_of_le hdiv with hlt | heq
  · calc roundQuotient num den ≤ num / den + 1 := roundQuotient_le num den
      _ ≤ more / den := hlt
      _ ≤ roundQuotient more den := le_roundQuotient more den
  · -- The whole parts agree, so the remainders decide.
    have hnum := Nat.div_add_mod num den
    have hmore := Nat.div_add_mod more den
    rw [heq] at hnum
    simp only [roundQuotient, heq]
    split <;> split <;> omega

/-- A larger quotient has no fewer binary digits. -/
theorem log2_div_mono : (num / den).log2 ≤ (more / den).log2 := by
  have hdiv : num / den ≤ more / den := Nat.div_le_div_right h
  by_cases hzero : num / den = 0
  · simp [hzero, Nat.log2_zero]
  · have hne : more / den ≠ 0 := Nat.ne_of_gt (Nat.lt_of_lt_of_le (Nat.pos_of_ne_zero hzero) hdiv)
    exact (Nat.le_log2 hne).mpr (Nat.le_trans (Nat.log2_self_le hzero) hdiv)

/-- Rounding to 53 significant binary digits keeps the order. -/
theorem roundUnits_mono : roundUnits num den ≤ roundUnits more den := by
  have hlog := log2_div_mono h den
  have hexponent : quotientExponent num den ≤ quotientExponent more den := by
    unfold quotientExponent
    omega
  rcases Nat.lt_or_eq_of_le hexponent with hlt | heq
  · -- The larger quotient has more binary digits, and rounding keeps the leading one.
    have hlog : 53 + quotientExponent num den ≤ (more / den).log2 := by
      unfold quotientExponent at hlt ⊢
      omega
    have hne : more / den ≠ 0 := by
      intro hzero
      rw [hzero, Nat.log2_zero] at hlog
      omega
    calc roundUnits num den ≤ 2 ^ (53 + quotientExponent num den) := roundUnits_le num den
      _ ≤ 2 ^ (more / den).log2 := Nat.pow_le_pow_right (by decide) hlog
      _ ≤ roundUnits more den := two_pow_log2_div_le_roundUnits hne
  · unfold roundUnits
    rw [heq]
    exact Nat.mul_le_mul_right _ (roundQuotient_mono h _)

end Units

/-- Units are not rounded beyond a number of the format. -/
theorem roundUnits_le_of_le {units bound : Nat} (h : units ≤ bound) (hbound : Representable bound) :
    roundUnits units 1 ≤ bound := by
  rw [← roundUnits_eq_self hbound]
  exact roundUnits_mono h 1

/-- The place of a number in the order of all numbers: its units, and one unit beyond the largest
finite number for an infinity. -/
def place : Binary64 → Int
  | finite x => x.toUnits
  | infinite negative => signed negative (maxUnits + 1)
  | nan => 0

/-- The place that a whole number of units is rounded to. -/
def roundedPlace (units : Int) : Int :=
  signed (decide (units < 0)) (min (roundUnits units.natAbs 1) (maxUnits + 1))

/-- A finite number lies between the infinities. -/
theorem Finite.toUnits_bounds (x : Finite) :
    signed true (maxUnits + 1) < x.toUnits ∧ x.toUnits < signed false (maxUnits + 1) := by
  have hle := x.representable.1
  unfold signed Finite.toUnits
  rw [if_pos rfl, if_neg Bool.false_ne_true]
  split <;> omega

/-- Numbers compare as their places do. -/
theorem compare?_eq_compare_place {x y : Binary64} (hx : x ≠ nan) (hy : y ≠ nan) :
    compare? x y = some (compare x.place y.place) := by
  cases x with
  | nan => exact absurd rfl hx
  | infinite a =>
    cases y with
    | nan => exact absurd rfl hy
    | infinite b => cases a <;> cases b <;> decide +kernel
    | finite y =>
      have hbounds := y.toUnits_bounds
      cases a with
      | true => exact congrArg some (Int.compare_eq_lt.mpr hbounds.1).symm
      | false => exact congrArg some (Int.compare_eq_gt.mpr hbounds.2).symm
  | finite x =>
    cases y with
    | nan => exact absurd rfl hy
    | infinite b =>
      have hbounds := x.toUnits_bounds
      cases b with
      | true => exact congrArg some (Int.compare_eq_gt.mpr hbounds.1).symm
      | false => exact congrArg some (Int.compare_eq_lt.mpr hbounds.2).symm
    | finite y => rfl

/-- What is rounded is not not-a-number. -/
theorem ofRatio_ne_nan (negative : Bool) (num den : Nat) : ofRatio negative num den ≠ nan := by
  unfold ofRatio
  split <;> simp

/-- The place of what is rounded. -/
theorem place_ofRatio (negative : Bool) (num den : Nat) :
    (ofRatio negative num den).place =
      signed negative (min (roundUnits num den) (maxUnits + 1)) := by
  unfold ofRatio
  split
  · next h =>
    rw [Nat.min_eq_left (by omega)]
    rfl
  · next h =>
    rw [Nat.min_eq_right (by omega)]
    rfl

/-- The place of the number nearest to an integer. -/
theorem place_ofInt (n : Int) : (ofInt n).place = roundedPlace (n * one) := by
  have hneg : n * one < 0 ↔ n < 0 := by
    rw [← Int.mul_lt_mul_right natCast_one_units_pos (b := n) (c := 0), Int.zero_mul]
  rw [ofInt, place_ofRatio, roundedPlace, Int.natAbs_mul, Int.natAbs_natCast]
  simp only [hneg]

/-- A finite number is rounded to its own place. -/
theorem roundedPlace_toUnits (x : Finite) : roundedPlace x.toUnits = x.toUnits := by
  have hself := roundUnits_eq_self x.representable
  have hle := x.representable.1
  rw [roundedPlace, x.natAbs_toUnits, hself, Nat.min_eq_left (by omega), ← x.natAbs_toUnits]
  by_cases hneg : x.toUnits < 0
  · simp only [signed, hneg, decide_true, if_true]
    omega
  · simp only [signed, hneg, decide_false, if_false, Bool.false_eq_true]
    omega

/-- The place that units are rounded to is a monotone function of the units. -/
theorem roundedPlace_mono {j k : Int} (h : j ≤ k) : roundedPlace j ≤ roundedPlace k := by
  unfold roundedPlace signed
  by_cases hj : j < 0
  · by_cases hk : k < 0
    · have hunits : roundUnits k.natAbs 1 ≤ roundUnits j.natAbs 1 := roundUnits_mono (by omega) 1
      simp only [hj, hk, decide_true, if_true]
      omega
    · simp only [hj, hk, decide_true, decide_false, if_true, if_false, Bool.false_eq_true]
      omega
  · have hk : ¬k < 0 := by omega
    have hunits : roundUnits j.natAbs 1 ≤ roundUnits k.natAbs 1 := roundUnits_mono (by omega) 1
    simp only [hj, hk, decide_false, if_false, Bool.false_eq_true]
    omega

end Rollup.Binary64
