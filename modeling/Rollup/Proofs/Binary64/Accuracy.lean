import Rollup.Proofs.Binary64.Rounding

/-!
# How far rounding goes

A quotient of units is rounded by at most half the place of its last binary digit that is kept, and
so the quotient of two integers of moderate size by less than what keeps it from the next integer.
-/

namespace Rollup.Binary64

section Error

variable (num : Nat) {den : Nat} (hden : 0 < den)
include hden

/-- Rounding to the nearest natural number goes half the way to the next one at most. -/
theorem roundQuotient_error :
    2 * (roundQuotient num den * den) ≤ 2 * num + den ∧
      2 * num ≤ 2 * (roundQuotient num den * den) + den := by
  have hdiv := Nat.div_add_mod num den
  have hmod := Nat.mod_lt num hden
  rw [Nat.mul_comm] at hdiv
  unfold roundQuotient
  dsimp only
  split
  · rw [Nat.succ_mul (num / den)]
    omega
  · omega

/-- Rounding to 53 significant binary digits goes half the place of the last digit at most. -/
theorem roundUnits_error :
    2 * (roundUnits num den * den) ≤ 2 * num + den * 2 ^ quotientExponent num den ∧
      2 * num ≤ 2 * (roundUnits num den * den) + den * 2 ^ quotientExponent num den := by
  have hscale : roundUnits num den * den =
      roundQuotient num (den * 2 ^ quotientExponent num den) *
        (den * 2 ^ quotientExponent num den) := by
    rw [roundUnits, Nat.mul_assoc, Nat.mul_comm _ den]
  rw [hscale]
  exact roundQuotient_error num (Nat.mul_pos hden (Nat.two_pow_pos _))

/-- The last digit that is kept stands at the lowest place, or 52 places below the first digit. -/
theorem quotientExponent_cases :
    quotientExponent num den = 0 ∨ den * 2 ^ quotientExponent num den * 2 ^ 52 ≤ num := by
  by_cases hzero : quotientExponent num den = 0
  · exact Or.inl hzero
  · refine Or.inr ?_
    have hlog : quotientExponent num den + 52 = (num / den).log2 := by
      unfold quotientExponent at hzero ⊢
      omega
    have hne : num / den ≠ 0 := by
      intro hdiv
      rw [hdiv, Nat.log2_zero] at hlog
      omega
    rw [Nat.mul_assoc, ← Nat.pow_add, hlog, Nat.mul_comm, ← Nat.le_div_iff_mul_le hden]
    exact Nat.log2_self_le hne

end Error

/-- The integers of 52 binary digits are few among the units that make one. -/
theorem two_pow_lt_one_units : 2 ^ 52 < one := by
  decide +kernel

/-- The rounded quotient of two natural numbers of 52 binary digits stays, when it is multiplied
with the divisor, within one of the dividend. -/
theorem roundUnits_mul_one_error {dividend divisor : Nat} (hdividend : dividend ≤ 2 ^ 52)
    (hdivisor : divisor ≤ 2 ^ 52) (hpos : 0 < divisor) :
    roundUnits (dividend * one) divisor * divisor < dividend * one + one ∧
      dividend * one < roundUnits (dividend * one) divisor * divisor + one := by
  have herror := roundUnits_error (dividend * one) hpos
  have hsize : dividend * one ≤ 2 ^ 52 * one := Nat.mul_le_mul_right one hdividend
  have hplace : divisor * 2 ^ quotientExponent (dividend * one) divisor ≤ one := by
    rcases quotientExponent_cases (dividend * one) hpos with hzero | hle
    · rw [hzero, Nat.pow_zero, Nat.mul_one]
      exact Nat.le_of_lt (Nat.lt_of_le_of_lt hdivisor two_pow_lt_one_units)
    · rw [Nat.mul_comm (2 ^ 52)] at hsize
      exact Nat.le_of_mul_le_mul_right (Nat.le_trans hle hsize) (Nat.two_pow_pos 52)
  have hone := one_units_pos
  omega

end Rollup.Binary64
