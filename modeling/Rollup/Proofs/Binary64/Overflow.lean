import Rollup.Proofs.Binary64.Monotone

/-!
# Overflow

Rounding gives an infinity exactly from halfway between the largest finite number and the next power
of two on. So whether the result of an operation on finite numbers is finite can be read off the
exact result. Once a result is not finite, no sum, product, quotient or greatest integer that starts
from it is.
-/

namespace Rollup.Binary64

/-- The units from which on rounding gives an infinity. They are as near to the largest finite
number as to the next power of two, and a tie goes to the latter, which is even. -/
def overflowUnits : Nat := (2 ^ 54 - 1) * 2 ^ 2044

section Threshold

variable {num den : Nat} (hden : 0 < den)
include hden

/-- What is nearest to an odd number or below it lies less than a half above it, since a tie goes to
the even number above. -/
theorem roundQuotient_le_iff_of_odd {m : Nat} (hm : m % 2 = 1) :
    roundQuotient num den ≤ m ↔ 2 * num < (2 * m + 1) * den := by
  have hdiv := Nat.div_add_mod num den
  have hmod := Nat.mod_lt num hden
  have hscale : (2 * m + 1) * den = 2 * (den * m) + den := by
    rw [Nat.add_mul, Nat.one_mul, Nat.mul_assoc, Nat.mul_comm m]
  rw [hscale]
  rcases Nat.lt_trichotomy (num / den) m with hlt | heq | hgt
  · have hbelow : den * (num / den + 1) ≤ den * m := Nat.mul_le_mul_left den hlt
    have hround := roundQuotient_le num den
    rw [Nat.mul_add, Nat.mul_one] at hbelow
    omega
  · unfold roundQuotient
    dsimp only
    rw [heq] at hdiv ⊢
    split <;> omega
  · have habove : den * (m + 1) ≤ den * (num / den) := Nat.mul_le_mul_left den hgt
    have hround := le_roundQuotient num den
    rw [Nat.mul_add, Nat.mul_one] at habove
    omega

/-- A rounded quotient is finite exactly if the quotient lies below the overflow threshold. -/
theorem roundUnits_le_maxUnits_iff :
    roundUnits num den ≤ maxUnits ↔ num < overflowUnits * den := by
  rcases Nat.lt_trichotomy (num / den).log2 2097 with hlt | heq | hgt
  · -- Rounding reaches the next power of two at most, which is finite.
    have hfinite : 2 ^ 2097 ≤ maxUnits := by decide +kernel
    have hthreshold : 2 ^ 2097 ≤ overflowUnits := by decide +kernel
    have hexponent : 53 + quotientExponent num den ≤ 2097 := by
      unfold quotientExponent
      omega
    have hround : roundUnits num den ≤ 2 ^ 2097 :=
      Nat.le_trans (roundUnits_le num den) (Nat.pow_le_pow_right (by decide) hexponent)
    have hquotient : num / den < 2 ^ 2097 :=
      Nat.lt_of_lt_of_le Nat.lt_log2_self (Nat.pow_le_pow_right (by decide) hlt)
    have hnum : num < 2 ^ 2097 * den := (Nat.div_lt_iff_lt_mul hden).mp hquotient
    exact iff_of_true (Nat.le_trans hround hfinite)
      (Nat.lt_of_lt_of_le hnum (Nat.mul_le_mul_right den hthreshold))
  · -- The last digits that are kept are those of the largest finite number.
    have hexponent : quotientExponent num den = 2045 := by
      rw [quotientExponent, heq]
    have hodd : 2 * (2 ^ 53 - 1) + 1 = 2 ^ 54 - 1 := by decide
    have hplace : (2 ^ 54 - 1) * 2 ^ 2045 = 2 * overflowUnits := by decide +kernel
    rw [roundUnits, hexponent, maxUnits, Nat.mul_le_mul_right_iff (Nat.two_pow_pos 2045),
      roundQuotient_le_iff_of_odd (Nat.mul_pos hden (Nat.two_pow_pos 2045)) (by decide), hodd,
      Nat.mul_comm den, ← Nat.mul_assoc, hplace, Nat.mul_assoc]
    exact Nat.mul_lt_mul_left (by decide)
  · -- Rounding keeps the leading digit, which is beyond those of the largest finite number.
    have hthreshold : overflowUnits ≤ 2 ^ 2098 := by decide +kernel
    have hne : num / den ≠ 0 := by
      intro hzero
      rw [hzero, Nat.log2_zero] at hgt
      omega
    have hlarge : 2 ^ 2098 ≤ 2 ^ (num / den).log2 := Nat.pow_le_pow_right (by decide) hgt
    have hround : 2 ^ 2098 ≤ roundUnits num den :=
      Nat.le_trans hlarge (two_pow_log2_div_le_roundUnits hne)
    have hnum : overflowUnits * den ≤ num := by
      rw [← Nat.le_div_iff_mul_le hden]
      exact Nat.le_trans hthreshold (Nat.le_trans hlarge (Nat.log2_self_le hne))
    exact iff_of_false (Nat.not_le.mpr (Nat.lt_of_lt_of_le maxUnits_lt hround))
      (Nat.not_lt.mpr hnum)

/-- A rounded number is finite exactly if the number lies below the overflow threshold. -/
theorem isFinite_ofRatio_iff (negative : Bool) :
    (ofRatio negative num den).isFinite = true ↔ num < overflowUnits * den := by
  rw [← roundUnits_le_maxUnits_iff hden, ofRatio]
  split
  · next h => exact iff_of_true rfl h
  · next h => exact iff_of_false Bool.false_ne_true h

end Threshold

section Finite

variable (x y : Finite)

/-- A sum of finite numbers is finite exactly if the exact sum is below the threshold. -/
theorem isFinite_add_iff :
    (finite x + finite y).isFinite = true ↔ (x.toUnits + y.toUnits).natAbs < overflowUnits := by
  rw [← Nat.mul_one overflowUnits]
  exact isFinite_ofRatio_iff Nat.one_pos _

/-- A difference of finite numbers is finite exactly if the exact one is below the threshold. -/
theorem isFinite_sub_iff :
    (finite x - finite y).isFinite = true ↔ (x.toUnits - y.toUnits).natAbs < overflowUnits := by
  rw [Int.sub_eq_add_neg, ← y.toUnits_not]
  exact isFinite_add_iff x _

/-- A finite difference has the units of the exact one, rounded. -/
theorem units_of_sub {x y z : Finite} (h : finite x - finite y = finite z) :
    z.units = roundUnits (x.toUnits - y.toUnits).natAbs 1 := by
  rw [Int.sub_eq_add_neg, ← y.toUnits_not]
  exact (eq_of_ofRatio h).2

/-- A quotient of finite numbers is finite exactly if the exact one is below the threshold. -/
theorem isFinite_div_iff (hy : 0 < y.units) :
    (finite x / finite y).isFinite = true ↔ x.units * one < overflowUnits * y.units := by
  rw [finite_div_eq_ofRatio x hy]
  exact isFinite_ofRatio_iff hy _

end Finite

section Propagation

variable {x y : Binary64}

/-- A number is finite exactly if it is one of the finite numbers. -/
theorem isFinite_iff : x.isFinite = true ↔ ∃ number, x = finite number := by
  cases x <;> simp [isFinite]

/-- A sum is finite only if its first term is. -/
theorem isFinite_of_add (h : (x + y).isFinite = true) : x.isFinite = true := by
  cases x with
  | finite x => rfl
  | nan => exact h
  | infinite a =>
    cases y with
    | infinite b =>
      change (if a = b then infinite a else nan).isFinite = true at h
      split at h <;> exact h
    | _ => exact h

/-- A product is finite only if its first factor is. -/
theorem isFinite_of_mul (h : (x * y).isFinite = true) : x.isFinite = true := by
  cases x with
  | finite x => rfl
  | nan => exact h
  | infinite a =>
    cases y with
    | finite y =>
      change (if y.units = 0 then nan else infinite (a != y.negative)).isFinite = true at h
      split at h <;> exact h
    | _ => exact h

/-- A quotient is finite only if the dividend is. -/
theorem isFinite_of_div (h : (x / y).isFinite = true) : x.isFinite = true := by
  cases x with
  | finite x => rfl
  | nan => exact h
  | infinite a => cases y <;> exact h

/-- The greatest integer at or below a number is finite only if the number is. -/
theorem isFinite_of_floor (h : (floor x).isFinite = true) : x.isFinite = true := by
  cases x with
  | finite x => rfl
  | _ => exact h

end Propagation

/-- A power of two, in units; `2 ^ 2097` units are the largest one that is finite. -/
def Finite.twoPowUnits (exponent : Nat) (h : exponent ≤ 2097) : Finite where
  negative := false
  units := 2 ^ exponent
  representable :=
    have hlargest : 2 ^ 2097 ≤ maxUnits := by decide +kernel
    ⟨Nat.le_trans (Nat.pow_le_pow_right (by decide) h) hlargest, 1, exponent, by decide,
      (Nat.one_mul _).symm⟩

end Rollup.Binary64
