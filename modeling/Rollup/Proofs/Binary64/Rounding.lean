import Rollup.Binary64.Basic

/-!
# Laws of rounding

Rounding sees a quotient and not the fraction that writes it. It leaves the numbers of the format
alone, takes whole numbers to whole numbers, and comes out infinite or zero where what is rounded is
too large or too small.
-/

namespace Rollup.Binary64

theorem natCast_one_units_pos : (0 : Int) < one :=
  Int.natCast_pos.mpr one_units_pos

/-- The sign is not among the units. -/
theorem Finite.natAbs_toUnits (x : Finite) : x.toUnits.natAbs = x.units := by
  rw [Finite.toUnits]
  split
  · exact Int.natAbs_neg _
  · exact Int.natAbs_natCast _

/-- The other sign makes the opposite value. -/
theorem Finite.toUnits_not (x : Finite) :
    Finite.toUnits { x with negative := !x.negative } = -x.toUnits := by
  rw [Finite.toUnits, Finite.toUnits]
  cases x.negative <;> simp

/-- The units of the largest finite number have 2098 binary digits. -/
theorem maxUnits_lt : maxUnits < 2 ^ 2098 := by
  decide +kernel

/-- A common factor of numerator and denominator does not matter to the nearest natural number. -/
theorem roundQuotient_mul_left {c : Nat} (hc : 0 < c) (num den : Nat) :
    roundQuotient (c * num) (c * den) = roundQuotient num den := by
  have hlt : ∀ r : Nat, c * den < 2 * (c * r) ↔ den < 2 * r := by
    intro r
    rw [Nat.mul_left_comm]
    exact Nat.mul_lt_mul_left hc
  have heq : ∀ r : Nat, c * den = 2 * (c * r) ↔ den = 2 * r := by
    intro r
    rw [Nat.mul_left_comm]
    exact Nat.mul_right_inj (Nat.ne_of_gt hc)
  simp only [roundQuotient, Nat.mul_div_mul_left _ _ hc, Nat.mul_mod_mul_left, hlt, heq]

/-- A multiple of the denominator has no remainder to round. -/
theorem roundQuotient_of_dvd {num den : Nat} (hden : 0 < den) (h : den ∣ num) :
    roundQuotient num den = num / den := by
  have hmod : num % den = 0 := Nat.mod_eq_zero_of_dvd h
  rw [roundQuotient, hmod]
  exact if_neg (by omega)

/-- A common factor of numerator and denominator does not matter to the rounded units. -/
theorem roundUnits_mul_left {c : Nat} (hc : 0 < c) (num den : Nat) :
    roundUnits (c * num) (c * den) = roundUnits num den := by
  have hexp : quotientExponent (c * num) (c * den) = quotientExponent num den := by
    rw [quotientExponent, quotientExponent, Nat.mul_div_mul_left _ _ hc]
  simp only [roundUnits, hexp, Nat.mul_assoc, roundQuotient_mul_left hc]

/-- A common factor of numerator and denominator does not matter to the nearest number. -/
theorem ofRatio_mul_left {c : Nat} (hc : 0 < c) (negative : Bool) (num den : Nat) :
    ofRatio negative (c * num) (c * den) = ofRatio negative num den := by
  simp only [ofRatio, roundUnits_mul_left hc]

/-- Units without digits below the last one that is kept are not rounded. -/
theorem roundUnits_eq_self_of_dvd {units : Nat} (h : 2 ^ quotientExponent units 1 ∣ units) :
    roundUnits units 1 = units := by
  rw [roundUnits, Nat.one_mul, roundQuotient_of_dvd (Nat.two_pow_pos _) h]
  exact Nat.div_mul_cancel h

/-- The last digit that is kept of a product with a power of two stands at or below that power. -/
private theorem quotientExponent_mul_two_pow_le {significand : Nat} (h : significand < 2 ^ 53)
    (hpos : 0 < significand) (exponent : Nat) :
    quotientExponent (significand * 2 ^ exponent) 1 ≤ exponent := by
  have hne : significand * 2 ^ exponent ≠ 0 :=
    Nat.ne_of_gt (Nat.mul_pos hpos (Nat.two_pow_pos _))
  have hlt : significand * 2 ^ exponent < 2 ^ (53 + exponent) := by
    rw [Nat.pow_add]
    exact Nat.mul_lt_mul_of_pos_right h (Nat.two_pow_pos _)
  have hlog := (Nat.log2_lt hne).mpr hlt
  rw [quotientExponent, Nat.div_one]
  omega

/-- The units of the format are not rounded. -/
theorem roundUnits_eq_self {units : Nat} (h : Representable units) :
    roundUnits units 1 = units := by
  obtain ⟨-, significand, exponent, hsignificand, rfl⟩ := h
  apply roundUnits_eq_self_of_dvd
  rcases Nat.eq_zero_or_pos significand with rfl | hpos
  · rw [Nat.zero_mul]
    exact Nat.dvd_zero _
  · have hle := quotientExponent_mul_two_pow_le hsignificand hpos exponent
    exact Nat.dvd_trans (Nat.pow_dvd_pow 2 hle) (Nat.dvd_mul_left _ _)

/-- A number of the format is nearest to itself. -/
theorem ofRatio_units (x : Finite) : ofRatio x.negative x.units 1 = finite x := by
  have hself := roundUnits_eq_self x.representable
  have hle : roundUnits x.units 1 ≤ maxUnits := by
    rw [hself]
    exact x.representable.1
  rw [ofRatio, dif_pos hle]
  simp only [hself]

/-- A finite result has the given sign and the rounded units. -/
theorem eq_of_ofRatio {negative : Bool} {num den : Nat} {x : Finite}
    (h : ofRatio negative num den = finite x) :
    x.negative = negative ∧ x.units = roundUnits num den := by
  rw [ofRatio] at h
  split at h
  · rw [← Binary64.finite.inj h]
    exact ⟨rfl, rfl⟩
  · cases h

/-- The quotient by a number other than zero is rounded once. -/
theorem finite_div_eq_ofRatio (x : Finite) {y : Finite} (hy : 0 < y.units) :
    finite x / finite y = ofRatio (x.negative != y.negative) (x.units * one) y.units :=
  if_neg (Nat.ne_of_gt hy)

/-- A whole number is rounded to a whole number. -/
theorem one_dvd_roundUnits (n : Nat) : one ∣ roundUnits (n * one) 1 := by
  by_cases h : 1074 ≤ quotientExponent (n * one) 1
  · have hdvd : one ∣ 2 ^ quotientExponent (n * one) 1 := by
      unfold one at h ⊢
      exact Nat.pow_dvd_pow 2 h
    exact Nat.dvd_trans hdvd (Nat.dvd_mul_left _ _)
  · have hdvd : 2 ^ quotientExponent (n * one) 1 ∣ n * one := by
      refine Nat.dvd_trans ?_ (Nat.dvd_mul_left one n)
      unfold one at h ⊢
      exact Nat.pow_dvd_pow 2 (Nat.le_of_not_le h)
    rw [roundUnits_eq_self_of_dvd hdvd]
    exact Nat.dvd_mul_left one n

/-- Less than half a unit is rounded to zero. -/
theorem roundUnits_eq_zero {num den : Nat} (h : 2 * num < den) : roundUnits num den = 0 := by
  have hdiv : num / den = 0 := Nat.div_eq_of_lt (by omega)
  have hmod : num % den = num := Nat.mod_eq_of_lt (by omega)
  have hexp : quotientExponent num den = 0 := by
    rw [quotientExponent, hdiv]
    rfl
  rw [roundUnits, hexp, Nat.pow_zero, Nat.mul_one, Nat.mul_one, roundQuotient, hdiv, hmod]
  exact if_neg (by omega)

/-- A rounded quotient has 53 digits before the last place, or is the power of two beyond them. -/
theorem roundUnits_le (num den : Nat) :
    roundUnits num den ≤ 2 ^ (53 + quotientExponent num den) := by
  rw [roundUnits, Nat.pow_add]
  exact Nat.mul_le_mul_right _
    (Nat.le_trans (roundQuotient_le _ _) (div_quotientExponent_lt num den))

/-- Units with more binary digits than the largest finite number overflow. -/
theorem ofRatio_eq_infinite (negative : Bool) {units : Nat} (h : 2 ^ 2098 ≤ units) :
    ofRatio negative units 1 = infinite negative := by
  have hpos : 0 < units := Nat.lt_of_lt_of_le (Nat.two_pow_pos 2098) h
  have hlog : 2098 ≤ units.log2 := (Nat.le_log2 (Nat.ne_of_gt hpos)).mpr h
  have hround : 2 ^ 2098 ≤ roundUnits units 1 :=
    Nat.le_trans (Nat.pow_le_pow_right (by decide) hlog)
      (two_pow_log2_le_roundUnits (Nat.ne_of_gt hpos))
  exact dif_neg (Nat.not_le.mpr (Nat.lt_of_lt_of_le maxUnits_lt hround))

/-- Less than half a unit becomes zero. -/
theorem ofRatio_eq_zero (negative : Bool) {num den : Nat} (h : 2 * num < den) :
    ofRatio negative num den = ofRatio negative 0 1 := by
  have hround : roundUnits num den = roundUnits 0 1 := by
    rw [roundUnits_eq_zero h, roundUnits_eq_zero (by decide)]
  simp only [ofRatio, hround]

end Rollup.Binary64
