import Rollup.Proofs.Binary64.Accuracy
import Rollup.Proofs.Text.Digits
import Rollup.Proofs.Value.NumberOrder

/-!
# Arithmetic on integers

Floating-point numbers with the values of integers are added, subtracted and multiplied exactly as
long as the result is a safe integer, whatever signs their zeros have. Division is not exact, but it
is so accurate for integers of 52 binary digits that the greatest integer at or below the quotient
comes out right.
-/

namespace Rollup

namespace Binary64

open Number
open Text (signed)

/-- A floating-point number has the value of an integer. -/
def HasValue (x : Binary64) (n : Int) : Prop :=
  ∃ y : Finite, x = finite y ∧ y.toUnits = n * one

theorem signed_mul (a b : Bool) (m n : Nat) :
    signed (a != b) (m * n) = signed a m * signed b n := by
  cases a <;> cases b <;> simp [signed]

theorem signed_mul_natCast (a : Bool) (m n : Nat) : signed a (m * n) = signed a m * n := by
  cases a <;> simp [signed]

/-- A number with the value of an integer has as many ones as the integer says. -/
theorem units_of_toUnits {x : Finite} {n : Int} (h : x.toUnits = n * one) :
    x.units = n.natAbs * one := by
  rw [← x.natAbs_toUnits, h, Int.natAbs_mul, Int.natAbs_natCast]

/-- A number with the value of an integer has the sign of the integer, if that is not zero. -/
theorem signed_of_toUnits {x : Finite} {n : Int} (h : x.toUnits = n * one) :
    signed x.negative n.natAbs = n := by
  rw [← units_inj, ← signed_mul_natCast, ← units_of_toUnits h]
  exact h

/-- A safe natural number is not rounded, and neither is it with a minus. -/
theorem hasValue_ofRatio (negative : Bool) {n : Nat} (hn : n ≤ maxSafeInteger) :
    HasValue (ofRatio negative (n * one) 1) (signed negative n) := by
  have hself := ofRatio_units ⟨negative, n * one, representable_of_safe hn⟩
  exact ⟨_, hself, signed_mul_natCast negative n one⟩

/-- A safe integer is not rounded. -/
theorem hasValue_ofUnits (zeroNegative : Bool) {n : Int} (hn : n.natAbs ≤ maxSafeInteger) :
    HasValue (ofUnits zeroNegative (n * one)) n := by
  have hzero : n * one = 0 * (one : Int) ↔ n = 0 := units_inj
  have hneg : n * one < 0 * (one : Int) ↔ n < 0 := Int.mul_lt_mul_right natCast_one_units_pos
  rw [Int.zero_mul] at hzero hneg
  have hsigned : signed (if n = 0 then zeroNegative else decide (n < 0)) n.natAbs = n := by
    by_cases h : n = 0
    · rw [h]
      cases zeroNegative <;> rfl
    · rw [if_neg h, signed]
      by_cases hlt : n < 0
      · simp only [hlt, decide_true, if_true]
        omega
      · simp only [hlt, decide_false, if_false, Bool.false_eq_true]
        omega
  rw [ofUnits, Int.natAbs_mul, Int.natAbs_natCast]
  simp only [hzero, hneg]
  have hvalue := hasValue_ofRatio (if n = 0 then zeroNegative else decide (n < 0)) hn
  rwa [hsigned] at hvalue

section Operations

variable {x y : Binary64} {m n : Int} (hx : x.HasValue m) (hy : y.HasValue n)
include hx hy

theorem HasValue.add (hsafe : (m + n).natAbs ≤ maxSafeInteger) : (x + y).HasValue (m + n) := by
  obtain ⟨x, rfl, hx⟩ := hx
  obtain ⟨y, rfl, hy⟩ := hy
  have hsum : finite x + finite y = ofUnits (x.negative && y.negative) ((m + n) * one) := by
    rw [Int.add_mul, ← hx, ← hy]
    rfl
  rw [hsum]
  exact hasValue_ofUnits _ hsafe

theorem HasValue.sub (hsafe : (m - n).natAbs ≤ maxSafeInteger) : (x - y).HasValue (m - n) := by
  have hneg : y.neg.HasValue (-n) := by
    obtain ⟨y, rfl, hy⟩ := hy
    exact ⟨_, rfl, by rw [y.toUnits_not, hy, Int.neg_mul]⟩
  exact hx.add hneg hsafe

theorem HasValue.mul (hsafe : (m * n).natAbs ≤ maxSafeInteger) : (x * y).HasValue (m * n) := by
  obtain ⟨x, rfl, hx⟩ := hx
  obtain ⟨y, rfl, hy⟩ := hy
  have hunits : x.units * y.units = one * (m.natAbs * n.natAbs * one) := by
    rw [units_of_toUnits hx, units_of_toUnits hy, Nat.mul_mul_mul_comm, Nat.mul_left_comm one]
  have hproduct : finite x * finite y =
      ofRatio (x.negative != y.negative) (m.natAbs * n.natAbs * one) 1 := by
    rw [← ofRatio_mul_left one_units_pos, ← hunits, Nat.mul_one]
    rfl
  rw [Int.natAbs_mul] at hsafe
  have hvalue := hasValue_ofRatio (x.negative != y.negative) hsafe
  rwa [← hproduct, signed_mul, signed_of_toUnits hx, signed_of_toUnits hy] at hvalue

end Operations

/-- Numbers with one sign are as far apart as their absolute values. -/
theorem signed_lt_add (negative : Bool) {m n distance : Nat} (hle : m < n + distance)
    (hge : n < m + distance) : signed negative m < signed negative n + distance := by
  cases negative <;> simp only [signed, if_true, if_false, Bool.false_eq_true] <;> omega

section Quotient

/-- The rounded quotient of two natural numbers of 52 binary digits is finite. -/
theorem roundUnits_mul_one_le {dividend divisor : Nat} (hdividend : dividend ≤ 2 ^ 52)
    (hdivisor : divisor ≤ 2 ^ 52) (hpos : 0 < divisor) :
    roundUnits (dividend * one) divisor ≤ maxUnits := by
  have herror := (roundUnits_mul_one_error hdividend hdivisor hpos).1
  have hdivide := Nat.le_mul_of_pos_right (roundUnits (dividend * one) divisor) hpos
  have hsafe : (dividend + 1) * one ≤ maxSafeInteger * one :=
    Nat.mul_le_mul_right one (Nat.le_trans (Nat.succ_le_succ hdividend) (by decide))
  have hmax := (representable_of_safe (Nat.le_refl maxSafeInteger)).1
  rw [Nat.succ_mul] at hsafe
  omega

/-- A quotient that is a safe natural number is not rounded. -/
theorem roundUnits_mul_one_of_dvd {quotient divisor : Nat} (hquotient : quotient ≤ maxSafeInteger)
    (hpos : 0 < divisor) : roundUnits (divisor * quotient * one) divisor = quotient * one := by
  have hscale := roundUnits_mul_left hpos (quotient * one) 1
  rwa [Nat.mul_one, ← Nat.mul_assoc, roundUnits_eq_self (representable_of_safe hquotient)] at hscale

variable {x y : Finite} {a i : Int} (hx : x.toUnits = a * one) (hy : y.toUnits = i * one)
  (ha : a.natAbs ≤ 2 ^ 52) (hi : i.natAbs ≤ 2 ^ 52) (hpos : 0 < i)
include hx hy hpos

/-- A positive divisor leaves the sign of the dividend. -/
theorem div_eq_ofRatio :
    finite x / finite y = ofRatio x.negative (a.natAbs * one) i.natAbs := by
  have hunits : 0 < y.units := by
    rw [units_of_toUnits hy]
    exact Nat.mul_pos (Int.natAbs_pos.mpr (Int.ne_of_gt hpos)) one_units_pos
  have hsign : y.negative = false := by
    have hsigned := signed_of_toUnits hy
    cases hnegative : y.negative with
    | false => rfl
    | true =>
      rw [hnegative, signed, if_pos rfl] at hsigned
      omega
  rw [finite_div_eq_ofRatio x hunits, hsign, Bool.bne_false, units_of_toUnits hx,
    units_of_toUnits hy, Nat.mul_comm _ one, Nat.mul_comm i.natAbs one]
  exact ofRatio_mul_left one_units_pos _ _ _

include ha hi

/-- The quotient of two integers of 52 binary digits, multiplied with the divisor, stays within one
of the dividend; a quotient that is an integer is not rounded. -/
theorem exists_div_of_toUnits :
    ∃ z : Finite, finite x / finite y = finite z ∧
      z.toUnits * i < a * one + one ∧ a * one < z.toUnits * i + one ∧
      (i ∣ a → z.toUnits = a / i * one) := by
  have hipos : 0 < i.natAbs := Int.natAbs_pos.mpr (Int.ne_of_gt hpos)
  have hinat : (i.natAbs : Int) = i := Int.natAbs_of_nonneg (Int.le_of_lt hpos)
  have herror := roundUnits_mul_one_error ha hi hipos
  have hquotient := div_eq_ofRatio hx hy hpos
  rw [ofRatio, dif_pos (roundUnits_mul_one_le ha hi hipos)] at hquotient
  have hdividend : a * one = signed x.negative (a.natAbs * one) := by
    rw [signed_mul_natCast, signed_of_toUnits hx]
  have hproduct : signed x.negative (roundUnits (a.natAbs * one) i.natAbs) * i =
      signed x.negative (roundUnits (a.natAbs * one) i.natAbs * i.natAbs) := by
    rw [signed_mul_natCast, hinat]
  refine ⟨_, hquotient, ?_, ?_, ?_⟩
  · change signed x.negative (roundUnits (a.natAbs * one) i.natAbs) * i < _
    rw [hproduct, hdividend]
    exact signed_lt_add _ herror.1 herror.2
  · change _ < signed x.negative (roundUnits (a.natAbs * one) i.natAbs) * i + _
    rw [hproduct, hdividend]
    exact signed_lt_add _ herror.2 herror.1
  · rintro ⟨quotient, hexact⟩
    have hmul : a.natAbs = i.natAbs * quotient.natAbs := by
      rw [hexact, Int.natAbs_mul]
    have hsafe : quotient.natAbs ≤ maxSafeInteger := by
      have hle : quotient.natAbs ≤ a.natAbs := by
        rw [hmul]
        exact Nat.le_mul_of_pos_left _ hipos
      exact Nat.le_trans hle (Nat.le_trans ha (by decide))
    have hsigned : signed x.negative quotient.natAbs = quotient := by
      apply Int.eq_of_mul_eq_mul_left (Int.ne_of_gt hpos)
      rw [← hexact, ← signed_of_toUnits hx, hmul, Nat.mul_comm, signed_mul_natCast, hinat,
        Int.mul_comm]
    change signed x.negative (roundUnits (a.natAbs * one) i.natAbs) = _
    rw [hmul, roundUnits_mul_one_of_dvd hsafe hipos, signed_mul_natCast, hsigned, hexact,
      Int.mul_ediv_cancel_left _ (Int.ne_of_gt hpos)]

/-- The greatest integer at or below the rounded quotient is the one at or below the quotient. -/
theorem exists_floor_div_of_toUnits :
    ∃ z : Finite, finite x / finite y = finite z ∧ z.floor = a / i := by
  obtain ⟨z, hdiv, hupper, hlower, hexact⟩ := exists_div_of_toUnits hx hy ha hi hpos
  have hdivide := Int.mul_ediv_add_emod a i
  have hnonneg := Int.emod_nonneg a (Int.ne_of_gt hpos)
  have hlt := Int.emod_lt_of_pos a hpos
  refine ⟨z, hdiv, Int.le_antisymm ?_ ?_⟩
  · -- The dividend is at least one below the next multiple of the divisor.
    refine Int.lt_add_one_iff.mp (Int.ediv_lt_of_lt_mul natCast_one_units_pos ?_)
    apply Int.lt_of_mul_lt_mul_right _ (Int.le_of_lt hpos)
    calc z.toUnits * i < a * one + one := hupper
      _ = (a + 1) * one := by rw [Int.add_mul, Int.one_mul]
      _ ≤ (i * (a / i) + i) * one :=
        Int.mul_le_mul_of_nonneg_right (by omega) (Int.le_of_lt natCast_one_units_pos)
      _ = (a / i + 1) * one * i := by
        rw [Int.mul_right_comm, Int.add_mul (a / i), Int.one_mul, Int.mul_comm (a / i)]
  · refine Int.le_ediv_of_mul_le natCast_one_units_pos ?_
    rcases Int.lt_or_eq_of_le hnonneg with hrest | hrest
    · -- The dividend is at least one above the multiple of the divisor below it.
      refine Int.le_of_lt (Int.lt_of_mul_lt_mul_right ?_ (Int.le_of_lt hpos))
      have hbelow : (i * (a / i) + 1) * one ≤ a * one :=
        Int.mul_le_mul_of_nonneg_right (by omega) (Int.le_of_lt natCast_one_units_pos)
      apply Int.lt_of_add_lt_add_right
      calc a / i * one * i + one = (i * (a / i) + 1) * one := by
            rw [Int.add_mul _ 1, Int.one_mul, Int.mul_right_comm, Int.mul_comm (a / i)]
        _ ≤ a * one := hbelow
        _ < z.toUnits * i + one := hlower
    · exact Int.le_of_eq (hexact (Int.dvd_of_emod_eq_zero hrest.symm)).symm

end Quotient

/-- The number nearest to a safe integer has its value. -/
theorem hasValue_ofInt {n : Int} (hsafe : n.natAbs ≤ maxSafeInteger) : HasValue (ofInt n) n :=
  ⟨ofSafe n hsafe, ofInt_eq_ofSafe hsafe, toUnits_ofSafe hsafe⟩

/-- A number that is not an integer has digits below one, and so few above it. -/
theorem units_lt_of_not_isIntegral {z : Finite} (h : ¬z.isIntegral) : z.units < 2 ^ 52 * one := by
  obtain ⟨-, significand, exponent, hsignificand, hunits⟩ := z.representable
  have hexponent : exponent < 1074 := by
    by_contra hge
    have hdvd : one ∣ z.units := by
      rw [hunits, one]
      exact Nat.dvd_mul_left_of_dvd (Nat.pow_dvd_pow 2 (Nat.le_of_not_lt hge)) _
    exact h (decide_eq_true (Nat.mod_eq_zero_of_dvd hdvd))
  have hhalf : 2 ^ 53 * 2 ^ 1073 = 2 ^ 52 * one := by decide +kernel
  calc z.units = significand * 2 ^ exponent := hunits
    _ ≤ significand * 2 ^ 1073 :=
      Nat.mul_le_mul_left _ (Nat.pow_le_pow_right (by decide) (Nat.le_of_lt_succ hexponent))
    _ < 2 ^ 53 * 2 ^ 1073 := Nat.mul_lt_mul_of_pos_right hsignificand (Nat.two_pow_pos 1073)
    _ = 2 ^ 52 * one := hhalf

/-- The greatest integer at or below a number is a number of the format. -/
theorem hasValue_floor (z : Finite) : HasValue (floor (finite z)) z.floor := by
  by_cases hintegral : z.isIntegral
  · obtain ⟨n, hn⟩ := (isIntegral_iff z).mp hintegral
    rw [floor, if_pos hintegral, floor_eq_of_toUnits hn]
    exact ⟨z, rfl, hn⟩
  · rw [floor, if_neg hintegral]
    apply hasValue_ofInt
    have hunits := units_lt_of_not_isIntegral hintegral
    rw [← z.natAbs_toUnits] at hunits
    have hlt : z.floor < 2 ^ 52 :=
      Int.ediv_lt_of_lt_mul natCast_one_units_pos (by omega)
    have hge : -2 ^ 52 ≤ z.floor := by
      refine Int.le_ediv_of_mul_le natCast_one_units_pos ?_
      rw [Int.neg_mul]
      omega
    have hsafe : 2 ^ 52 ≤ maxSafeInteger := by decide
    omega

/-- The greatest integer at or below a number is at most one further away from zero. -/
theorem Finite.natAbs_floor_mul_le (z : Finite) : z.floor.natAbs * one ≤ z.units + one := by
  have hdivide : one * z.floor + z.toUnits % one = z.toUnits := Int.mul_ediv_add_emod ..
  have hnonneg := Int.emod_nonneg z.toUnits (Int.ne_of_gt natCast_one_units_pos)
  have hlt := Int.emod_lt_of_pos z.toUnits natCast_one_units_pos
  have habs : ((one : Int) * z.floor).natAbs = z.floor.natAbs * one := by
    rw [Int.natAbs_mul, Int.natAbs_natCast, Nat.mul_comm]
  rw [← habs, ← z.natAbs_toUnits]
  omega

/-- The greatest integer at or below a quotient of integers of 52 binary digits is exact. -/
theorem HasValue.floor_div {x y : Binary64} {a i : Int} (hx : x.HasValue a) (hy : y.HasValue i)
    (ha : a.natAbs ≤ 2 ^ 52) (hi : i.natAbs ≤ 2 ^ 52) (hpos : 0 < i) :
    (floor (x / y)).HasValue (a / i) := by
  obtain ⟨x, rfl, hx⟩ := hx
  obtain ⟨y, rfl, hy⟩ := hy
  obtain ⟨z, hdiv, hfloor⟩ := exists_floor_div_of_toUnits hx hy ha hi hpos
  rw [hdiv, ← hfloor]
  exact hasValue_floor z

end Binary64

namespace Value

/-- A computed number with the value of a safe integer is that integer. -/
theorem ofBinary64_of_hasValue {x : Binary64} {n : Int} (hx : x.HasValue n)
    (hsafe : n.natAbs ≤ Number.maxSafeInteger) : ofBinary64 x = .int n := by
  obtain ⟨y, rfl, hy⟩ := hx
  have hinteger := (Number.safeInteger?_eq_some_iff y n).mpr ⟨hy, hsafe⟩
  rw [ofBinary64, Number.ofBinary64?, hinteger]
  rfl

end Value

/-- A number with the value of a safe integer becomes a floating-point number of that value. -/
theorem Number.hasValue_toBinary64 {m : Number} {n : Int} (hm : m.value = n)
    (hsafe : n.natAbs ≤ maxSafeInteger) : m.toBinary64.HasValue n := by
  cases m with
  | integer k =>
    obtain rfl : k = n := Rat.intCast_inj.mp hm
    exact Binary64.hasValue_ofInt hsafe
  | float x => exact ⟨x, rfl, toUnits_of_value hm.symm⟩

end Rollup
