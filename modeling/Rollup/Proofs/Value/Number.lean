import Rollup.Proofs.Binary64.Rounding
import Rollup.Value.Number

/-!
# The exact value of a number

Integers and finite floating-point numbers are all whole multiples of the unit of the format, so
their exact values can be compared there. The safe integers are those that rounding to the format
leaves alone.
-/

namespace Rollup.Number

open Binary64

/-- The exact value. -/
def value : Number → Rat
  | integer n => n
  | float x => mkRat x.toUnits one

/-- The exact value, in units of the floating-point format. -/
def toUnits : Number → Int
  | integer n => n * one
  | float x => x.toUnits

theorem value_eq_mkRat (m : Number) : m.value = mkRat m.toUnits one := by
  cases m with
  | integer n =>
    have hscale : mkRat (n * one) (1 * one) = mkRat n 1 :=
      Rat.mkRat_mul_right (Nat.ne_of_gt one_units_pos)
    rw [Nat.one_mul] at hscale
    rw [toUnits, hscale]
    exact Rat.mk_eq_mkRat n 1 _ _
  | float x => rfl

theorem units_inj {j k : Int} : j * (one : Int) = k * one ↔ j = k :=
  Int.mul_eq_mul_right_iff (Int.natCast_ne_zero.mpr (Nat.ne_of_gt one_units_pos))

/-- Two numbers have the same value exactly if they have the same number of units. -/
theorem value_eq_iff (m n : Number) : m.value = n.value ↔ m.toUnits = n.toUnits := by
  have hone : one ≠ 0 := Nat.ne_of_gt one_units_pos
  rw [value_eq_mkRat, value_eq_mkRat, Rat.mkRat_eq_iff hone hone]
  exact units_inj

/-- A number is integral exactly if it is a whole multiple of one. -/
theorem isIntegral_iff (x : Finite) : x.isIntegral = true ↔ ∃ n : Int, x.toUnits = n * one := by
  have hdvd : one ∣ x.units ↔ (one : Int) ∣ x.toUnits := by
    rw [Int.ofNat_dvd_left, Finite.natAbs_toUnits]
  rw [Finite.isIntegral, decide_eq_true_eq, ← Nat.dvd_iff_mod_eq_zero, hdvd]
  constructor
  · rintro ⟨n, hn⟩
    exact ⟨n, by rw [hn, Int.mul_comm]⟩
  · rintro ⟨n, hn⟩
    exact ⟨n, by rw [hn, Int.mul_comm]⟩

/-- An integer is its own greatest integer at or below. -/
theorem floor_eq_of_toUnits {x : Finite} {n : Int} (h : x.toUnits = n * one) : x.floor = n := by
  rw [Finite.floor, h]
  exact Int.mul_ediv_cancel n (Int.natCast_ne_zero.mpr (Nat.ne_of_gt one_units_pos))

/-- A number is taken for an integer exactly if that is its value and a safe one. -/
theorem safeInteger?_eq_some_iff (x : Finite) (n : Int) :
    safeInteger? x = some n ↔ x.toUnits = n * one ∧ n.natAbs ≤ maxSafeInteger := by
  have hsize : ∀ k : Int, x.toUnits = k * one →
      (x.units ≤ maxSafeInteger * one ↔ k.natAbs ≤ maxSafeInteger) := by
    intro k hk
    rw [← Finite.natAbs_toUnits, hk, Int.natAbs_mul, Int.natAbs_natCast]
    exact Nat.mul_le_mul_right_iff one_units_pos
  rw [safeInteger?]
  constructor
  · intro h
    split at h
    · next hsafe =>
      rw [Bool.and_eq_true, decide_eq_true_eq] at hsafe
      obtain ⟨k, hk⟩ := (isIntegral_iff x).mp hsafe.1
      rw [Option.some.injEq, floor_eq_of_toUnits hk] at h
      rw [← h]
      exact ⟨hk, (hsize k hk).mp hsafe.2⟩
    · cases h
  · rintro ⟨hn, hsafe⟩
    have hintegral := (isIntegral_iff x).mpr ⟨n, hn⟩
    rw [hintegral, decide_eq_true ((hsize n hn).mpr hsafe), floor_eq_of_toUnits hn]
    rfl

/-- An integral number that is not taken for an integer is too large for it. -/
theorem maxSafeInteger_lt_of_toUnits {x : Finite} {n : Int} (hx : safeInteger? x = none)
    (hn : x.toUnits = n * one) : maxSafeInteger < n.natAbs := by
  rw [← Nat.not_le]
  intro hle
  have hsafe := (safeInteger?_eq_some_iff x n).mpr ⟨hn, hle⟩
  rw [hx] at hsafe
  cases hsafe

/-- A number that is not taken for an integer is not zero. -/
theorem units_ne_zero_of_safeInteger? {x : Finite} (hx : safeInteger? x = none) : x.units ≠ 0 := by
  intro hzero
  have hunits : x.toUnits = 0 * one := by
    rw [Int.zero_mul, ← Int.natAbs_eq_zero, Finite.natAbs_toUnits, hzero]
  exact absurd (maxSafeInteger_lt_of_toUnits hx hunits) (Nat.not_lt_zero _)

/-- Numbers other than zero with the same units are the same. -/
theorem eq_of_toUnits {x y : Finite} (hx : x.units ≠ 0) (h : x.toUnits = y.toUnits) : x = y := by
  have habs : x.units = y.units := by rw [← Finite.natAbs_toUnits, h, Finite.natAbs_toUnits]
  obtain ⟨a, units, _⟩ := x
  obtain ⟨b, _, _⟩ := y
  obtain rfl : units = _ := habs
  have hsign : a = b := by
    simp only [Finite.toUnits] at h hx
    cases a <;> cases b <;> simp at h ⊢ <;> omega
  rw [hsign]

/-- The units of a safe integer are units of the format. -/
theorem representable_of_safe {n : Nat} (h : n ≤ maxSafeInteger) : Representable (n * one) := by
  refine ⟨?_, n, 1074, Nat.lt_of_le_of_lt h (by decide), rfl⟩
  rw [maxUnits, one]
  exact Nat.mul_le_mul h (Nat.pow_le_pow_right (by decide) (by decide))

/-- The number nearest to an integer is integral. -/
theorem exists_toUnits_of_ofInt {n : Int} {x : Finite} (h : ofInt n = finite x) :
    ∃ k : Int, x.toUnits = k * one := by
  obtain ⟨-, hunits⟩ := eq_of_ofRatio h
  rw [← isIntegral_iff, Finite.isIntegral, decide_eq_true_eq, hunits]
  exact Nat.mod_eq_zero_of_dvd (one_dvd_roundUnits _)

/-- The floating-point number with the value of a safe integer. -/
def ofSafe (n : Int) (h : n.natAbs ≤ maxSafeInteger) : Finite where
  negative := n < 0
  units := n.natAbs * one
  representable := representable_of_safe h

theorem toUnits_ofSafe {n : Int} (h : n.natAbs ≤ maxSafeInteger) :
    (ofSafe n h).toUnits = n * one := by
  rw [Finite.toUnits, ofSafe]
  by_cases hneg : n < 0
  · have habs : (n.natAbs : Int) = -n := Int.ofNat_natAbs_of_nonpos (Int.le_of_lt hneg)
    rw [decide_eq_true hneg, if_pos rfl, Int.natCast_mul, habs, Int.neg_mul, Int.neg_neg]
  · have habs : (n.natAbs : Int) = n := Int.natAbs_of_nonneg (Int.not_lt.mp hneg)
    rw [decide_eq_false hneg, if_neg Bool.false_ne_true, Int.natCast_mul, habs]

/-- A safe integer is not rounded. -/
theorem ofInt_eq_ofSafe {n : Int} (h : n.natAbs ≤ maxSafeInteger) :
    ofInt n = finite (ofSafe n h) :=
  ofRatio_units (ofSafe n h)

/-- A safe integer is a number of the format. -/
theorem toUnits_of_ofInt {n : Int} {x : Finite} (hn : n.natAbs ≤ maxSafeInteger)
    (h : ofInt n = finite x) : x.toUnits = n * one := by
  rw [ofInt_eq_ofSafe hn, finite.injEq] at h
  rw [← h, toUnits_ofSafe]

end Rollup.Number
