import Rollup.Proofs.Value.RoundedOrder

/-!
# Comparing an integer and a floating-point number of its value

An integer compares exactly with integers, and rounded with floating-point numbers; a floating-point
number compares rounded with both. For a safe integer that makes no difference: rounding takes no
integer beyond the safe ones back to them.
-/

namespace Rollup

namespace Number

/-- A number is another one, or a safe integer that the other one spells as a floating-point
number. -/
inductive Respells : Number → Number → Prop where
  /-- A number is spelled as it is. -/
  | same (n : Number) : Respells n n
  /-- A safe integer is spelled as a floating-point number of its value. -/
  | float {n : Int} {x : Binary64.Finite} (hsafe : n.natAbs ≤ maxSafeInteger)
      (hvalue : (integer n).value = (float x).value) : Respells (integer n) (float x)

/-- Both spellings of a number have its value. -/
theorem Respells.value_eq {m n : Number} (h : m.Respells n) : m.value = n.value := by
  cases h with
  | same => rfl
  | float _ hvalue => exact hvalue

/-- A floating-point number with the value of an integer is so many ones. -/
theorem toUnits_of_value {n : Int} {x : Binary64.Finite}
    (h : (integer n).value = (float x).value) : x.toUnits = n * Binary64.one :=
  ((value_eq_iff _ _).mp h).symm

/-- Every safe integer can be spelled as a floating-point number. -/
theorem respells_ofSafe {n : Int} (h : n.natAbs ≤ maxSafeInteger) :
    (integer n).Respells (float (ofSafe n h)) :=
  .float h ((value_eq_iff _ _).mpr (toUnits_ofSafe h).symm)

end Number

namespace Binary64

open Number

/-- Units at or above a power of two are not rounded below it. -/
theorem two_pow_le_roundUnits {exponent units : Nat} (h : 2 ^ exponent ≤ units) :
    2 ^ exponent ≤ roundUnits units 1 := by
  have hne : units ≠ 0 := Nat.ne_of_gt (Nat.lt_of_lt_of_le (Nat.two_pow_pos _) h)
  calc 2 ^ exponent ≤ 2 ^ units.log2 :=
        Nat.pow_le_pow_right (by decide) ((Nat.le_log2 hne).mpr h)
    _ ≤ roundUnits units 1 := two_pow_log2_le_roundUnits hne

/-- An integer beyond the safe ones is not rounded to one of them. -/
theorem lt_units_of_ofInt {n : Int} {x : Finite} (hn : maxSafeInteger < n.natAbs)
    (h : ofInt n = finite x) : maxSafeInteger * one < x.units := by
  obtain ⟨exponent, hone⟩ : ∃ exponent, one = 2 ^ exponent := ⟨1074, rfl⟩
  have hle : 2 ^ (53 + exponent) ≤ n.natAbs * one := by
    rw [Nat.pow_add, hone]
    exact Nat.mul_le_mul_right _ hn
  calc maxSafeInteger * one < 2 ^ 53 * one := Nat.mul_lt_mul_of_pos_right (by decide) one_units_pos
    _ = 2 ^ (53 + exponent) := by rw [Nat.pow_add, hone]
    _ ≤ roundUnits (n.natAbs * one) 1 := two_pow_le_roundUnits hle
    _ = x.units := (eq_of_ofRatio h).2.symm

end Binary64

namespace Number

open Binary64

/-- No other integer is rounded to a safe integer. -/
theorem eq_of_roundedPlace_eq {n k : Int} (hn : n.natAbs ≤ maxSafeInteger)
    (h : roundedPlace (k * one) = n * one) : k = n := by
  by_cases hk : k.natAbs ≤ maxSafeInteger
  · rwa [← toUnits_ofSafe hk, roundedPlace_toUnits, toUnits_ofSafe, units_inj] at h
  · by_contra hne
    rw [← toUnits_ofSafe hn] at h
    have hunits : k * one ≠ (ofSafe n hn).toUnits := by
      rwa [toUnits_ofSafe, ne_eq, units_inj]
    have hlt := lt_units_of_ofInt (Nat.lt_of_not_le hk) ((roundedPlace_eq_iff hunits).mp h)
    exact Nat.not_le.mpr hlt (Nat.mul_le_mul_right one hn)

/-- Both spellings of a number compare alike with any number. -/
theorem Respells.compare?_left {m n : Number} (h : m.Respells n) (other : Number) :
    m.compare? other = n.compare? other := by
  cases h with
  | same => rfl
  | @float k x hsafe hvalue =>
    have hx : (Number.float x).toUnits = k * one := toUnits_of_value hvalue
    have hfloat : ¬((Number.float x).IsInteger ∧ other.IsInteger) := fun h => h.1
    rw [compare?_eq_compare_roundedPlace hfloat, hx]
    cases other with
    | integer j =>
      have hexact : (integer k).compare? (integer j) = some (compare (k * one) (j * one)) :=
        compare?_eq_compare_toUnits (m := integer k) trivial trivial
      rw [hexact, Option.some.injEq, eq_comm, toUnits, compare_roundedPlace_eq_iff]
      rintro ⟨hne, heq⟩
      -- The safe integer keeps its place, so no other integer is rounded there.
      have hplace : roundedPlace (k * one) = k * one := by
        rw [← toUnits_ofSafe hsafe, roundedPlace_toUnits]
      exact hne (by rw [eq_of_roundedPlace_eq hsafe (heq.symm.trans hplace)])
    | float y => exact compare?_eq_compare_roundedPlace fun h => h.2

/-- A number is equal to itself. -/
theorem compare?_self (n : Number) : n.compare? n = some .eq := by
  cases n with
  | integer n => exact congrArg some (Std.ReflCmp.compare_self)
  | float x => exact congrArg some (Std.ReflCmp.compare_self)

end Number

end Rollup
