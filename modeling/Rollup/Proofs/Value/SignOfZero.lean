import Rollup.Aggregate.GroupKey
import Rollup.Proofs.Value.Number

/-!
# The sign of zero

Zero is a floating-point number with either sign, and arithmetic may carry the sign on. It never
shows in a computed number of a record: numbers that differ in the sign of zero at most stay so
through the operations that place a number on a grid, and become the same number in the end.
-/

namespace Rollup

namespace Binary64

/-- Two numbers are the same, or both are zeros. -/
inductive SameValue : Binary64 → Binary64 → Prop where
  /-- A number is the same as itself. -/
  | refl (x : Binary64) : SameValue x x
  /-- Zeros have one value, whatever their signs. -/
  | zeros {x y : Finite} (hx : x.units = 0) (hy : y.units = 0) : SameValue (finite x) (finite y)

theorem toUnits_of_units_eq_zero {x : Finite} (h : x.units = 0) : x.toUnits = 0 := by
  rw [← Int.natAbs_eq_zero, Finite.natAbs_toUnits, h]

/-- Finite numbers with the same units have the same value. -/
theorem sameValue_of_toUnits {x y : Finite} (h : x.toUnits = y.toUnits) :
    SameValue (finite x) (finite y) := by
  by_cases hx : x.units = 0
  · refine .zeros hx ?_
    rw [← Finite.natAbs_toUnits, ← h, Finite.natAbs_toUnits, hx]
  · rw [Number.eq_of_toUnits hx h]
    exact .refl _

/-- Nothing is rounded to zero, with either sign. -/
theorem sameValue_ofRatio_zero (a b : Bool) {den : Nat} (hden : 0 < den) :
    SameValue (ofRatio a 0 den) (ofRatio b 0 den) := by
  have hzero : roundUnits 0 den = 0 := roundUnits_eq_zero (by omega)
  have hle : roundUnits 0 den ≤ maxUnits := by
    rw [hzero]
    exact Nat.zero_le _
  rw [ofRatio, ofRatio, dif_pos hle, dif_pos hle]
  exact .zeros hzero hzero

/-- The sign that a zero is to have is the only thing that it decides. -/
theorem sameValue_ofUnits (a b : Bool) (units : Int) :
    SameValue (ofUnits a units) (ofUnits b units) := by
  rw [ofUnits, ofUnits]
  by_cases h : units = 0
  · rw [if_pos h, if_pos h, h]
    exact sameValue_ofRatio_zero a b Nat.one_pos
  · rw [if_neg h, if_neg h]
    exact .refl _

section Operations

variable {x y : Binary64} (h : SameValue x y) (z : Binary64)
include h

theorem SameValue.add_right : SameValue (x + z) (y + z) := by
  cases h with
  | refl => exact .refl _
  | @zeros x y hx hy =>
    cases z with
    | finite z =>
      have hxz : finite x + finite z = ofUnits (x.negative && z.negative) z.toUnits := by
        rw [← Int.zero_add z.toUnits, ← toUnits_of_units_eq_zero hx]
        rfl
      have hyz : finite y + finite z = ofUnits (y.negative && z.negative) z.toUnits := by
        rw [← Int.zero_add z.toUnits, ← toUnits_of_units_eq_zero hy]
        rfl
      rw [hxz, hyz]
      exact sameValue_ofUnits _ _ _
    | infinite _ => exact .refl _
    | nan => exact .refl _

theorem SameValue.sub_right : SameValue (x - z) (y - z) :=
  h.add_right (neg z)

theorem SameValue.mul_right : SameValue (x * z) (y * z) := by
  cases h with
  | refl => exact .refl _
  | @zeros x y hx hy =>
    cases z with
    | finite z =>
      have hxz : finite x * finite z = ofRatio (x.negative != z.negative) 0 one := by
        rw [← Nat.zero_mul z.units, ← hx]
        rfl
      have hyz : finite y * finite z = ofRatio (y.negative != z.negative) 0 one := by
        rw [← Nat.zero_mul z.units, ← hy]
        rfl
      rw [hxz, hyz]
      exact sameValue_ofRatio_zero _ _ one_units_pos
    | infinite b =>
      have hxz : finite x * infinite b = nan := if_pos hx
      have hyz : finite y * infinite b = nan := if_pos hy
      rw [hxz, hyz]
      exact .refl _
    | nan => exact .refl _

theorem SameValue.div_right : SameValue (x / z) (y / z) := by
  cases h with
  | refl => exact .refl _
  | @zeros x y hx hy =>
    cases z with
    | finite z =>
      by_cases hz : z.units = 0
      · have hxz : finite x / finite z = nan := (if_pos hz).trans (if_pos hx)
        have hyz : finite y / finite z = nan := (if_pos hz).trans (if_pos hy)
        rw [hxz, hyz]
        exact .refl _
      · have hxz : finite x / finite z = ofRatio (x.negative != z.negative) 0 z.units := by
          rw [← Nat.zero_mul one, ← hx]
          exact if_neg hz
        have hyz : finite y / finite z = ofRatio (y.negative != z.negative) 0 z.units := by
          rw [← Nat.zero_mul one, ← hy]
          exact if_neg hz
        rw [hxz, hyz]
        exact sameValue_ofRatio_zero _ _ (Nat.pos_of_ne_zero hz)
    | infinite b =>
      change SameValue (div (finite x) (infinite b)) (div (finite y) (infinite b))
      rw [div, div]
      exact sameValue_ofRatio_zero _ _ Nat.one_pos
    | nan => exact .refl _

omit z in
theorem SameValue.floor : SameValue x.floor y.floor := by
  cases h with
  | refl => exact .refl _
  | @zeros x y hx hy =>
    have hxint : x.isIntegral = true := by simp [Finite.isIntegral, hx]
    have hyint : y.isIntegral = true := by simp [Finite.isIntegral, hy]
    rw [Binary64.floor, Binary64.floor, if_pos hxint, if_pos hyint]
    exact .zeros hx hy

end Operations

end Binary64

namespace Value

/-- A computed number does not show the sign of zero. -/
theorem ofBinary64_eq_of_sameValue {x y : Binary64} (h : x.SameValue y) :
    ofBinary64 x = ofBinary64 y := by
  cases h with
  | refl => rfl
  | @zeros x y hx hy =>
    have hsafe : ∀ z : Binary64.Finite, z.units = 0 → Number.safeInteger? z = some 0 := by
      intro z hz
      rw [Number.safeInteger?_eq_some_iff, Binary64.toUnits_of_units_eq_zero hz]
      exact ⟨(Int.zero_mul _).symm, by decide⟩
    rw [ofBinary64, ofBinary64, Number.ofBinary64?, Number.ofBinary64?, hsafe x hx, hsafe y hy]

/-- The cell that a number lies in does not depend on the sign of zero. -/
theorem intervalKey_eq_of_sameValue (width base : Binary64) {m n : Number}
    (h : m.toBinary64.SameValue n.toBinary64) :
    intervalKey width base (number m) = intervalKey width base (number n) :=
  ofBinary64_eq_of_sameValue
    ((((h.sub_right base).div_right width).floor.mul_right width).add_right base)

end Value

end Rollup
