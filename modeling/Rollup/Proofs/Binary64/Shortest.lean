import Rollup.Binary64.Shortest
import Rollup.Proofs.Binary64.Decimal

/-!
# The shortest decimal reads back

Each of the three ways in which a shortest decimal is found gives one that rounds to the number: the
grids test it, dropping zeros keeps the value, and the last resort is the exact value.
-/

namespace Rollup

/-- Taking zeros at the end of the digits into the exponent does not change the nearest number. -/
theorem toBinary64_dropZeros (negative : Bool) (fuel digits : Nat) (exponent : Int) :
    (Decimal.mk negative (dropZeros fuel digits exponent).1
        (dropZeros fuel digits exponent).2).toBinary64
      = (Decimal.mk negative digits exponent).toBinary64 := by
  induction fuel generalizing digits exponent with
  | zero => rfl
  | succ fuel ih =>
    rw [dropZeros]
    by_cases h : digits % 10 = 0
    · have hten : 10 * (digits / 10) = digits := by omega
      rw [if_pos h, ih, ← Decimal.toBinary64_ten_mul, hten]
    · rw [if_neg h]

namespace Binary64.Finite

/-- A zero is read from a zero with its sign. -/
theorem isReadFrom_zero {x : Finite} (h : x.units = 0) (exponent : Int) :
    x.IsReadFrom 0 exponent := by
  have hzero : (Decimal.mk x.negative 0 exponent).toBinary64 = ofRatio x.negative x.units 1 := by
    rw [h, Decimal.toBinary64]
    exact if_pos rfl
  rw [IsReadFrom, hzero, ofRatio_units]

private theorem isReadFrom_either {x : Finite} {below : Nat} {exponent : Int} {preferAbove : Bool}
    (hbelow : x.IsReadFrom below exponent) (habove : x.IsReadFrom (below + 1) exponent) :
    x.IsReadFrom (if preferAbove then below + 1 else below) exponent := by
  cases preferAbove with
  | true => exact habove
  | false => exact hbelow

/-- What a grid answers was tested on it. -/
theorem isReadFrom_of_nearestOnGrid? {x : Finite} {tie : Tie} {exponent : Int} {digits : Nat}
    (h : x.nearestOnGrid? tie exponent = some digits) : x.IsReadFrom digits exponent := by
  rw [nearestOnGrid?] at h
  dsimp only at h
  split at h
  · next hboth =>
    rw [Bool.and_eq_true, decide_eq_true_eq, decide_eq_true_eq] at hboth
    obtain ⟨hbelow, habove⟩ := hboth
    rw [Option.some.injEq] at h
    rw [← h]
    exact isReadFrom_either hbelow habove
  · split at h
    · next hbelow =>
      rw [Option.some.injEq] at h
      rw [← h]
      exact of_decide_eq_true hbelow
    · split at h
      · next habove =>
        rw [Option.some.injEq] at h
        rw [← h]
        exact of_decide_eq_true habove
      · cases h

/-- The exact value in decimal digits reads back. -/
theorem isReadFrom_exact (x : Finite) : x.IsReadFrom (x.units * 5 ^ 1074) (-1074) := by
  have hten : 10 ^ 1074 = 5 ^ 1074 * one := by
    rw [one, ← Nat.mul_pow]
  have hnum : x.units * 5 ^ 1074 * one = 5 ^ 1074 * one * x.units := by
    rw [Nat.mul_assoc, Nat.mul_comm]
  have hpos : 0 < 5 ^ 1074 * one := Nat.mul_pos (Nat.pow_pos (by decide)) one_units_pos
  have hexact := ofRatio_mul_left hpos x.negative x.units 1
  rw [IsReadFrom, Decimal.toBinary64_eq_ofRatio]
  dsimp only
  rw [show (-1074 : Int).toNat = 0 from rfl, show (-(-1074 : Int)).toNat = 1074 from rfl,
    Nat.pow_zero, Nat.mul_one, hnum, hten]
  rw [Nat.mul_one] at hexact
  rw [hexact, ofRatio_units]

/-- The shortest decimal reads back as the number, whichever way ties go. -/
theorem isReadFrom_shortest (x : Finite) (tie : Tie) :
    x.IsReadFrom (x.shortest tie).1 (x.shortest tie).2 := by
  rw [shortest]
  by_cases hzero : x.units = 0
  · rw [if_pos hzero]
    exact isReadFrom_zero hzero 0
  · rw [if_neg hzero]
    dsimp only
    split
    · next digits exponent hfound =>
      obtain ⟨n, -, hgrid⟩ := List.exists_of_findSome?_eq_some hfound
      rw [Option.map_eq_some_iff] at hgrid
      obtain ⟨_, hgrid, hpair⟩ := hgrid
      obtain ⟨rfl, rfl⟩ := Prod.mk.inj hpair
      rw [IsReadFrom, toBinary64_dropZeros]
      exact isReadFrom_of_nearestOnGrid? hgrid
    · exact isReadFrom_exact x

/-- The shortest decimal of a number other than zero has digits. -/
theorem shortest_ne_zero {x : Finite} (h : x.units ≠ 0) (tie : Tie) : (x.shortest tie).1 ≠ 0 := by
  intro hzero
  have hread := x.isReadFrom_shortest tie
  rw [IsReadFrom, Decimal.toBinary64, if_pos hzero] at hread
  obtain ⟨-, hunits⟩ := eq_of_ofRatio hread
  rw [roundUnits_eq_zero (by decide)] at hunits
  exact h hunits

end Binary64.Finite

end Rollup
