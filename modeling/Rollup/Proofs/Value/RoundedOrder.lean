import Mathlib.Algebra.Order.Ring.Unbundled.Rat
import Rollup.Proofs.Binary64.Monotone
import Rollup.Proofs.Sorting.SortKey
import Rollup.Proofs.Value.Number

/-!
# The natural order of numbers and their exact values

Two integers compare exactly, any other two numbers by the places that they are rounded to. Rounding
keeps the order, so numbers never compare the wrong way round; the order of the exact values is
missed exactly where an integer is rounded onto the floating-point number that it is compared with.
For the same reason to be less is transitive, also across integers and floating-point numbers.
-/

namespace Rollup

namespace Number

open Binary64

/-- A number is an integer. -/
def IsInteger : Number → Prop
  | integer _ => True
  | float _ => False

/-- An integer with a floating-point number that it is rounded to, but that is not its value. -/
def RoundedOnto : Number → Number → Prop
  | integer n, float x | float x, integer n =>
    ofInt n = finite x ∧ (integer n).value ≠ (float x).value
  | _, _ => False

theorem roundedOnto_comm (m n : Number) : RoundedOnto m n ↔ RoundedOnto n m := by
  cases m <;> cases n <;> exact Iff.rfl

/-- Whole numbers compare as the numbers of their units do. -/
theorem compare_mul_one (m n : Int) : compare (m * (one : Int)) (n * one) = compare m n := by
  simp only [Int.compare_eq_ite_lt, Int.mul_lt_mul_right natCast_one_units_pos]

/-- The exact values of numbers are in the order of their units. -/
theorem value_le_iff (m n : Number) : m.value ≤ n.value ↔ m.toUnits ≤ n.toUnits := by
  rw [value_eq_mkRat, value_eq_mkRat, Rat.mkRat_eq_divInt, Rat.mkRat_eq_divInt,
    Rat.divInt_le_divInt natCast_one_units_pos natCast_one_units_pos]
  exact Int.mul_le_mul_right natCast_one_units_pos

/-- The exact values of numbers compare as their units do. -/
theorem compare_value (m n : Number) : compare m.value n.value = compare m.toUnits n.toUnits := by
  rcases Int.lt_trichotomy m.toUnits n.toUnits with hlt | heq | hgt
  · rw [Int.compare_eq_lt.mpr hlt, compare_lt_iff_lt, ← not_le, value_le_iff]
    omega
  · rw [heq, (value_eq_iff m n).mpr heq, compare_eq_iff_eq.mpr rfl, compare_eq_iff_eq.mpr rfl]
  · rw [Int.compare_eq_gt.mpr hgt, compare_gt_iff_gt, ← not_le, value_le_iff]
    omega

/-- A number becomes a floating-point number. -/
theorem toBinary64_ne_nan (n : Number) : n.toBinary64 ≠ nan := by
  cases n with
  | integer n => exact ofRatio_ne_nan _ _ _
  | float x => simp [toBinary64]

/-- A number becomes the floating-point number at the place that its units are rounded to. -/
theorem place_toBinary64 (n : Number) : n.toBinary64.place = roundedPlace n.toUnits := by
  cases n with
  | integer n => exact place_ofInt n
  | float x => exact (roundedPlace_toUnits x).symm

/-- Numbers that are not both integers compare as the places that they are rounded to. -/
theorem compare?_eq_compare_roundedPlace {m n : Number} (h : ¬(m.IsInteger ∧ n.IsInteger)) :
    m.compare? n = some (compare (roundedPlace m.toUnits) (roundedPlace n.toUnits)) := by
  have hrounded : m.compare? n = Binary64.compare? m.toBinary64 n.toBinary64 := by
    cases m with
    | float x => cases n <;> rfl
    | integer j =>
      cases n with
      | float y => rfl
      | integer k => exact absurd ⟨trivial, trivial⟩ h
  rw [hrounded, compare?_eq_compare_place m.toBinary64_ne_nan n.toBinary64_ne_nan,
    place_toBinary64, place_toBinary64]

/-- Integers compare exactly. -/
theorem compare?_eq_compare_toUnits {m n : Number} (hm : m.IsInteger) (hn : n.IsInteger) :
    m.compare? n = some (compare m.toUnits n.toUnits) := by
  cases m with
  | float x => exact hm.elim
  | integer j =>
    cases n with
    | float y => exact hn.elim
    | integer k => exact congrArg some (compare_mul_one j k).symm

/-- A number is less than another one if its units are fewer, and if they stay fewer when they are
rounded or need not be rounded. -/
theorem compare?_eq_lt_iff (m n : Number) :
    m.compare? n = some .lt ↔
      m.toUnits < n.toUnits ∧
        (roundedPlace m.toUnits < roundedPlace n.toUnits ∨ m.IsInteger ∧ n.IsInteger) := by
  by_cases h : m.IsInteger ∧ n.IsInteger
  · simp only [compare?_eq_compare_toUnits h.1 h.2, Option.some.injEq, Int.compare_eq_lt, h,
      and_self, or_true, and_true]
  · simp only [compare?_eq_compare_roundedPlace h, Option.some.injEq, Int.compare_eq_lt, h,
      or_false]
    constructor
    · intro hlt
      refine ⟨?_, hlt⟩
      -- Rounding keeps the order, so it cannot have produced this one.
      rw [← Int.not_le] at hlt ⊢
      exact mt roundedPlace_mono hlt
    · exact And.right

/-- To be less is transitive among numbers. -/
theorem compare?_lt_trans {m n p : Number} (hmn : m.compare? n = some .lt)
    (hnp : n.compare? p = some .lt) : m.compare? p = some .lt := by
  rw [compare?_eq_lt_iff] at hmn hnp ⊢
  obtain ⟨hmn, hmn'⟩ := hmn
  obtain ⟨hnp, hnp'⟩ := hnp
  have hmono := roundedPlace_mono (Int.le_of_lt hmn)
  have hmono' := roundedPlace_mono (Int.le_of_lt hnp)
  refine ⟨Int.lt_trans hmn hnp, ?_⟩
  rcases hmn' with hlt | ⟨hm, -⟩
  · exact Or.inl (Int.lt_of_lt_of_le hlt hmono')
  · rcases hnp' with hlt | ⟨-, hp⟩
    · exact Or.inl (Int.lt_of_le_of_lt hmono hlt)
    · exact Or.inr ⟨hm, hp⟩

/-- Only zero is rounded to zero. -/
theorem units_ne_zero_of_ofInt {n : Int} {x : Finite} (hn : n ≠ 0) (h : ofInt n = finite x) :
    x.units ≠ 0 := by
  have hpos : 0 < n.natAbs * one := Nat.mul_pos (Int.natAbs_pos.mpr hn) one_units_pos
  rw [(eq_of_ofRatio h).2]
  exact Nat.ne_of_gt (roundUnits_pos hpos)

/-- An integer of another value is rounded to a floating-point number exactly if it is rounded to
the place of that number. -/
theorem roundedPlace_eq_iff {n : Int} {x : Finite} (h : n * one ≠ x.toUnits) :
    roundedPlace (n * one) = x.toUnits ↔ ofInt n = finite x := by
  rw [← place_ofInt]
  constructor
  · intro hplace
    have hbounds := x.toUnits_bounds
    cases hround : ofInt n with
    | nan => exact absurd hround (ofRatio_ne_nan _ _ _)
    | infinite a =>
      rw [hround, place] at hplace
      cases a <;> omega
    | finite y =>
      rw [hround, place] at hplace
      have hn : n ≠ 0 := by
        rintro rfl
        apply h
        rw [← hplace, Int.zero_mul, toUnits_of_ofInt (by decide) hround, Int.zero_mul]
      rw [eq_of_toUnits (units_ne_zero_of_ofInt hn hround) hplace]
  · intro hround
    rw [hround, place]

/-- Rounding confuses two numbers exactly if they are not both integers and their units differ, but
are rounded to one place. -/
theorem roundedOnto_iff (m n : Number) :
    RoundedOnto m n ↔ ¬(m.IsInteger ∧ n.IsInteger) ∧ m.toUnits ≠ n.toUnits ∧
      roundedPlace m.toUnits = roundedPlace n.toUnits := by
  have hmixed (n : Int) (x : Finite) : RoundedOnto (integer n) (float x) ↔
      n * one ≠ x.toUnits ∧ roundedPlace (n * one) = roundedPlace x.toUnits := by
    rw [RoundedOnto, ne_eq, value_eq_iff, roundedPlace_toUnits, and_comm]
    exact and_congr_right fun h => (roundedPlace_eq_iff h).symm
  cases m with
  | integer j =>
    cases n with
    | integer k => simp only [RoundedOnto, IsInteger, and_self, not_true_eq_false, false_and]
    | float y =>
      simp only [IsInteger, and_false, not_false_eq_true, true_and]
      exact hmixed j y
  | float x =>
    cases n with
    | integer k =>
      simp only [IsInteger, false_and, not_false_eq_true, true_and]
      rw [roundedOnto_comm, hmixed, eq_comm, ne_comm]
      exact Iff.rfl
    | float y =>
      simp only [RoundedOnto, IsInteger, and_self, not_false_eq_true, true_and, false_iff, not_and]
      intro hne
      rwa [toUnits, toUnits, roundedPlace_toUnits, roundedPlace_toUnits]

/-- Rounded places compare as what is rounded does, unless that differs and is rounded to one
place. -/
theorem compare_roundedPlace_eq_iff (j k : Int) :
    compare (roundedPlace j) (roundedPlace k) = compare j k ↔
      ¬(j ≠ k ∧ roundedPlace j = roundedPlace k) := by
  rcases Int.lt_trichotomy j k with hlt | rfl | hgt
  · have hle := roundedPlace_mono (Int.le_of_lt hlt)
    rw [Int.compare_eq_lt.mpr hlt, Int.compare_eq_lt]
    omega
  · simp
  · have hle := roundedPlace_mono (Int.le_of_lt hgt)
    rw [Int.compare_eq_gt.mpr hgt, Int.compare_eq_gt]
    omega

end Number

namespace Value

/-- Two scalars are both booleans, both numbers or both strings. -/
inductive SameKind : Value → Value → Prop where
  /-- Booleans are of one kind. -/
  | bool (p q : Bool) : SameKind (bool p) (bool q)
  /-- Numbers are of one kind. -/
  | number (m n : Number) : SameKind (number m) (number n)
  /-- Strings are of one kind. -/
  | string (s t : String) : SameKind (string s) (string t)

/-- Only scalars of one kind compare. -/
theorem sameKind_of_compare? {a b : Value} {outcome : Ordering}
    (h : a.compare? b = some outcome) : a.SameKind b := by
  cases a with
  | bool p =>
    cases b with
    | bool q => exact .bool p q
    | _ => cases h
  | number m =>
    cases b with
    | number n => exact .number m n
    | _ => cases h
  | string s =>
    cases b with
    | string t => exact .string s t
    | _ => cases h
  | _ => cases b <;> cases h

/-- Values of one kind are scalars. -/
theorem SameKind.isScalar {a b : Value} (h : a.SameKind b) : a.isScalar = true := by
  cases h <;> rfl

/-- A scalar is of its own kind. -/
theorem sameKind_self {a : Value} (h : a.isScalar = true) : a.SameKind a := by
  cases a with
  | bool p => exact .bool p p
  | number n => exact .number n n
  | string s => exact .string s s
  | _ => cases h

theorem SameKind.symm {a b : Value} (h : a.SameKind b) : b.SameKind a := by
  cases h <;> constructor

theorem SameKind.trans {a b c : Value} (hab : a.SameKind b) (hbc : b.SameKind c) :
    a.SameKind c := by
  cases hab <;> cases hbc <;> constructor

/-- Values of one kind compare. -/
theorem SameKind.exists_compare? {a b : Value} (h : a.SameKind b) :
    ∃ outcome, a.compare? b = some outcome := by
  cases h with
  | bool p q => exact ⟨_, rfl⟩
  | string s t => exact ⟨_, rfl⟩
  | number m n =>
    by_cases hexact : m.IsInteger ∧ n.IsInteger
    · exact ⟨_, Number.compare?_eq_compare_toUnits hexact.1 hexact.2⟩
    · exact ⟨_, Number.compare?_eq_compare_roundedPlace hexact⟩

/-- To be less is transitive among values. -/
theorem compare?_lt_trans {a b c : Value} (hab : a.compare? b = some .lt)
    (hbc : b.compare? c = some .lt) : a.compare? c = some .lt := by
  cases sameKind_of_compare? hab with
  | number m n =>
    cases sameKind_of_compare? hbc
    exact Number.compare?_lt_trans hab hbc
  | bool p q =>
    cases sameKind_of_compare? hbc
    simp only [compare?, Option.some.injEq] at hab hbc ⊢
    exact Std.TransCmp.lt_trans hab hbc
  | string s t =>
    cases sameKind_of_compare? hbc
    simp only [compare?, Option.some.injEq] at hab hbc ⊢
    exact Std.TransCmp.lt_trans hab hbc

/-- To be less and to be greater are transitive among values. -/
theorem compare?_trans {wanted : Ordering} (hwanted : wanted ≠ .eq) {a b c : Value}
    (hab : a.compare? b = some wanted) (hbc : b.compare? c = some wanted) :
    a.compare? c = some wanted := by
  cases wanted with
  | eq => exact absurd rfl hwanted
  | lt => exact compare?_lt_trans hab hbc
  | gt =>
    have hba : b.compare? a = some .lt := by rw [← compare?_swap, hab]; rfl
    have hcb : c.compare? b = some .lt := by rw [← compare?_swap, hbc]; rfl
    rw [← compare?_swap, compare?_lt_trans hcb hba]
    rfl

end Value

/-- Two numbers compare as their exact values do, unless one of them is an integer that is rounded
onto the other one; then they compare as equal. -/
theorem Value.compare?_numbers_eq_compare_value_iff (m n : Number) :
    ((number m).compare? (number n) = some (compare m.value n.value) ↔ ¬m.RoundedOnto n) ∧
      (m.RoundedOnto n → (number m).compare? (number n) = some .eq) := by
  rw [Value.compare?, Number.compare_value, Number.roundedOnto_iff]
  by_cases h : m.IsInteger ∧ n.IsInteger
  · simp [Number.compare?_eq_compare_toUnits h.1 h.2, h]
  · rw [Number.compare?_eq_compare_roundedPlace h, Option.some.injEq,
      Number.compare_roundedPlace_eq_iff]
    constructor
    · simp only [h, not_false_eq_true, true_and]
    · rintro ⟨-, -, hplace⟩
      rw [hplace, compare_eq_iff_eq.mpr rfl]

/-- The floating-point number `2 ^ 53`. -/
def Binary64.Finite.twoPow53 : Binary64.Finite where
  negative := false
  units := 2 ^ 53 * Binary64.one
  representable := ⟨by decide +kernel, 1, 53 + 1074, by decide, by decide +kernel⟩

/-- The integer `2 ^ 53 + 1` is rounded onto the floating-point number `2 ^ 53`. So the two compare
as equal, although the integer is greater. -/
theorem Value.compare?_twoPow53_ne_compare_value :
    (Number.integer 9007199254740993).InRange ∧
      (number (.integer 9007199254740993)).compare? (number (.float .twoPow53)) ≠
        some (compare (Number.integer 9007199254740993).value (Number.float .twoPow53).value) := by
  have hgreater : compare (Number.integer 9007199254740993).value
      (Number.float .twoPow53).value = .gt := by
    rw [Number.compare_value]
    decide +kernel
  refine ⟨by simp [Number.InRange], ?_⟩
  rw [hgreater]
  decide +kernel

end Rollup
