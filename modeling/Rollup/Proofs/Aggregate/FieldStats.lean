import Mathlib.Algebra.Order.BigOperators.Group.List
import Mathlib.Algebra.Order.Group.Nat
import Mathlib.Algebra.Ring.Int.Defs
import Mathlib.Algebra.Ring.Nat
import Mathlib.Data.List.Induction
import Rollup.Aggregate.FieldStats
import Rollup.Spec.Basic

/-!
# Statistics of many values

The statistics of a list of values (`FieldStats.ofValues`) are those that observing them one after
another gives. The count is the number of values, the sum is that of the numbers among them, exact
as long as they are integers and every running total fits a signed word, and the extremes are
scalars.
-/

namespace Rollup

namespace Value

/-- The number that a value is. -/
def number? : Value → Option Number
  | number n => some n
  | _ => none

/-- The integer that a value is. -/
def integer? : Value → Option Int
  | number (.integer n) => some n
  | _ => none

end Value

/-- The numbers among values, in order. -/
def numbersOf (values : List Value) : List Number :=
  values.filterMap Value.number?

/-- The integers among values, in order. -/
def integersOf (values : List Value) : List Int :=
  values.filterMap Value.integer?

theorem numbersOf_append (values more : List Value) :
    numbersOf (values ++ more) = numbersOf values ++ numbersOf more :=
  List.filterMap_append

/-- If all numbers among some values are integers, they are the integers among them. -/
theorem numbersOf_eq_map_integer {values : List Value}
    (h : ∀ n ∈ numbersOf values, ∃ k, n = .integer k) :
    numbersOf values = (integersOf values).map .integer := by
  induction values with
  | nil => rfl
  | cons value values ih =>
    cases value with
    | number n =>
      obtain ⟨k, rfl⟩ := h n List.mem_cons_self
      have hrest := ih fun m hm => h m (List.mem_cons_of_mem _ hm)
      exact congrArg (Number.integer k :: ·) hrest
    | _ => exact ih h

namespace Sum

/-- An exact total stays exact when an integer is added, if integer and total fit. -/
theorem add_integer {total n : Int} (hn : FitsSigned n) (htotal : FitsSigned (total + n)) :
    (exact total).add (.integer n) = exact (total + n) := by
  have hadd : (exact total).addExact? (.integer n) = some (total + n) := by
    simp [addExact?, Number.toSigned?, hn, htotal]
  rw [add, hadd]

/-- A total is exact after a number exactly if it was exact before, the number is an integer, and
the integer and the new total fit. -/
theorem add_eq_exact_iff {sum : Sum} {n : Number} {total : Int} :
    sum.add n = exact total ↔
      ∃ old k, sum = exact old ∧ n = .integer k ∧ FitsSigned k ∧ FitsSigned (old + k) ∧
        old + k = total := by
  constructor
  · intro h
    cases sum with
    | rounded r => cases h
    | exact old =>
      cases n with
      | float x => cases h
      | integer k =>
        by_cases hk : FitsSigned k
        · by_cases htotal : FitsSigned (old + k)
          · rw [add_integer hk htotal, exact.injEq] at h
            exact ⟨old, k, rfl, rfl, hk, htotal, h⟩
          · simp [add, addExact?, Number.toSigned?, hk, htotal] at h
        · simp [add, addExact?, Number.toSigned?, hk] at h
  · rintro ⟨old, k, rfl, rfl, hk, htotal, rfl⟩
    exact add_integer hk htotal

/-- A total of numbers is exact exactly if they are integers that fit, and all running totals
fit. -/
theorem foldl_add_eq_exact_iff {numbers : List Number} {total : Int} :
    numbers.foldl add (exact 0) = exact total ↔
      ∃ integers : List Int, numbers = integers.map .integer ∧ (∀ n ∈ integers, FitsSigned n) ∧
        (∀ first, first <+: integers → FitsSigned first.sum) ∧ integers.sum = total := by
  induction numbers using List.reverseRecOn generalizing total with
  | nil =>
    constructor
    · intro h
      refine ⟨[], rfl, by simp, ?_, exact.inj h⟩
      intro first hfirst
      rw [List.prefix_nil.mp hfirst]
      decide
    · rintro ⟨integers, hnumbers, -, -, rfl⟩
      rw [List.map_eq_nil_iff.mp hnumbers.symm]
      rfl
  | append_singleton numbers n ih =>
    simp only [List.foldl_append, List.foldl_cons, List.foldl_nil, add_eq_exact_iff, ih]
    constructor
    · rintro ⟨old, k, ⟨integers, rfl, hfits, htotals, rfl⟩, rfl, hk, htotal, rfl⟩
      refine ⟨integers ++ [k], by simp, ?_, ?_, by simp⟩
      · simpa [or_imp, forall_and] using ⟨hfits, hk⟩
      · intro first hfirst
        rcases List.prefix_concat_iff.mp hfirst with rfl | hfirst
        · simpa using htotal
        · exact htotals first hfirst
    · rintro ⟨integers, hnumbers, hfits, htotals, rfl⟩
      obtain ⟨before, rest, rfl, rfl, hrest⟩ := List.map_eq_append_iff.mp hnumbers.symm
      obtain ⟨k, rfl, rfl⟩ := List.map_eq_singleton_iff.mp hrest
      refine ⟨before.sum, k, ⟨before, rfl, ?_, ?_, rfl⟩, rfl, hfits k (by simp), ?_, by simp⟩
      · exact fun m hm => hfits m (List.mem_append_left _ hm)
      · exact fun first hfirst => htotals first (hfirst.trans (List.prefix_append _ _))
      · simpa using htotals _ (List.prefix_refl _)

/-- The size of a total is at most the total of the sizes. -/
theorem natAbs_sum_le (integers : List Int) :
    integers.sum.natAbs ≤ (integers.map Int.natAbs).sum := by
  induction integers with
  | nil => rfl
  | cons n integers ih =>
    simp only [List.sum_cons, List.map_cons]
    omega

/-- An integer whose size is below that of the largest signed word fits. -/
theorem fitsSigned_of_natAbs_lt {n : Int} (h : n.natAbs < 2 ^ 63) : FitsSigned n := by
  rw [FitsSigned]
  omega

/-- A total of integers is exact if their sizes add up to that of a signed word. -/
theorem foldl_add_of_natAbs_lt {integers : List Int}
    (h : (integers.map Int.natAbs).sum < 2 ^ 63) :
    (integers.map Number.integer).foldl add (exact 0) = exact integers.sum := by
  have hfits : ∀ part : List Int, part.Sublist integers → FitsSigned part.sum := by
    intro part hpart
    apply fitsSigned_of_natAbs_lt
    calc part.sum.natAbs ≤ (part.map Int.natAbs).sum := natAbs_sum_le part
      _ ≤ (integers.map Int.natAbs).sum := (hpart.map _).sum_le_sum (by simp)
      _ < 2 ^ 63 := h
  have hintegers : ∀ n ∈ integers, FitsSigned n := by
    intro n hn
    simpa using hfits [n] (List.singleton_sublist.mpr hn)
  exact foldl_add_eq_exact_iff.mpr
    ⟨integers, rfl, hintegers, fun first hfirst => hfits first hfirst.sublist, rfl⟩

end Sum

namespace FieldStats

variable (stats : FieldStats) (value : Value) (values : List Value)

@[simp] theorem count_observe : (stats.observe value).count = stats.count + 1 := by
  cases value <;> rfl

theorem sum_observe :
    (stats.observe value).sum = some
      (match value.number? with
      | some n => (stats.sum.getD (.exact 0)).add n
      | none => stats.sum.getD (.exact 0)) := by
  cases value <;> rfl

theorem avg_observe :
    (stats.observe value).avg =
      match value.number? with
      | some n => some
          (((stats.sum.getD (.exact 0)).add n).toBinary64 / Binary64.ofInt ↑(stats.count + 1))
      | none => stats.avg := by
  cases value <;> rfl

theorem min_observe : (stats.observe value).min = extreme .lt stats.min value := by
  cases value <;> rfl

theorem max_observe : (stats.observe value).max = extreme .gt stats.max value := by
  cases value <;> rfl

/-- The statistics of values in order. -/
def ofValues (values : List Value) : FieldStats :=
  values.foldl observe .empty

theorem ofValues_concat : ofValues (values ++ [value]) = (ofValues values).observe value := by
  rw [ofValues, List.foldl_append]
  rfl

/-- The count is the number of values. -/
theorem count_ofValues : (ofValues values).count = values.length := by
  induction values using List.reverseRecOn with
  | nil => rfl
  | append_singleton values value ih =>
    rw [ofValues_concat, count_observe, ih, List.length_append, List.length_singleton]

/-- The sum is that of the numbers among the values; it is there as soon as there is a value. -/
theorem sum_ofValues :
    (ofValues values).sum =
      if values = [] then none else some ((numbersOf values).foldl Sum.add (.exact 0)) := by
  induction values using List.reverseRecOn with
  | nil => rfl
  | append_singleton values value ih =>
    have hold : (ofValues values).sum.getD (.exact 0) =
        (numbersOf values).foldl Sum.add (.exact 0) := by
      rw [ih]
      split
      · next hnil => rw [hnil]; rfl
      · rfl
    rw [ofValues_concat, sum_observe, hold, if_neg (by simp), numbersOf_append, List.foldl_append]
    cases value <;> rfl

/-- An extreme is a scalar. -/
theorem isScalar_of_extreme {wanted : Ordering} {current : Option Value} {value : Value}
    (hcurrent : ∀ old ∈ current, old.isScalar = true) :
    ∀ new ∈ extreme wanted current value, new.isScalar = true := by
  rw [extreme]
  split
  · next h =>
    intro new hnew
    rw [Option.mem_some_iff] at hnew
    exact hnew ▸ h.1
  · exact hcurrent

/-- The extremes of values are scalars. -/
theorem isScalar_of_extreme_ofValues :
    (∀ least ∈ (ofValues values).min, least.isScalar = true) ∧
      ∀ greatest ∈ (ofValues values).max, greatest.isScalar = true := by
  induction values using List.reverseRecOn with
  | nil =>
    constructor
    · intro least hleast
      cases hleast
    · intro greatest hgreatest
      cases hgreatest
  | append_singleton values value ih =>
    rw [ofValues_concat, min_observe, max_observe]
    exact ⟨isScalar_of_extreme ih.1, isScalar_of_extreme ih.2⟩

/-- A statistic, if there is one. -/
def statistic? (stats : FieldStats) : Stat → Option Value
  | .count => if 0 < stats.count then some (.nat stats.count) else none
  | .sum => stats.sum.map Sum.toValue
  | .avg => stats.avg.map .ofBinary64
  | .min => stats.min
  | .max => stats.max

end FieldStats

end Rollup
