import Mathlib.Algebra.Ring.Int.Defs
import Mathlib.Algebra.Ring.Nat
import Mathlib.Data.Rat.Defs
import Rollup.Proofs.Aggregate.FieldStats
import Rollup.Proofs.Value.IntegerArithmetic
import Rollup.Proofs.Value.Respelling

/-!
# Sums in the safe range

Integer-valued numbers whose sizes add up to no more than the largest safe integer are added without
rounding, whether they are integers or floating-point numbers and whether the running sum is exact
or not. So the statistics of values and of the same values with numbers spelled in another way stay
in step.
-/

namespace Rollup

/-- The numbers are integer-valued, and their sizes add up to a safe integer at most. -/
structure Number.SafelyAddable (numbers : List Number) : Prop where
  /-- Every number is integer-valued. -/
  integral : ∀ n ∈ numbers, n.value.den = 1
  /-- The sizes add up to no more than the largest safe integer. -/
  bounded : (numbers.map fun n => n.value.num.natAbs).sum ≤ maxSafeInteger

/-- Fewer numbers are safely addable as well. -/
theorem Number.SafelyAddable.sublist {numbers others : List Number} (h : SafelyAddable numbers)
    (hsublist : others.Sublist numbers) : SafelyAddable others where
  integral n hn := h.integral n (hsublist.subset hn)
  bounded := Nat.le_trans ((hsublist.map _).sum_le_sum (by simp)) h.bounded

namespace Binary64

open Number

/-- Adding to a safe integer a floating-point number with the value of an integer is rounding the
sum of the integers. -/
theorem ofInt_add {m n : Int} (hm : m.natAbs ≤ maxSafeInteger) {x : Finite}
    (hx : x.toUnits = n * one) : ofInt m + finite x = ofInt (m + n) := by
  have hsum : ofInt m + finite x =
      ofUnits ((ofSafe m hm).negative && x.negative) ((m + n) * one) := by
    rw [ofInt_eq_ofSafe hm, Int.add_mul, ← toUnits_ofSafe hm, ← hx]
    rfl
  -- Numbers that add up to zero are not both negative.
  have hsign : m + n = 0 → ((ofSafe m hm).negative && x.negative) = false := by
    intro hzero
    by_cases hneg : m < 0
    · have hpos : 0 < x.toUnits := by
        rw [hx]
        exact Int.mul_pos (by omega) natCast_one_units_pos
      have hx : x.negative = false := by
        rw [Finite.toUnits] at hpos
        split at hpos
        · omega
        · next h => exact Bool.eq_false_of_not_eq_true h
      rw [hx, Bool.and_false]
    · have hfirst : (ofSafe m hm).negative = false := decide_eq_false hneg
      rw [hfirst, Bool.false_and]
  have hlt := Int.mul_lt_mul_right (b := m + n) (c := 0) natCast_one_units_pos
  have hzero := units_inj (j := m + n) (k := 0)
  rw [Int.zero_mul] at hlt hzero
  rw [hsum, ofUnits, ofInt, Int.natAbs_mul, Int.natAbs_natCast]
  simp only [hlt, hzero]
  split
  · next h => rw [hsign h, h]; rfl
  · rfl

end Binary64

namespace Sum

/-- A running sum holds an integer, exactly or as a floating-point number. -/
def Denotes (sum : Sum) (total : Int) : Prop :=
  sum = exact total ∨ sum = rounded (Binary64.ofInt total)

variable {sum : Sum} {total : Int} (h : sum.Denotes total)
include h

theorem Denotes.toBinary64_eq : sum.toBinary64 = Binary64.ofInt total := by
  rcases h with rfl | rfl <;> rfl

/-- A safe integer shows as such, in whatever form a sum holds it. -/
theorem Denotes.toValue_eq (htotal : total.natAbs ≤ Number.maxSafeInteger) :
    sum.toValue = .int total := by
  rcases h with rfl | rfl
  · rfl
  · exact Value.ofBinary64_of_hasValue (Binary64.hasValue_ofInt htotal) htotal

/-- Adding a number with the value of an integer adds that integer, as long as all is safe. -/
theorem Denotes.add {m : Number} {n : Int} (hm : m.value = n)
    (hsize : total.natAbs + n.natAbs ≤ Number.maxSafeInteger) :
    (sum.add m).Denotes (total + n) := by
  have hbound : total.natAbs + n.natAbs < 2 ^ 63 := Nat.lt_of_le_of_lt hsize (by decide)
  obtain ⟨x, hx, hunits⟩ := Number.hasValue_toBinary64 hm (by omega)
  have hrounded : rounded (sum.toBinary64 + m.toBinary64) =
      rounded (Binary64.ofInt (total + n)) := by
    rw [h.toBinary64_eq, hx, Binary64.ofInt_add (by omega) hunits]
  rcases h with rfl | rfl
  · cases m with
    | integer k =>
      obtain rfl : k = n := Rat.intCast_inj.mp hm
      exact Or.inl (add_integer (fitsSigned_of_natAbs_lt (by omega))
        (fitsSigned_of_natAbs_lt (by omega)))
    | float y => exact Or.inr hrounded
  · exact Or.inr hrounded

end Sum

namespace FieldStats

/-- The extremes of values and of their respellings stay respellings of one another. -/
theorem rel_extreme {wanted : Ordering} {old other : Option Value} {a b : Value}
    (hold : Option.Rel Value.Respells old other) (h : a.Respells b) :
    Option.Rel Value.Respells (extreme wanted old a) (extreme wanted other b) := by
  have hreplace : (a.isScalar ∧ old.all (fun old => a.compare? old = some wanted)) ↔
      (b.isScalar ∧ other.all (fun old => b.compare? old = some wanted)) := by
    rw [h.isScalar_eq]
    refine and_congr_right fun _ => ?_
    cases hold with
    | none => exact Iff.rfl
    | some hold => simp only [Option.all_some, h.compare?_left, hold.compare?_right]
  rw [extreme, extreme]
  by_cases hb : b.isScalar ∧ other.all (fun old => b.compare? old = some wanted)
  · rw [if_pos hb, if_pos (hreplace.mpr hb)]
    exact .some h
  · rw [if_neg hb, if_neg (mt hreplace.mp hb)]
    exact hold

/-- Two statistics are those of values and of their respellings, the numbers among which add up to a
total. -/
structure InStep (total : Int) (stats other : FieldStats) : Prop where
  /-- The counts are the same. -/
  count : stats.count = other.count
  /-- The sums are there only together. -/
  present : stats.sum.isSome = other.sum.isSome
  /-- The one sum holds the total. -/
  sum : (stats.sum.getD (.exact 0)).Denotes total
  /-- The other sum holds the total. -/
  otherSum : (other.sum.getD (.exact 0)).Denotes total
  /-- The averages are the same. -/
  avg : stats.avg = other.avg
  /-- The minima are respellings of one another. -/
  min : Option.Rel Value.Respells stats.min other.min
  /-- The maxima are respellings of one another. -/
  max : Option.Rel Value.Respells stats.max other.max

theorem inStep_empty : InStep 0 empty empty where
  count := rfl
  present := rfl
  sum := Or.inl rfl
  otherSum := Or.inl rfl
  avg := rfl
  min := .none
  max := .none

section Observe

variable {total : Int} {stats other : FieldStats} (h : InStep total stats other)
include h

/-- Both spellings of a number keep the statistics in step. -/
theorem InStep.observe_number {m m' : Number} (hm : m.Respells m') {n : Int} (hn : m.value = n)
    (hsize : total.natAbs + n.natAbs ≤ Number.maxSafeInteger) :
    InStep (total + n) (stats.observe (.number m)) (other.observe (.number m')) := by
  have hsum := h.sum.add hn hsize
  have hotherSum := h.otherSum.add (hm.value_eq.symm.trans hn) hsize
  have hvalue := Value.Respells.number hm
  constructor
  · rw [count_observe, count_observe, h.count]
  · rw [sum_observe, sum_observe]
    rfl
  · rw [sum_observe]
    exact hsum
  · rw [sum_observe]
    exact hotherSum
  · rw [avg_observe, avg_observe]
    simp only [Value.number?, hsum.toBinary64_eq, hotherSum.toBinary64_eq, h.count]
  · rw [min_observe, min_observe]
    exact rel_extreme h.min hvalue
  · rw [max_observe, max_observe]
    exact rel_extreme h.max hvalue

/-- Both spellings of what is not a number keep the statistics in step. -/
theorem InStep.observe_other {a b : Value} (hab : a.Respells b) (ha : a.number? = none) :
    InStep total (stats.observe a) (other.observe b) := by
  have hb : b.number? = none := by
    cases hab with
    | number _ => cases ha
    | _ => rfl
  constructor
  · rw [count_observe, count_observe, h.count]
  · rw [sum_observe, sum_observe]
    rfl
  · rw [sum_observe, ha]
    exact h.sum
  · rw [sum_observe, hb]
    exact h.otherSum
  · rw [avg_observe, avg_observe, ha, hb]
    exact h.avg
  · rw [min_observe, min_observe]
    exact rel_extreme h.min hab
  · rw [max_observe, max_observe]
    exact rel_extreme h.max hab

/-- Values and their respellings, observed one after another, keep the statistics in step, if the
numbers among them are integer-valued and all stays safe. -/
theorem InStep.foldl_observe {values others : List Value}
    (hvalues : List.Forall₂ Value.Respells values others)
    (hintegral : ∀ n ∈ numbersOf values, n.value.den = 1)
    (hsize : total.natAbs + ((numbersOf values).map fun n => n.value.num.natAbs).sum ≤
      Number.maxSafeInteger) :
    ∃ sum : Int, sum.natAbs ≤ Number.maxSafeInteger ∧
      InStep sum (values.foldl observe stats) (others.foldl observe other) := by
  induction hvalues generalizing total stats other with
  | nil => exact ⟨total, by simpa [numbersOf] using hsize, h⟩
  | @cons a b values others hab _ ih =>
    cases hnumber : a.number? with
    | none =>
      have hnumbers : numbersOf (a :: values) = numbersOf values :=
        List.filterMap_cons_none hnumber
      rw [hnumbers] at hintegral hsize
      exact ih (h.observe_other hab hnumber) hintegral hsize
    | some m =>
      have hnumbers : numbersOf (a :: values) = m :: numbersOf values :=
        List.filterMap_cons_some hnumber
      rw [hnumbers] at hintegral hsize
      rw [List.map_cons, List.sum_cons] at hsize
      have hvalue : m.value = m.value.num := (Rat.den_eq_one_iff m.value).mp
        (hintegral m List.mem_cons_self) |>.symm
      cases hab with
      | number hm =>
        cases hnumber
        exact ih (h.observe_number hm hvalue (by omega))
          (fun n hn => hintegral n (List.mem_cons_of_mem _ hn)) (by omega)
      | _ => cases hnumber

end Observe

/-- The statistics of values and of their respellings are in step. -/
theorem exists_inStep_ofValues {values others : List Value}
    (hvalues : List.Forall₂ Value.Respells values others)
    (hsafe : Number.SafelyAddable (numbersOf values)) :
    ∃ sum : Int, sum.natAbs ≤ Number.maxSafeInteger ∧
      InStep sum (ofValues values) (ofValues others) :=
  inStep_empty.foldl_observe hvalues hsafe.integral (by simpa using hsafe.bounded)

/-- Statistics in step show the same count, sum and average. -/
theorem InStep.statistic?_eq {total : Int} {stats other : FieldStats} (h : InStep total stats other)
    (htotal : total.natAbs ≤ Number.maxSafeInteger) {stat : Stat}
    (hstat : stat ∈ [Stat.count, .sum, .avg]) : stats.statistic? stat = other.statistic? stat := by
  simp only [List.mem_cons, List.not_mem_nil, or_false] at hstat
  rcases hstat with rfl | rfl | rfl
  · rw [statistic?, statistic?, h.count]
  · have hsum := h.sum
    have hotherSum := h.otherSum
    have hpresent := h.present
    rw [statistic?, statistic?]
    cases hleft : stats.sum with
    | none =>
      rw [hleft, Option.isSome_none, eq_comm, Option.isSome_eq_false_iff,
        Option.isNone_iff_eq_none] at hpresent
      rw [hpresent]
    | some sum =>
      rw [hleft, Option.isSome_some, eq_comm, Option.isSome_iff_exists] at hpresent
      obtain ⟨otherSum, hright⟩ := hpresent
      rw [hleft, Option.getD_some] at hsum
      rw [hright, Option.getD_some] at hotherSum
      rw [hright, Option.map_some, Option.map_some, hsum.toValue_eq htotal,
        hotherSum.toValue_eq htotal]
  · rw [statistic?, statistic?, h.avg]

/-- The statistics of values and of their respellings show extremes that compare as equal. -/
theorem InStep.rel_statistic? {total : Int} {values others : List Value}
    (h : InStep total (ofValues values) (ofValues others)) {stat : Stat}
    (hstat : stat ∈ [Stat.min, .max]) :
    Option.Rel (fun a b => a.compare? b = some .eq) ((ofValues values).statistic? stat)
      ((ofValues others).statistic? stat) := by
  have hscalar := isScalar_of_extreme_ofValues values
  simp only [List.mem_cons, List.not_mem_nil, or_false] at hstat
  rcases hstat with rfl | rfl
  · exact Value.rel_compare?_eq h.min hscalar.1
  · exact Value.rel_compare?_eq h.max hscalar.2

end FieldStats

end Rollup
