import Rollup.Proofs.Aggregate.FieldStats

/-!
# Count, sum and average over any values

The count advances with every value, the sum with every number, and the average is taken anew with
every number only. The sum is an exact integer exactly as long as all numbers are signed words and
all running totals are; what has become a rounded sum stays one.
-/

namespace Rollup

/-- The numbers among values are integers, and every running total of them is a signed word. -/
structure RunningTotalsFit (values : List Value) (integers : List Int) : Prop where
  /-- The numbers are these integers. -/
  numbers : numbersOf values = integers.map .integer
  /-- The running totals are signed words. -/
  totals : ∀ first, first <+: integers → FitsSigned first.sum

/-- If all numbers among some values are integers, these are the integers among them. -/
theorem RunningTotalsFit.integersOf_eq {values : List Value} {integers : List Int}
    (h : RunningTotalsFit values integers) : integersOf values = integers := by
  have hnumbers : numbersOf values = (integersOf values).map .integer := by
    apply numbersOf_eq_map_integer
    intro n hn
    rw [h.numbers, List.mem_map] at hn
    obtain ⟨k, -, rfl⟩ := hn
    exact ⟨k, rfl⟩
  exact List.map_injective_iff.mpr (fun _ _ => Number.integer.inj) (hnumbers.symm.trans h.numbers)

namespace FieldStats

/-- There is no sum exactly if there is no value. -/
theorem sum_ofValues_eq_none_iff {values : List Value} :
    (ofValues values).sum = none ↔ values = [] := by
  rw [sum_ofValues]
  split <;> simp [*]

/-- The sum of values is exact exactly if there are values, their numbers are signed words, and so
are the running totals. -/
theorem sum_ofValues_eq_exact_iff {values : List Value} {total : Int} :
    (ofValues values).sum = some (.exact total) ↔
      values ≠ [] ∧ ∃ integers, RunningTotalsFit values integers ∧ (∀ n ∈ integers, FitsSigned n) ∧
        integers.sum = total := by
  rw [sum_ofValues]
  by_cases hnil : values = []
  · simp [hnil]
  · simp only [hnil, if_false, Option.some.injEq, Sum.foldl_add_eq_exact_iff, ne_eq,
      not_false_eq_true, true_and]
    constructor
    · rintro ⟨integers, hnumbers, hfits, htotals, htotal⟩
      exact ⟨integers, ⟨hnumbers, htotals⟩, hfits, htotal⟩
    · rintro ⟨integers, ⟨hnumbers, htotals⟩, hfits, htotal⟩
      exact ⟨integers, hnumbers, hfits, htotals, htotal⟩

/-- A rounded sum stays rounded. -/
theorem exists_sum_foldl_observe {stats : FieldStats} {rounded : Binary64}
    (h : stats.sum = some (.rounded rounded)) (values : List Value) :
    ∃ total, (values.foldl observe stats).sum = some (.rounded total) := by
  induction values generalizing stats rounded with
  | nil => exact ⟨rounded, h⟩
  | cons value values ih =>
    obtain ⟨next, hnext⟩ : ∃ next, (stats.observe value).sum = some (.rounded next) := by
      rw [sum_observe, h]
      cases value.number? with
      | none => exact ⟨rounded, rfl⟩
      | some n => exact ⟨_, rfl⟩
    exact ih hnext

/-- Values that are no numbers leave the average as it is. -/
theorem avg_foldl_observe (stats : FieldStats) {values : List Value} (h : numbersOf values = []) :
    (values.foldl observe stats).avg = stats.avg := by
  induction values using List.reverseRecOn with
  | nil => rfl
  | append_singleton values value ih =>
    rw [numbersOf_append, List.append_eq_nil_iff] at h
    have hvalue : value.number? = none := by simpa [numbersOf] using h.2
    rw [List.foldl_append, List.foldl_cons, List.foldl_nil, avg_observe, hvalue, ih h.1]

/-- There is no average exactly if there is no number. -/
theorem avg_ofValues_eq_none_iff {values : List Value} :
    (ofValues values).avg = none ↔ numbersOf values = [] := by
  induction values using List.reverseRecOn with
  | nil => simp [ofValues, empty, numbersOf]
  | append_singleton values value ih =>
    rw [ofValues_concat, avg_observe, numbersOf_append, List.append_eq_nil_iff, ← ih]
    cases value with
    | number n => simp [Value.number?, numbersOf]
    | _ => simp [Value.number?, numbersOf]

/-- The average is the sum after the last number, divided by the position of that number. -/
theorem avg_ofValues {before after : List Value} {n : Number} (hafter : numbersOf after = []) :
    ∃ sum, (ofValues (before ++ [.number n])).sum = some sum ∧
      (ofValues (before ++ .number n :: after)).avg =
        some (sum.toBinary64 / Binary64.ofInt ↑(before.length + 1)) := by
  have hsplit : ofValues (before ++ .number n :: after) =
      after.foldl observe (ofValues (before ++ [.number n])) := by
    rw [ofValues, ofValues, ← List.foldl_append, List.append_assoc, List.singleton_append]
  rw [hsplit, avg_foldl_observe _ hafter, ofValues_concat, sum_observe, avg_observe, count_ofValues]
  exact ⟨_, rfl, rfl⟩

/-- Statistics hold the count, the sum and the average of values. -/
structure Summarizes (stats : FieldStats) (values : List Value) : Prop where
  /-- All values count. -/
  count : stats.count = values.length
  /-- There is a sum as soon as there is a value. -/
  sum_eq_none_iff : stats.sum = none ↔ values = []
  /-- The sum is an exact total exactly if there are values, all numbers among them are signed
  words, and all running totals are. -/
  sum_eq_exact_iff (total : Int) : stats.sum = some (.exact total) ↔
    values ≠ [] ∧ ∃ integers, RunningTotalsFit values integers ∧ (∀ n ∈ integers, FitsSigned n) ∧
      integers.sum = total
  /-- A rounded sum stays rounded, whatever values follow. -/
  stays_rounded (rounded : Binary64) (more : List Value) : stats.sum = some (.rounded rounded) →
    ∃ total, (more.foldl observe stats).sum = some (.rounded total)
  /-- There is an average as soon as there is a number. -/
  avg_eq_none_iff : stats.avg = none ↔ numbersOf values = []
  /-- The average is the sum after the last number, divided by the position of that number. -/
  avg_eq (before after : List Value) (n : Number) :
    values = before ++ .number n :: after → numbersOf after = [] →
      ∃ sum, (ofValues (before ++ [.number n])).sum = some sum ∧
        stats.avg = some (sum.toBinary64 / Binary64.ofInt ↑(before.length + 1))

/-- The statistics of any values hold their count, sum and average, however kinds are mixed. -/
theorem summarizes_ofValues (values : List Value) : (ofValues values).Summarizes values where
  count := count_ofValues values
  sum_eq_none_iff := sum_ofValues_eq_none_iff
  sum_eq_exact_iff _ := sum_ofValues_eq_exact_iff
  stays_rounded _ more h := exists_sum_foldl_observe h more
  avg_eq_none_iff := avg_ofValues_eq_none_iff
  avg_eq before after n hvalues hafter := by
    rw [hvalues]
    exact avg_ofValues hafter

/-- What makes the sum of values a rounded one. -/
inductive Widens (values : List Value) : Prop where
  /-- A number among the values is a floating-point number. -/
  | float (x : Binary64.Finite) (h : .float x ∈ numbersOf values)
  /-- An integer among the values is not a signed word. -/
  | addend (n : Int) (h : .integer n ∈ numbersOf values) (hn : ¬FitsSigned n)
  /-- A running total of the integers is not a signed word. -/
  | total (first : List Int) (h : first <+: integersOf values) (hfirst : ¬FitsSigned first.sum)

/-- Nothing makes the sum of values a rounded one exactly if their numbers are signed words, and so
are the running totals. -/
theorem not_widens_iff {values : List Value} :
    ¬Widens values ↔
      ∃ integers, RunningTotalsFit values integers ∧ ∀ n ∈ integers, FitsSigned n := by
  constructor
  · intro h
    have hnumbers : numbersOf values = (integersOf values).map .integer := by
      apply numbersOf_eq_map_integer
      intro n hn
      cases n with
      | integer k => exact ⟨k, rfl⟩
      | float x => exact absurd (.float x hn) h
    refine ⟨integersOf values, ⟨hnumbers, ?_⟩, ?_⟩
    · intro first hfirst
      by_contra hsum
      exact h (.total first hfirst hsum)
    · intro n hn
      by_contra hfits
      refine h (.addend n ?_ hfits)
      rw [hnumbers]
      exact List.mem_map_of_mem hn
  · rintro ⟨integers, hfit, hsigned⟩ hwidens
    cases hwidens with
    | float x h =>
      rw [hfit.numbers] at h
      simp at h
    | addend n h hn =>
      rw [hfit.numbers] at h
      exact hn (hsigned n (by simpa using h))
    | total first h hfirst =>
      rw [hfit.integersOf_eq] at h
      exact hfirst (hfit.totals first h)

/-- The sum of values is a rounded one exactly if something makes it one. -/
theorem exists_sum_ofValues_eq_rounded_iff {values : List Value} :
    (∃ total, (ofValues values).sum = some (.rounded total)) ↔ Widens values := by
  constructor
  · rintro ⟨total, htotal⟩
    by_contra hwidens
    obtain ⟨integers, hfit, hsigned⟩ := not_widens_iff.mp hwidens
    have hne : values ≠ [] := by
      rintro rfl
      cases htotal
    rw [sum_ofValues_eq_exact_iff.mpr ⟨hne, integers, hfit, hsigned, rfl⟩] at htotal
    cases htotal
  · intro hwidens
    cases hsum : (ofValues values).sum with
    | none =>
      have hnil : values = [] := sum_ofValues_eq_none_iff.mp hsum
      have hfit : RunningTotalsFit values [] :=
        ⟨by rw [hnil]; rfl, fun first hfirst => by rw [List.prefix_nil.mp hfirst]; decide⟩
      exact absurd hwidens (not_widens_iff.mpr ⟨[], hfit, by simp⟩)
    | some sum =>
      cases sum with
      | rounded total => exact ⟨total, rfl⟩
      | exact total =>
        obtain ⟨-, integers, hfit, hsigned, -⟩ := sum_ofValues_eq_exact_iff.mp hsum
        exact absurd hwidens (not_widens_iff.mpr ⟨integers, hfit, hsigned⟩)

/-- Integers whose running totals all fit are summed up exactly, if they fit themselves; the sum of
any values becomes a rounded one only by a floating-point number, by an integer that does not fit,
or by a running total that does not fit. -/
theorem sum_ofValues_exact_iff_fitsSigned (values : List Value) :
    (∀ integers, RunningTotalsFit values integers →
      ((ofValues values).sum = (if values = [] then none else some (.exact integers.sum)) ↔
        ∀ n ∈ integers, FitsSigned n)) ∧
    ((∃ total, (ofValues values).sum = some (.rounded total)) ↔ Widens values) := by
  refine ⟨?_, exists_sum_ofValues_eq_rounded_iff⟩
  intro integers hfit
  by_cases hnil : values = []
  · have hintegers : integers = [] := by
      rw [← hfit.integersOf_eq, hnil]
      rfl
    simp [hnil, hintegers, ofValues, empty]
  · rw [if_neg hnil, sum_ofValues_eq_exact_iff]
    constructor
    · rintro ⟨-, others, hothers, hsigned, -⟩
      rw [← hfit.integersOf_eq, hothers.integersOf_eq]
      exact hsigned
    · intro hsigned
      exact ⟨hnil, integers, hfit, hsigned, rfl⟩

/-- The running totals of these integers fit, but the second of them is not a signed word; its last
unit is lost when it is rounded, and the sum is not the exact one. -/
theorem sum_ofValues_unsignedWord_not_exact :
    (∀ n ∈ [-9223372036854775808, 9223372036854775809], (Number.integer n).InRange) ∧
      RunningTotalsFit [.int (-9223372036854775808), .int 9223372036854775809]
        [-9223372036854775808, 9223372036854775809] ∧
      (ofValues [.int (-9223372036854775808), .int 9223372036854775809]).sum ≠
        some (.exact [-9223372036854775808, 9223372036854775809].sum) := by
  refine ⟨by simp [Number.InRange], ⟨rfl, ?_⟩, by decide +kernel⟩
  intro first hfirst
  rcases List.prefix_cons_iff.mp hfirst with rfl | ⟨rest, rfl, hrest⟩
  · decide
  · rcases List.prefix_cons_iff.mp hrest with rfl | ⟨none, rfl, hnone⟩
    · decide
    · rw [List.prefix_nil.mp hnone]
      decide

end FieldStats

end Rollup
