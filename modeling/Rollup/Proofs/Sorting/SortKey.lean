import Rollup.Proofs.Sorting.Merge
import Rollup.Sorting.SortKey

/-!
# Sorting records safely

Comparing two records the other way round swaps the outcome, although values that do not compare
count as equal and the comparison is not transitive. That is enough for a sorted list of records to
be the given records in an order without a descent from one record to the next.
-/

namespace Rollup

/-- Numbers compare the other way round with the outcome swapped. -/
theorem Number.compare?_swap (m n : Number) : (m.compare? n).map Ordering.swap = n.compare? m := by
  cases m with
  | integer m =>
    cases n with
    | integer n =>
      simp only [Number.compare?, Option.map_some, Option.some.injEq]
      exact Std.OrientedCmp.eq_swap.symm
    | float y => exact Binary64.compare?_swap (integer m).toBinary64 (float y).toBinary64
  | float x =>
    cases n with
    | integer n => exact Binary64.compare?_swap (float x).toBinary64 (integer n).toBinary64
    | float y => exact Binary64.compare?_swap (float x).toBinary64 (float y).toBinary64

/-- Values compare the other way round with the outcome swapped, if they compare. -/
theorem Value.compare?_swap (a b : Value) : (a.compare? b).map Ordering.swap = b.compare? a := by
  cases a with
  | number m =>
    cases b with
    | number n => exact Number.compare?_swap m n
    | _ => rfl
  | string s =>
    cases b with
    | string t =>
      simp only [Value.compare?, Option.map_some, Option.some.injEq]
      exact Std.OrientedCmp.eq_swap.symm
    | _ => rfl
  | bool p =>
    cases b with
    | bool q => cases p <;> cases q <;> rfl
    | _ => rfl
  | _ => cases b <;> rfl

/-- Records compare the other way round under a key with the outcome swapped. -/
theorem SortKey.compare_swap (key : SortKey) (left right : Value) :
    (key.compare left right).swap = key.compare right left := by
  obtain ⟨path, direction⟩ := key
  have hplain : (SortKey.compare ⟨path, .ascending⟩ left right).swap =
      SortKey.compare ⟨path, .ascending⟩ right left := by
    simp only [SortKey.compare]
    cases left.resolve? path with
    | none => cases right.resolve? path <;> rfl
    | some a =>
      cases right.resolve? path with
      | none => rfl
      | some b =>
        simp only [← Value.compare?_swap a b]
        cases a.compare? b <;> rfl
  cases direction with
  | ascending => exact hplain
  | descending => exact congrArg Ordering.swap hplain

/-- Under no keys all records are equal. -/
theorem compareRecords_nil (left right : Value) : compareRecords [] left right = .eq := rfl

/-- Records compare as under the first key, and as under the others if it does not tell them
apart. -/
theorem compareRecords_cons (key : SortKey) (keys : List SortKey) (left right : Value) :
    compareRecords (key :: keys) left right =
      (key.compare left right).then (compareRecords keys left right) := by
  simp only [compareRecords, List.map_cons, List.find?_cons]
  cases key.compare left right <;> rfl

/-- Records compare the other way round with the outcome swapped. -/
theorem compareRecords_swap (keys : List SortKey) (left right : Value) :
    (compareRecords keys left right).swap = compareRecords keys right left := by
  induction keys with
  | nil => rfl
  | cons key keys ih =>
    rw [compareRecords_cons, compareRecords_cons, Ordering.swap_then, key.compare_swap, ih]

/-- Of two records at most one is less than the other. -/
theorem compareRecords_asymm {keys : List SortKey} {left right : Value}
    (h : compareRecords keys left right = .lt) : compareRecords keys right left ≠ .lt := by
  rw [← compareRecords_swap, h]
  decide

/-- Without sort keys records keep their order. -/
theorem sortRecords_nil (records : List Value) : sortRecords [] records = records := by
  apply stableSort_eq_self
  intro a _ b _
  rw [compareRecords_nil]
  decide

/-- Sorting is safe on any records: none is lost or doubled, and none is less than its left
neighbour, whatever shapes the records have and however little their values compare. -/
theorem sortRecords_perm_and_isChain (keys : List SortKey) (records : List Value) :
    (sortRecords keys records).Perm records ∧
      (sortRecords keys records).IsChain
        fun left right => compareRecords keys right left ≠ .lt := by
  constructor
  · exact stableSort_perm _ records
  · apply isChain_stableSort
    intro a b h
    exact compareRecords_asymm h

end Rollup
