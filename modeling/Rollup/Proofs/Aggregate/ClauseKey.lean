import Rollup.Aggregate.GroupKey
import Rollup.Proofs.Traversal

/-!
# The key of one clause

The value of the field decides the key: a field that is absent or null has the key null, an array
has none, and any other value is bucketed as the clause says.
-/

namespace Rollup

section Clause

variable (clause : Clause) {data : Value}

/-- A field that is absent has the key null. -/
theorem Clause.key_of_absent (h : data.resolve? clause.field = none) :
    clause.key data = .ok .null := by
  have hpresent : data.resolvePresent? clause.field = none := by
    rw [Value.resolvePresent?, h, Option.filter_none]
  rw [Clause.key, hpresent]

/-- A field that is null has the key null. -/
theorem Clause.key_of_null (h : data.resolve? clause.field = some .null) :
    clause.key data = .ok .null := by
  have hpresent : data.resolvePresent? clause.field = none := by
    rw [Value.resolvePresent?, h]
    rfl
  rw [Clause.key, hpresent]

/-- A field that is not null has the key of its value. -/
theorem Clause.key_of_value {value : Value} (h : data.resolve? clause.field = some value)
    (hnull : value ≠ .null) : clause.key data = clause.keyOf value := by
  have hpresent : data.resolvePresent? clause.field = some value := by
    rw [Value.resolvePresent?, h]
    cases value with
    | null => exact absurd rfl hnull
    | _ => rfl
  rw [Clause.key, hpresent]

/-- An array cannot be grouped by. -/
theorem Clause.keyOf_array (elements : List Value) :
    clause.keyOf (.array elements) = .error (.unsupported clause.field .arrayField) :=
  if_pos rfl

/-- A value that is not an array is bucketed by its range. -/
theorem Clause.keyOf_ranges {field : String} {ranges : List Range} {value : Value}
    (h : value.isArray = false) :
    Clause.keyOf ⟨field, .ranges ranges⟩ value = .ok (rangeKey ranges value) := by
  rw [Clause.keyOf, if_neg (by rw [h]; exact Bool.false_ne_true)]

/-- A value that is not an array is bucketed by its cell. -/
theorem Clause.keyOf_interval {field : String} {width base : Binary64} {value : Value}
    (h : value.isArray = false) :
    Clause.keyOf ⟨field, .interval width base⟩ value = .ok (intervalKey width base value) := by
  rw [Clause.keyOf, if_neg (by rw [h]; exact Bool.false_ne_true)]

/-- A grouping by one clause has the key of that clause. -/
theorem groupKey_singleton_iff {key : Value} :
    groupKey data [clause] = .ok [key] ↔ clause.key data = .ok key := by
  rw [groupKey, mapM_eq_ok_iff, List.forall₂_cons]
  exact and_iff_left .nil

/-- A clause has in a grouping the key that it has alone. -/
theorem groupKey_getElem? {clauses : List Clause} {keys : List Value} {position : Nat}
    (hkeys : groupKey data clauses = .ok keys) (hclause : clauses[position]? = some clause) :
    ∃ key, keys[position]? = some key ∧ groupKey data [clause] = .ok [key] := by
  rw [groupKey, mapM_eq_ok_iff] at hkeys
  induction hkeys generalizing position with
  | nil => cases hclause
  | @cons first key rest keys hfirst _ ih =>
    cases position with
    | zero =>
      rw [List.getElem?_cons_zero, Option.some.injEq] at hclause
      rw [hclause] at hfirst
      exact ⟨key, List.getElem?_cons_zero, (groupKey_singleton_iff clause).mpr hfirst⟩
    | succ position =>
      rw [List.getElem?_cons_succ] at hclause ⊢
      exact ih hclause

end Clause

end Rollup
