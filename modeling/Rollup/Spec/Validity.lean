import Rollup.Spec.Basic
import Rollup.Spec.Error

/-!
# Validity of specs

A spec in the form that evaluation consumes may still be inconsistent. `Spec.fault?` finds the first
thing that is wrong: an empty statistics path, a grouping without clauses, then the clauses in
order.
-/

namespace Rollup

/-- What is wrong with a range, given its position in the clause on a field. -/
def Range.fault? (field : String) (index : Nat) (range : Range) : Option SpecError :=
  if (range.start.toList ++ range.stop.toList).any (fun bound => !bound.isScalar) then
    some (.nonScalarBound field index)
  else
    match range.start, range.stop with
    | some start, some stop =>
      match start.compare? stop with
      | none => some (.incomparableBounds field index)
      | some .lt => none
      | some _ => some (.invertedRange field index)
    | _, _ => none

/-- What is first wrong with the ranges of the clause on a field. -/
def rangesFault? (field : String) (ranges : List Range) : Option SpecError :=
  if ranges.isEmpty then some (.emptyRanges field)
  else ranges.zipIdx.findSome? fun (range, index) => range.fault? field index

/-- A floating-point number is finite and above zero. -/
def Binary64.isPositive : Binary64 → Bool
  | .finite x => 0 < x.toUnits
  | _ => false

/-- What is first wrong with an interval and its base. -/
def intervalFault? (field : String) (width base : Binary64) : Option SpecError :=
  if !width.isPositive then some (.invalidInterval field width)
  else if !base.isFinite then some (.invalidBase field base)
  else none

/-- What is first wrong with a clause, given its position in the grouping. -/
def Clause.fault? (index : Nat) (clause : Clause) : Option SpecError :=
  if clause.field = "" then some (.emptyGroupField index)
  else
    match clause.bucketing with
    | .value | .timeComponent _ => none
    | .ranges ranges => rangesFault? clause.field ranges
    | .interval width base => intervalFault? clause.field width base

/-- What is first wrong with a spec. -/
def Spec.fault? (spec : Spec) : Option SpecError :=
  if spec.stats.keys.contains "" then some .emptyStatField
  else
    spec.groupBy.bind fun clauses =>
      if clauses.isEmpty then some .emptyGroupBy
      else clauses.zipIdx.findSome? fun (clause, index) => clause.fault? index

/-- Succeeds on a value in which no fault was found. -/
def refuse (fault : Option SpecError) : Except SpecError Unit :=
  match fault with
  | none => .ok ()
  | some error => .error error

/-- Succeeds on a spec that nothing is wrong with. -/
def Spec.validate (spec : Spec) : Except SpecError Unit :=
  refuse spec.fault?

/-- Nothing is refused exactly if no fault was found. -/
theorem refuse_eq_ok_iff {fault : Option SpecError} : refuse fault = .ok () ↔ fault = none := by
  constructor <;> intro h
  · cases fault with
    | none => rfl
    | some error => cases h
  · rw [h]
    rfl

/-- A spec is valid exactly if nothing is wrong with it. -/
theorem Spec.validate_eq_ok_iff (spec : Spec) : spec.validate = .ok () ↔ spec.fault? = none :=
  refuse_eq_ok_iff

end Rollup
