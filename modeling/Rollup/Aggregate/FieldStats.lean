import Rollup.Value.Order

/-!
# Statistics of a field

`FieldStats` accumulates all five statistics over the values of one field. The sum stays an exact
integer until a number is not a signed word or the total leaves the range of one; from then on it is
a floating-point number.
-/

namespace Rollup

/-- A running sum. -/
inductive Sum where
  /-- The exact total, as long as all is integers and fits. -/
  | exact (total : Int)
  /-- A rounded total. -/
  | rounded (total : Binary64)
deriving DecidableEq

namespace Sum

/-- The total as a floating-point number. -/
def toBinary64 : Sum → Binary64
  | exact total => Binary64.ofInt total
  | rounded total => total

/-- The exact total after adding a number, if there still is one. -/
def addExact? : Sum → Number → Option Int
  | exact total, n => do
    let addend ← n.toSigned?
    if FitsSigned (total + addend) then some (total + addend) else none
  | rounded _, _ => none

/-- The total after adding a number. -/
def add (sum : Sum) (n : Number) : Sum :=
  match sum.addExact? n with
  | some total => exact total
  | none => rounded (sum.toBinary64 + n.toBinary64)

/-- The total as a value. -/
def toValue : Sum → Value
  | exact total => .int total
  | rounded total => .ofBinary64 total

end Sum

/-- The statistics of the values of one field. -/
structure FieldStats where
  /-- How many values there were. A counter of 64 bits holds the same number, as no list in memory
  has `2 ^ 64` values. -/
  count : Nat := 0
  /-- The sum of the numbers among them; it starts at zero with the first value. -/
  sum : Option Sum := none
  /-- The sum divided by the count, as of the last number. -/
  avg : Option Binary64 := none
  /-- The least scalar. -/
  min : Option Value := none
  /-- The greatest scalar. -/
  max : Option Value := none
deriving DecidableEq

namespace FieldStats

/-- The statistics of no values. -/
def empty : FieldStats := {}

instance : Inhabited FieldStats := ⟨empty⟩

/-- The extreme after a value: the value, if there was none before or it compares with it as
given. -/
def extreme (wanted : Ordering) (current : Option Value) (value : Value) : Option Value :=
  if value.isScalar ∧ current.all (fun old => value.compare? old = some wanted) then some value
  else current

/-- The statistics after one more value, null or not. -/
def observe (stats : FieldStats) (value : Value) : FieldStats :=
  let count := stats.count + 1
  let sum := stats.sum.getD (.exact 0)
  let stats : FieldStats :=
    { stats with
      count
      min := extreme .lt stats.min value
      max := extreme .gt stats.max value }
  match value with
  | .number n =>
    let sum := sum.add n
    { stats with sum := some sum, avg := some (sum.toBinary64 / Binary64.ofInt count) }
  | _ => { stats with sum := some sum }

/-- Every statistic that there is, under its name. -/
def toValue (stats : FieldStats) : Value :=
  .object <| List.filterMap id [
    stats.avg.map fun avg => ("avg", .ofBinary64 avg),
    if 0 < stats.count then some ("count", .nat stats.count) else none,
    stats.max.map fun max => ("max", max),
    stats.min.map fun min => ("min", min),
    stats.sum.map fun sum => ("sum", sum.toValue)]

end FieldStats

end Rollup
