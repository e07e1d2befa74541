import Rollup.Aggregate.Bucket

/-!
# Pruning records

A bucket accumulates all statistics of a field, so that records can be sorted by any of them.
Pruning then keeps what the spec asks for.
-/

namespace Rollup

namespace Spec

/-- Whether the spec requests the statistic with a name for a field. -/
def requests (spec : Spec) (field name : String) : Bool :=
  match Stat.ofName? name, spec.stats.find? field with
  | some stat, some set => set.contains stat
  | _, _ => false

/-- Keeps the requested statistics of one field; what is not an object stays as it is. -/
def pruneField (spec : Spec) (field : String) : Value → Value
  | .object stats => .object (stats.filter fun (name, _) => spec.requests field name)
  | other => other

/-- The `stats` member after pruning: none if it is no object or an empty one. -/
def pruneStats? (spec : Spec) : Value → Option Value
  | .object fields =>
    if fields.isEmpty then none
    else some (.object (fields.map fun (field, stats) => (field, spec.pruneField field stats)))
  | _ => none

/-- A member of a record after pruning. -/
def pruneMember? (spec : Spec) : String × Value → Option (String × Value)
  | (name, value) =>
    if name = "stats" then (spec.pruneStats? value).map fun stats => (name, stats)
    else if name = "total" then if spec.total then some (name, value) else none
    else some (name, value)

/-- Keeps the requested statistics and the total of a record if the spec asks for it. -/
def prune (spec : Spec) : Value → Value
  | .object members => .object (members.filterMap spec.pruneMember?)
  | other => other

end Spec

end Rollup
