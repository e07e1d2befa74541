import Rollup.Sorting.Merge
import Rollup.Value.Path
import Rollup.Value.Order

/-!
# Sorting records

Records are sorted by the values at paths. Values that do not compare, and absent ones, count as
equal, so the comparison need not be transitive; records that are equal under all keys keep their
order.
-/

namespace Rollup

/-- Whether smaller values come first or last. -/
inductive SortDirection where
  /-- Smaller values come first. -/
  | ascending
  /-- Larger values come first. -/
  | descending
deriving DecidableEq

/-- A path to sort by. -/
structure SortKey where
  /-- The path of the compared values. -/
  path : String
  /-- Which values come first. -/
  direction : SortDirection := .ascending
deriving DecidableEq

namespace SortKey

/-- Reads a path, after a dash for descending order. -/
def ofText (text : String) : SortKey :=
  match text.toList with
  | '-' :: path => ⟨String.ofList path, .descending⟩
  | _ => ⟨text, .ascending⟩

/-- The text that a key is read from. -/
def toText (key : SortKey) : String :=
  match key.direction with
  | .ascending => key.path
  | .descending => "-" ++ key.path

/-- How two records compare under a key. -/
def compare (key : SortKey) (left right : Value) : Ordering :=
  let ordering :=
    match left.resolve? key.path, right.resolve? key.path with
    | some a, some b => (a.compare? b).getD .eq
    | _, _ => .eq
  match key.direction with
  | .ascending => ordering
  | .descending => ordering.swap

end SortKey

/-- How two records compare under several keys: as under the first that tells them apart. -/
def compareRecords (keys : List SortKey) (left right : Value) : Ordering :=
  ((keys.map fun key => key.compare left right).find? (· != .eq)).getD .eq

/-- The records sorted by several keys, the first deciding before the others. -/
def sortRecords (keys : List SortKey) (records : List Value) : List Value :=
  stableSort (compareRecords keys) records

end Rollup
