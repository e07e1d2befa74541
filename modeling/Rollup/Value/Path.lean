import Rollup.Value.Basic
import Rollup.Text.Digits
import Rollup.Text.Split

/-!
# Paths into values

A path is a text of segments with points between them. A segment names a member of an object or, as
a decimal index, an item of an array; the empty text is the path of one empty segment.
-/

namespace Rollup

/-- The segments of a path. -/
def pathSegments (path : String) : List String :=
  Text.pieces '.' path

/-- The index that a segment spells: decimal digits, with or without a plus sign in front. -/
def segmentIndex? (segment : String) : Option Nat :=
  Text.readNat? segment.toList

namespace Value

/-- The part of a value that one segment leads to. -/
def child? (value : Value) (segment : String) : Option Value :=
  match value with
  | object members => members.lookup segment
  | array items => (segmentIndex? segment).bind fun index => items[index]?
  | _ => none

/-- The part of a value that a list of segments leads to. -/
def descend? (value : Value) (segments : List String) : Option Value :=
  segments.foldlM child? value

/-- The part of a value at a path; a null that is written out counts as a part. -/
def resolve? (value : Value) (path : String) : Option Value :=
  value.descend? (pathSegments path)

/-- The part of a value at a path, unless it is null. -/
def resolvePresent? (value : Value) (path : String) : Option Value :=
  (value.resolve? path).filter fun part => !part.isNull

end Value

end Rollup
