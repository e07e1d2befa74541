import Rollup.Binary64.Text

/-!
# What can be wrong with a spec

A `SpecError` is a cause; `SpecError.message` words it and `SpecError.tip` says what to do about it.
-/

namespace Rollup

/-- Why a spec is refused. -/
inductive SpecError where
  /-- The text does not have the form of a spec. -/
  | malformed (detail : String)
  /-- A name is not one of the statistics. -/
  | unknownStat (field name : String)
  /-- Statistics are requested for the empty path. -/
  | emptyStatField
  /-- A grouping has no clauses. -/
  | emptyGroupBy
  /-- The clause at a position groups by the empty path. -/
  | emptyGroupField (index : Nat)
  /-- A clause has several ways of bucketing. -/
  | conflictingBucketing (field : String) (modes : List String)
  /-- A clause has a base but no interval. -/
  | baseWithoutInterval (field : String)
  /-- A clause has an empty list of ranges. -/
  | emptyRanges (field : String)
  /-- A bound of the range at a position is null or a container. -/
  | nonScalarBound (field : String) (index : Nat)
  /-- The bounds of the range at a position do not compare. -/
  | incomparableBounds (field : String) (index : Nat)
  /-- The range at a position does not start below its end. -/
  | invertedRange (field : String) (index : Nat)
  /-- An interval is not a positive finite number. -/
  | invalidInterval (field : String) (width : Binary64)
  /-- A base is not a finite number. -/
  | invalidBase (field : String) (base : Binary64)
deriving DecidableEq

namespace SpecError

/-- The text of a floating-point number in a message. -/
def numberText (x : Binary64) : String :=
  String.ofList x.plainText

/-- The wording of an error. -/
def message : SpecError → String
  | malformed detail => s!"invalid aggregate syntax: {detail}"
  | unknownStat field name => s!"unknown statistic '{name}' for field '{field}'"
  | emptyStatField => "stats entry has an empty field path"
  | emptyGroupBy => "groupBy has no clauses"
  | emptyGroupField index => s!"groupBy clause {index} has an empty field path"
  | conflictingBucketing field modes =>
    let combined := String.intercalate " and " modes
    s!"groupBy on '{field}' combines {combined}; use at most one bucketing mode"
  | baseWithoutInterval field => s!"groupBy on '{field}' sets a base without an interval"
  | emptyRanges field => s!"groupBy on '{field}' declares an empty range list"
  | nonScalarBound field index =>
    s!"range {index} on '{field}' has a bound that is not a number, string or boolean"
  | incomparableBounds field index => s!"range {index} on '{field}' has bounds of different kinds"
  | invertedRange field index => s!"range {index} on '{field}' has start >= end"
  | invalidInterval field width =>
    let got := numberText width
    s!"interval on '{field}' must be a positive finite number, got {got}"
  | invalidBase field base =>
    let got := numberText base
    s!"base on '{field}' must be a finite number, got {got}"

/-- What to do about an error. -/
def tip : SpecError → String
  | unknownStat _ _ => "Tip: statistics are `count`, `sum`, `avg`, `min`, `max`."
  | malformed _ =>
    "Tip: spec format is `\x7bgroupBy, stats, total\x7d`.\nExample: " ++
      "`\x7b\"groupBy\": \"animalType\", \"stats\": \x7b\"age\": [\"avg\"]\x7d, " ++
      "\"total\": true\x7d`"
  | _ => "Tip: ranges are half-open `[start, end)` and intervals must be positive."

end SpecError

end Rollup
