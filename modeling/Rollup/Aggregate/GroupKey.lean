import Rollup.Spec.Basic
import Rollup.Spec.Error
import Rollup.Value.Path

/-!
# Group keys

The group key of a document has one value per clause. A field that is absent or null keys as null
whatever the clause; an array cannot be grouped by, and neither can a component of a time.
-/

namespace Rollup

/-- Why a field cannot be grouped by. -/
inductive UnsupportedReason where
  /-- The field is an array. -/
  | arrayField
  /-- The clause asks for a component of a time. -/
  | timeComponent (component : String)
deriving DecidableEq

/-- The wording of a reason. -/
def UnsupportedReason.message : UnsupportedReason → String
  | arrayField => "aggregates on array fields are not supported"
  | timeComponent component => s!"time component aggregates ('{component}') are not supported"

/-- Why an evaluation fails. -/
inductive EvalError where
  /-- A document cannot be grouped by a field. -/
  | unsupported (field : String) (reason : UnsupportedReason)
  /-- The spec is inconsistent. -/
  | malformedSpec (cause : SpecError)
deriving DecidableEq

namespace EvalError

/-- The wording of an error. -/
def message : EvalError → String
  | unsupported field reason =>
    let why := reason.message
    s!"unsupported operation on '{field}': {why}"
  | malformedSpec cause =>
    let why := cause.message
    s!"malformed aggregate spec: {why}"

/-- What to do about an error. -/
def tip : EvalError → String
  | unsupported _ .arrayField =>
    "Tip: group by a scalar field, or by an element path such as `tags.0`."
  | unsupported _ (.timeComponent _) =>
    "Tip: bucket timestamps with `interval` instead of `timeComponent`."
  | malformedSpec cause => cause.tip

end EvalError

/-- The start of the cell that a number lies in, on the grid of the given width through `base`. A
value that is not a number lies in none. -/
def intervalKey (width base : Binary64) : Value → Value
  | .number n => .ofBinary64 (Binary64.floor ((n.toBinary64 - base) / width) * width + base)
  | _ => .null

/-- The position of the first range that a value lies in. -/
def rangeKey (ranges : List Range) (value : Value) : Value :=
  match ranges.findIdx? fun range => range.contains value with
  | some index => .nat index
  | none => .null

/-- The key of a present value under a clause. -/
def Clause.keyOf (clause : Clause) (value : Value) : Except EvalError Value :=
  if value.isArray then .error (.unsupported clause.field .arrayField)
  else
    match clause.bucketing with
    | .value => .ok value
    | .ranges ranges => .ok (rangeKey ranges value)
    | .interval width base => .ok (intervalKey width base value)
    | .timeComponent component => .error (.unsupported clause.field (.timeComponent component))

/-- The key of a document under a clause. -/
def Clause.key (data : Value) (clause : Clause) : Except EvalError Value :=
  match data.resolvePresent? clause.field with
  | none => .ok .null
  | some value => clause.keyOf value

/-- The key of a document, one value per clause; the first clause that cannot give one decides the
error. -/
def groupKey (data : Value) (clauses : List Clause) : Except EvalError (List Value) :=
  clauses.mapM (Clause.key data)

end Rollup
