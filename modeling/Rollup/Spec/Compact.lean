import Rollup.Spec.Decode
import Rollup.Json.Reader
import Rollup.Text.Split

/-!
# Compact specs

On a command line a statistics entry is written `FIELD=STAT[,STAT...]`, and a clause `FIELD`,
`FIELD:interval=N[:base=N]`, `FIELD:ranges=[START]..[END][,...]` or `FIELD:time=COMPONENT`. A bound
that is the JSON text of a scalar is that scalar, anything else is a string.
-/

namespace Rollup.Spec

/-- Cuts a string at the first occurrence of a mark. -/
def cutString? (mark : String) (text : String) : Option (String × String) :=
  (Text.cut? mark.toList text.toList).map fun (before, after) =>
    (String.ofList before, String.ofList after)

/-- Reads a statistics entry: a field and its statistics. Blank names are passed over. -/
def readStatArgument (input : String) : Except SpecError (String × StatSet) :=
  match cutString? "=" input with
  | none => .error (.malformed s!"stat '{input}' must look like FIELD=STAT[,STAT...]")
  | some (field, names) =>
    let field := Text.trimString field
    if field = "" then .error .emptyStatField
    else
      let names := (Text.pieces ',' names).filter fun name => Text.trimString name ≠ ""
      (statsOfNames field names).map fun set => (field, set)

/-- Reads a bound: nothing, a scalar in JSON, or any other text. -/
def readBound (input : String) : Option Value :=
  let input := Text.trimString input
  if input = "" then none
  else
    match Json.readNormal? input with
    | some value => if value.isScalar then some value else some (.string input)
    | none => some (.string input)

/-- Reads a range: two bounds around two points. -/
def readRangeArgument (input : String) : Except SpecError Range :=
  match cutString? ".." input with
  | none => .error (.malformed s!"range '{input}' must look like [START]..[END]")
  | some (start, stop) => .ok { start := readBound start, stop := readBound stop }

/-- Reads the number of an option. -/
def readNumberOption (name value : String) : Except SpecError Binary64 :=
  match Binary64.ofText? value.toList with
  | some x => .ok x
  | none => .error (.malformed s!"{name} '{value}' is not a number")

/-- Takes one option into a clause; an option that comes again replaces what it said before. -/
def addOption (clause : WrittenClause) (input : String) : Except SpecError WrittenClause := do
  match cutString? "=" input with
  | none => throw (.malformed s!"groupBy option '{input}' must look like NAME=VALUE")
  | some (name, value) =>
    let value := Text.trimString value
    match Text.trimString name with
    | "interval" => return { clause with interval := some (← readNumberOption name value) }
    | "base" => return { clause with base := some (← readNumberOption name value) }
    | "time" | "timeComponent" => return { clause with timeComponent := some value }
    | "ranges" =>
      let ranges ← (Text.pieces ',' value).mapM readRangeArgument
      return { clause with ranges := some ranges }
    | other =>
      throw (.malformed
        s!"unknown groupBy option '{other}' (expected interval, base, ranges or time)")

/-- Reads a clause: a field and its options. The clause is checked as if it were the first of a
grouping. -/
def readGroupArgument (input : String) : Except SpecError Clause := do
  let parts := Text.pieces ':' input
  let field := Text.trimString (parts.headD "")
  let written ← (parts.drop 1).foldlM addOption { field }
  let clause ← written.toClause
  refuse (clause.fault? 0)
  return clause

/-- The spec of inline arguments: the clauses, the statistics entries, and whether documents are
counted. -/
def ofArguments (groupBy stats : List String) (total : Bool) : Except SpecError Spec := do
  let clauses ← groupBy.mapM readGroupArgument
  let entries ← stats.mapM readStatArgument
  let empty : Spec := { groupBy := if groupBy.isEmpty then none else some clauses, total }
  let spec := entries.foldl (fun spec (field, set) => spec.requestStats field set) empty
  spec.validate
  return spec

end Rollup.Spec
