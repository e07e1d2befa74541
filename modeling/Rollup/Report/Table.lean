import Rollup.Aggregate.Evaluation
import Rollup.Json.Printer
import Rollup.Value.Flatten

/-!
# Tables

A table has a row per record and a column per leaf path of any record, under a header and a
separator and above a summary line. Every cell of a column is padded to the width of the widest,
counted in characters.
-/

namespace Rollup

/-- The text of a leaf in a table: a string as it is, anything else as JSON text. -/
def cellText : Value → List Char
  | .string text => text.toList
  | value => Json.write value

/-- The text of a record in a column; a record without such a leaf has a dash. -/
def cell (fields : SortedMap Value) (column : String) : List Char :=
  match fields.find? column with
  | some leaf => cellText leaf
  | none => ['-']

/-- The columns of some rows: all their leaf paths, in ascending order. -/
def tableColumns (rows : List (SortedMap Value)) : List String :=
  (SortedMap.ofList ((rows.flatMap SortedMap.keys).map fun column => (column, ()))).keys

/-- The width of a column: that of its name or of its widest cell. -/
def columnWidth (rows : List (SortedMap Value)) (column : String) : Nat :=
  rows.foldl (fun width fields => max width (cell fields column).length) column.length

/-- A row of cells, each padded to its width. -/
def tableRow (cells : List (List Char)) (widths : List Nat) : List Char :=
  '|' :: (cells.zip widths).flatMap fun (cell, width) =>
    ' ' :: cell ++ List.replicate (width - cell.length) ' ' ++ [' ', '|']

/-- The row of dashes below the header. -/
def tableSeparator (widths : List Nat) : List Char :=
  '|' :: widths.flatMap fun width => ' ' :: List.replicate width '-' ++ [' ', '|']

/-- What the last line says about a result. -/
def summaryLine : EvalResult → String
  | .overall record total =>
    let found := if record = .object [] then "no documents" else "global aggregate"
    match total with
    | none => found
    | some total => s!"{found} (documents: {total})"
  | .grouped records total =>
    let shown := records.length
    match total with
    | none => s!"buckets: {shown}"
    | some total => s!"buckets: {shown} of {total}"

/-- The lines of a table above its summary: none if no record has a leaf. -/
def tableLines (rows : List (SortedMap Value)) : List (List Char) :=
  let columns := tableColumns rows
  let widths := columns.map (columnWidth rows)
  if columns.isEmpty then []
  else
    tableRow (columns.map String.toList) widths :: tableSeparator widths ::
      rows.map fun fields => tableRow (columns.map (cell fields)) widths

/-- The table of a result. -/
def renderTable (result : EvalResult) : String :=
  let lines := tableLines (result.records.map Value.flatten)
  String.ofList (List.intercalate ['\n'] (lines ++ [(summaryLine result).toList]))

end Rollup
