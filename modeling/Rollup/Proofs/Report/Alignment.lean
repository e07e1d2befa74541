import Mathlib.Algebra.BigOperators.Group.List.Basic
import Mathlib.Algebra.Ring.Nat
import Mathlib.Order.Bounds.Basic
import Rollup.Proofs.Report.TableLines

/-!
# Alignment of a table

The widths of the columns are found in one pass over the records and used in another one. As no
cell is wider than its column, each cell takes up the width of its column and three characters more,
whatever it holds. So all lines above the summary are equally long, and a column starts at the same
place in all of them (`EvalResult.aligned`).
-/

namespace Rollup

section Rows

/-- A cell with what belongs to it in a line: a space in front, the padding, a space and a bar. -/
def paddedCell (text : List Char) (width : Nat) : List Char :=
  ' ' :: text ++ List.replicate (width - text.length) ' ' ++ [' ', '|']

/-- The place at which the cell of a column starts, behind a bar and a space: each column before it
takes up three characters more than its width. -/
def columnStart (widths : List Nat) (index : Nat) : Nat :=
  ((widths.take index).map (· + 3)).sum + 2

/-- The length of a line over columns of some widths: a bar, and for each column three characters
more than its width. -/
def lineLength (widths : List Nat) : Nat :=
  (widths.map (· + 3)).sum + 1

/-- In a line a text has its cell at a place: it fits into the width, and a bar and a space are in
front of it, spaces up to the width, one more space and a bar behind it. -/
structure HasCellAt (line : List Char) (start width : Nat) (text : List Char) : Prop where
  /-- The text is not wider than the cell. -/
  fits : text.length ≤ width
  /-- The cell stands at the place. -/
  stands : ∃ before after, before.length + 2 = start ∧
    line = before ++ '|' :: ' ' :: text ++ List.replicate (width - text.length) ' ' ++
      ' ' :: '|' :: after

theorem length_paddedCell {text : List Char} {width : Nat} (h : text.length ≤ width) :
    (paddedCell text width).length = width + 3 := by
  simp only [paddedCell, List.length_append, List.length_cons, List.length_replicate,
    List.length_nil]
  omega

variable (columns : List String) (text : String → List Char) (width : String → Nat)

/-- A row is a bar and the padded cells. -/
theorem tableRow_map :
    tableRow (columns.map text) (columns.map width) =
      '|' :: columns.flatMap fun column => paddedCell (text column) (width column) := by
  rw [tableRow, List.zip_map', List.flatMap_map]
  rfl

/-- The separator is a row with dashes in the whole width of every cell. -/
theorem tableSeparator_map :
    tableSeparator (columns.map width) =
      tableRow (columns.map fun column => List.replicate (width column) '-')
        (columns.map width) := by
  rw [tableRow_map, tableSeparator, List.flatMap_map]
  simp [paddedCell]

/-- What stands in front of the space of a cell ends with a bar, be it that of the line or that of
the cell before. -/
theorem exists_eq_concat_bar :
    ∃ before, '|' :: columns.flatMap (fun column => paddedCell (text column) (width column)) =
      before ++ ['|'] := by
  rcases List.eq_nil_or_concat' columns with rfl | ⟨others, last, rfl⟩
  · exact ⟨[], rfl⟩
  · refine ⟨('|' :: others.flatMap fun column => paddedCell (text column) (width column)) ++
      (' ' :: text last ++ List.replicate (width last - (text last).length) ' ' ++ [' ']), ?_⟩
    simp [paddedCell]

variable {columns text width} (h : ∀ column ∈ columns, (text column).length ≤ width column)
include h

theorem length_flatMap_paddedCell :
    (columns.flatMap fun column => paddedCell (text column) (width column)).length =
      ((columns.map width).map (· + 3)).sum := by
  rw [List.length_flatMap, List.map_map]
  congr 1
  exact List.map_congr_left fun column hcolumn => length_paddedCell (h column hcolumn)

/-- The length of a row in which every text fits does not depend on the texts. -/
theorem length_tableRow :
    (tableRow (columns.map text) (columns.map width)).length = lineLength (columns.map width) := by
  rw [tableRow_map, List.length_cons, length_flatMap_paddedCell h, lineLength]

/-- In a row in which every text fits each one stands in the cell of its column. -/
theorem hasCellAt_tableRow {index : Nat} {column : String}
    (hcolumn : columns[index]? = some column) :
    HasCellAt (tableRow (columns.map text) (columns.map width))
      (columnStart (columns.map width) index) (width column) (text column) := by
  refine ⟨h column (List.mem_of_getElem? hcolumn), ?_⟩
  have hfront : ∀ other ∈ columns.take index, (text other).length ≤ width other :=
    fun other hother => h other (List.mem_of_mem_take hother)
  obtain ⟨before, hbefore⟩ := exists_eq_concat_bar (columns.take index) text width
  have hsplit : columns = columns.take index ++ column :: columns.drop (index + 1) := by
    obtain ⟨hindex, hget⟩ := List.getElem?_eq_some_iff.mp hcolumn
    rw [← hget, ← List.drop_eq_getElem_cons hindex, List.take_append_drop]
  refine ⟨before, (columns.drop (index + 1)).flatMap fun other =>
    paddedCell (text other) (width other), ?_, ?_⟩
  · have hlength := congrArg List.length hbefore
    rw [List.length_cons, length_flatMap_paddedCell hfront, List.length_append,
      List.length_singleton] at hlength
    rw [columnStart, ← List.map_take]
    omega
  · rw [tableRow_map]
    nth_rewrite 1 [hsplit]
    rw [List.flatMap_append, ← List.cons_append, hbefore, List.flatMap_cons]
    simp [paddedCell]

end Rows

section Widths

variable (rows : List (SortedMap Value)) (column : String)

theorem columnWidth_concat (row : SortedMap Value) :
    columnWidth (rows ++ [row]) column =
      max (columnWidth rows column) (cell row column).length := by
  rw [columnWidth, List.foldl_append]
  rfl

/-- The width of a column is the greatest of the lengths of its name and its cells. -/
theorem isGreatest_columnWidth :
    IsGreatest (insert column.length {n | ∃ row ∈ rows, n = (cell row column).length})
      (columnWidth rows column) := by
  induction rows using List.reverseRecOn with
  | nil =>
    have hnone : {n | ∃ row ∈ ([] : List (SortedMap Value)), n = (cell row column).length} = ∅ := by
      simp
    rw [hnone, insert_empty_eq]
    exact isGreatest_singleton
  | append_singleton rows row ih =>
    have hmore : {n | ∃ other ∈ rows ++ [row], n = (cell other column).length} =
        insert (cell row column).length {n | ∃ other ∈ rows, n = (cell other column).length} := by
      ext n
      simp [or_and_right, exists_or, or_comm]
    rw [hmore, Set.insert_comm, columnWidth_concat, max_comm]
    exact ih.insert _

end Widths

/-- The columns of a table are in ascending order, each of them once. -/
theorem pairwise_tableColumns (rows : List (SortedMap Value)) :
    (tableColumns rows).Pairwise (· < ·) :=
  (SortedMap.ofList _).sorted

/-- A record has a dash in the columns that none of its leaves is in. -/
theorem cell_flatten_of_notMem {record : Value} {column : String} (h : column ∉ record.leafPaths) :
    cell record.flatten column = ['-'] := by
  rw [← Value.mem_keys_flatten_iff, SortedMap.mem_keys_iff, Bool.not_eq_true,
    Option.isSome_eq_false_iff, Option.isNone_iff_eq_none] at h
  rw [cell, h]

namespace EvalResult

variable (result : EvalResult)

/-- The width of a column in the table of a result. -/
def widthOf (column : String) : Nat :=
  columnWidth (result.records.map Value.flatten) column

/-- A line above the summary, and the texts that it has in the columns. -/
inductive LineOf (result : EvalResult) : List Char → (String → List Char) → Prop where
  /-- The header has the names of the columns. -/
  | header : LineOf result result.header String.toList
  /-- The separator has dashes in the whole width of every column. -/
  | separator : LineOf result (tableSeparator result.widths) fun column =>
      List.replicate (result.widthOf column) '-'
  /-- The row of a record has the leaves of the record, and a dash where there is none. -/
  | row {record : Value} (hrecord : record ∈ result.records) :
      LineOf result (result.rowOf record) (cell record.flatten)

/-- The columns of the table of a result are aligned. -/
structure Aligned : Prop where
  /-- The text of the table is the header, the separator, the rows and the summary. -/
  text : result.columns ≠ [] →
    (renderTable result).toList = List.intercalate ['\n'] result.parts
  /-- The columns ascend, and none comes twice. -/
  ascending : result.columns.Pairwise (· < ·)
  /-- They are the paths to the leaves of the records. -/
  paths : ∀ column, column ∈ result.columns ↔
    ∃ record ∈ result.records, column ∈ record.leafPaths
  /-- The width of a column is the greatest of the lengths of its name and its cells. -/
  width : ∀ column, IsGreatest
    (insert column.length {n | ∃ record ∈ result.records, n = (cell record.flatten column).length})
    (result.widthOf column)
  /-- The columns have these widths. -/
  widths : result.widths = result.columns.map result.widthOf
  /-- A record has a dash in the columns that none of its leaves is in. -/
  missing : ∀ record ∈ result.records, ∀ column ∈ result.columns, column ∉ record.leafPaths →
    cell record.flatten column = ['-']
  /-- All lines are equally long. -/
  length : ∀ line text, result.LineOf line text → line.length = lineLength result.widths
  /-- In all lines the cell of a column starts at the same place and has the same width. -/
  cells : ∀ line text, result.LineOf line text →
    ∀ index column, result.columns[index]? = some column →
      HasCellAt line (columnStart result.widths index) (result.widthOf column) (text column)

variable {result}

/-- The widths of the columns leave room for what any line has in them. -/
theorem LineOf.eq_tableRow {line : List Char} {text : String → List Char}
    (h : result.LineOf line text) :
    line = tableRow (result.columns.map text) (result.columns.map result.widthOf) ∧
      ∀ column, (text column).length ≤ result.widthOf column := by
  have hgreatest := isGreatest_columnWidth (result.records.map Value.flatten)
  cases h with
  | header => exact ⟨rfl, fun column => (hgreatest column).2 (Set.mem_insert _ _)⟩
  | separator => exact ⟨tableSeparator_map _ _, fun column => (List.length_replicate ..).le⟩
  | row hrecord =>
    refine ⟨rfl, fun column => (hgreatest column).2 (Set.mem_insert_of_mem _ ?_)⟩
    exact ⟨_, List.mem_map_of_mem hrecord, rfl⟩

end EvalResult

/-- The columns of a table are aligned: they are all paths to leaves in ascending order, and all
lines above the summary, with widths that are as small as possible, have the same length and their
cells at the same places. -/
theorem EvalResult.aligned (result : EvalResult) : result.Aligned where
  text := result.toList_renderTable
  ascending := pairwise_tableColumns _
  paths column := by
    rw [columns, mem_tableColumns]
    simp only [List.mem_map, exists_exists_and_eq_and, Value.mem_keys_flatten_iff]
  width column := by
    have hgreatest := isGreatest_columnWidth (result.records.map Value.flatten) column
    rw [widthOf]
    simpa only [List.mem_map, exists_exists_and_eq_and] using hgreatest
  widths := rfl
  missing _ _ _ _ h := cell_flatten_of_notMem h
  length line text h := by
    obtain ⟨rfl, hfits⟩ := h.eq_tableRow
    exact length_tableRow fun column _ => hfits column
  cells line text h index column hcolumn := by
    obtain ⟨rfl, hfits⟩ := h.eq_tableRow
    exact hasCellAt_tableRow (fun column _ => hfits column) hcolumn

example : renderTable (.grouped [animalRecord "käfer" 12, .object [("total", .nat 1)]] none) =
    "| key.0 | stats.age.count | total |\n" ++
    "| ----- | --------------- | ----- |\n" ++
    "| käfer | 12              | -     |\n" ++
    "| -     | -               | 1     |\n" ++
    "buckets: 2" := by
  decide +kernel

end Rollup
