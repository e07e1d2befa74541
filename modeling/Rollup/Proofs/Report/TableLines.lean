import Rollup.Proofs.Json.OneLine
import Rollup.Proofs.Report.LeafColumns
import Rollup.Proofs.Text.Lines

/-!
# Lines of a table

Strings and column names stand in a table as they are, so a line feed in one of them breaks the
line that it stands in. All else is written without line feeds. So the text of a table has a header,
a separator, a line per record and a summary exactly if no path and no string among the leaves has a
line feed, and more lines otherwise.
-/

namespace Rollup

/-- A leaf has a line feed in a table exactly if it is a string with one. -/
theorem newline_mem_cellText_iff (leaf : Value) :
    '\n' ∈ cellText leaf ↔ ∃ text, leaf = .string text ∧ '\n' ∈ text.toList := by
  cases leaf with
  | string text => simp [cellText]
  | _ => simp [cellText, Json.newline_notMem_write]

/-- A row is padded with spaces and closed with bars: a line feed in it stands in a cell. -/
theorem newline_mem_tableRow_iff {columns : List String} {text : String → List Char}
    {width : String → Nat} :
    '\n' ∈ tableRow (columns.map text) (columns.map width) ↔
      ∃ column ∈ columns, '\n' ∈ text column := by
  simp [tableRow, List.zip_map']

theorem newline_notMem_tableSeparator (widths : List Nat) : '\n' ∉ tableSeparator widths := by
  simp [tableSeparator]

/-- A summary is one line: it counts records and documents and quotes none of them. -/
theorem newline_notMem_summaryLine (result : EvalResult) : '\n' ∉ (summaryLine result).toList := by
  have hcount : ∀ n : Nat, '\n' ∉ (toString n).toList := by
    intro n hmem
    rw [Nat.toString_eq_repr, Nat.toList_repr] at hmem
    cases Text.isDigit_of_mem_natDigits hmem
  cases result with
  | overall record total =>
    have hfound : '\n' ∉
        (if record = .object [] then "no documents" else "global aggregate").toList := by
      split <;> decide
    cases total with
    | none => exact hfound
    | some total =>
      simp only [summaryLine, String.toList_append, List.mem_append, not_or]
      exact ⟨⟨⟨hfound, by decide⟩, hcount total⟩, by decide⟩
  | grouped records total =>
    cases total with
    | none =>
      simp only [summaryLine, String.toList_append, List.mem_append, not_or]
      exact ⟨by decide, hcount _⟩
    | some total =>
      simp only [summaryLine, String.toList_append, List.mem_append, not_or]
      exact ⟨⟨⟨by decide, hcount _⟩, by decide⟩, hcount total⟩

/-- A cell has a line feed exactly if the record has a string with one in that column. -/
theorem newline_mem_cell_iff (fields : SortedMap Value) (column : String) :
    '\n' ∈ cell fields column ↔
      ∃ text, (column, .string text) ∈ fields.entries ∧ '\n' ∈ text.toList := by
  simp only [← SortedMap.find?_eq_some_iff_mem, cell]
  cases fields.find? column with
  | none => simp
  | some leaf => simp [newline_mem_cellText_iff]

/-- No path to a leaf of a record has a line feed, and no string among its leaves has one. -/
def Value.FitsOneLine (record : Value) : Prop :=
  ∀ path leaf, (path, leaf) ∈ record.flatten.entries →
    '\n' ∉ path.toList ∧ ∀ text, leaf = .string text → '\n' ∉ text.toList

namespace EvalResult

variable (result : EvalResult)

/-- The columns of the table of a result. -/
def columns : List String :=
  tableColumns (result.records.map Value.flatten)

/-- The widths of these columns. -/
def widths : List Nat :=
  result.columns.map (columnWidth (result.records.map Value.flatten))

/-- The row with the names of the columns. -/
def header : List Char :=
  tableRow (result.columns.map String.toList) result.widths

/-- The row of a record. -/
def rowOf (record : Value) : List Char :=
  tableRow (result.columns.map (cell record.flatten)) result.widths

/-- What the table of a result is put together from: the header, the separator, a row per record and
the summary. -/
def parts : List (List Char) :=
  result.header :: tableSeparator result.widths ::
    (result.records.map result.rowOf ++ [(summaryLine result).toList])

/-- The lines that the text of the table has for a reader. -/
def printedLines : List (List Char) :=
  (renderTable result).toList.splitOn '\n'

/-- The text of the table has a line for every record. -/
structure LinePerRecord : Prop where
  /-- Besides these lines there are three. -/
  count : result.printedLines.length = result.records.length + 3
  /-- They are the header and the separator before and the summary after the rows of the records,
  which are in order. -/
  lines : result.printedLines = result.parts

theorem length_parts : result.parts.length = result.records.length + 3 := by
  simp [parts]

variable {result}

/-- The parts have no line feed exactly if the records have none in their paths and strings. -/
theorem forall_newline_notMem_parts_iff :
    (∀ part ∈ result.parts, '\n' ∉ part) ↔ ∀ record ∈ result.records, record.FitsOneLine := by
  have hparts : (∀ part ∈ result.parts, '\n' ∉ part) ↔
      '\n' ∉ result.header ∧ ∀ record ∈ result.records, '\n' ∉ result.rowOf record := by
    simp [parts, newline_notMem_tableSeparator, newline_notMem_summaryLine, or_imp, forall_and]
  rw [hparts]
  simp only [header, rowOf, widths, newline_mem_tableRow_iff, newline_mem_cell_iff]
  constructor
  · rintro ⟨hheader, hrows⟩ record hrecord path leaf hentry
    have hcolumn : path ∈ result.columns :=
      mem_tableColumns.mpr ⟨record.flatten, List.mem_map_of_mem hrecord,
        List.mem_map_of_mem hentry⟩
    refine ⟨fun hpath => hheader ⟨path, hcolumn, hpath⟩, ?_⟩
    rintro text rfl htext
    exact hrows record hrecord ⟨path, hcolumn, text, hentry, htext⟩
  · intro hfits
    constructor
    · rintro ⟨column, hcolumn, hname⟩
      obtain ⟨row, hrow, hkey⟩ := mem_tableColumns.mp hcolumn
      obtain ⟨record, hrecord, rfl⟩ := List.mem_map.mp hrow
      obtain ⟨⟨path, leaf⟩, hentry, rfl⟩ := List.mem_map.mp hkey
      exact (hfits record hrecord path leaf hentry).1 hname
    · rintro record hrecord ⟨column, -, text, hentry, htext⟩
      exact (hfits record hrecord column _ hentry).2 text rfl htext

/-- The text of a table with columns is put together from its parts. -/
theorem toList_renderTable (h : result.columns ≠ []) :
    (renderTable result).toList = List.intercalate ['\n'] result.parts := by
  have hlines : tableLines (result.records.map Value.flatten) =
      result.header :: tableSeparator result.widths :: result.records.map result.rowOf := by
    rw [tableLines, if_neg (by simpa [columns] using h), List.map_map]
    rfl
  rw [renderTable, String.toList_ofList, hlines]
  rfl

/-- The lines of a table with columns come from its parts. -/
theorem printedLines_eq (h : result.columns ≠ []) :
    result.printedLines = (List.intercalate ['\n'] result.parts).splitOn '\n' := by
  rw [printedLines, toList_renderTable h]

/-- The last line of a table is its summary, whatever the records hold. -/
theorem getLast?_printedLines (result : EvalResult) :
    result.printedLines.getLast? = some (summaryLine result).toList := by
  rw [printedLines, renderTable, String.toList_ofList]
  exact Text.getLast?_splitOn_intercalate _ (newline_notMem_summaryLine result)

/-- If every record fits one line, so does its row. -/
theorem linePerRecord_of_fitsOneLine (h : result.columns ≠ [])
    (hfits : ∀ record ∈ result.records, record.FitsOneLine) : result.LinePerRecord := by
  have hlines : result.printedLines = result.parts := by
    rw [printedLines_eq h, List.splitOn_intercalate _ (forall_newline_notMem_parts_iff.mpr hfits)
      (List.cons_ne_nil _ _)]
  exact ⟨by rw [hlines, length_parts], hlines⟩

/-- If a record does not fit one line, the table has too many. -/
theorem lt_length_printedLines (h : result.columns ≠ [])
    (hfits : ¬ ∀ record ∈ result.records, record.FitsOneLine) :
    result.records.length + 3 < result.printedLines.length := by
  rw [← forall_newline_notMem_parts_iff] at hfits
  push Not at hfits
  rw [← length_parts, printedLines_eq h]
  exact Text.length_lt_length_splitOn_intercalate hfits

end EvalResult

/-- The text of a table with columns has a line for every record exactly if no path and no string of
a record has a line feed; otherwise it has more lines than that. -/
theorem renderTable_linePerRecord_iff {result : EvalResult} (h : result.columns ≠ []) :
    (result.LinePerRecord ↔ ∀ record ∈ result.records, record.FitsOneLine) ∧
      (¬ result.LinePerRecord → result.records.length + 3 < result.printedLines.length) := by
  have hfits : result.LinePerRecord ↔ ∀ record ∈ result.records, record.FitsOneLine := by
    refine ⟨fun hline => ?_, result.linePerRecord_of_fitsOneLine h⟩
    by_contra hfits
    exact (result.lt_length_printedLines h hfits).ne' hline.count
  refine ⟨hfits, fun hline => result.lt_length_printedLines h ?_⟩
  rwa [← hfits]

/-- The record of the animals of one kind, with the number of known ages. -/
def animalRecord (kind : String) (ages : Nat) : Value :=
  .object [("key", .array [.string kind]),
    ("stats", .object [("age", .object [("count", .nat ages)])])]

/-- Such a record fits one line if the kind does. -/
theorem fitsOneLine_animalRecord_iff (kind : String) (ages : Nat) :
    (animalRecord kind ages).FitsOneLine ↔ '\n' ∉ kind.toList := by
  have hleaves : (animalRecord kind ages).leafEntries =
      [("key.0", .string kind), ("stats.age.count", .nat ages)] := rfl
  have hapart : (animalRecord kind ages).LeavesApart := by
    have hpaths : ["key.0", "stats.age.count"].Nodup := by decide
    exact hpaths
  have hentry (entry) : entry ∈ (animalRecord kind ages).flatten.entries ↔
      entry = ("key.0", .string kind) ∨ entry = ("stats.age.count", .nat ages) := by
    rw [hapart.mem_entries_flatten_iff, hleaves]
    simp
  simp only [Value.FitsOneLine, hentry, Prod.mk.injEq]
  constructor
  · intro h
    exact (h _ _ (.inl ⟨rfl, rfl⟩)).2 kind rfl
  · rintro hkind path leaf (⟨rfl, rfl⟩ | ⟨rfl, rfl⟩)
    · refine ⟨by decide, ?_⟩
      rintro text ⟨⟩
      exact hkind
    · refine ⟨by decide, ?_⟩
      rintro text ⟨⟩

/-- The buckets of some animals. -/
def animalBuckets : EvalResult :=
  .grouped [animalRecord "cat" 2, animalRecord "dog" 1] (some 4)

/-- The table of these buckets has a line for each of them. -/
theorem renderTable_animalBuckets_linePerRecord :
    animalBuckets.columns ≠ [] ∧ animalBuckets.LinePerRecord := by
  have hcolumns : animalBuckets.columns ≠ [] := by decide +kernel
  refine ⟨hcolumns, (renderTable_linePerRecord_iff hcolumns).1.mpr ?_⟩
  have hcat := (fitsOneLine_animalRecord_iff "cat" 2).mpr (by decide)
  have hdog := (fitsOneLine_animalRecord_iff "dog" 1).mpr (by decide)
  exact List.forall_mem_cons.mpr ⟨hcat, List.forall_mem_singleton.mpr hdog⟩

/-- A table does not always have a line for every record: a kind with a line feed takes two. -/
theorem renderTable_not_linePerRecord :
    ¬ ∀ result : EvalResult, result.columns ≠ [] → result.LinePerRecord := by
  intro h
  have hcolumns : (EvalResult.grouped [animalRecord "cat\ndog" 1] none).columns ≠ [] := by
    decide +kernel
  have hbroken : ¬ ∀ record ∈ [animalRecord "cat\ndog" 1], record.FitsOneLine := by
    simp only [List.forall_mem_singleton, fitsOneLine_animalRecord_iff]
    decide
  exact (EvalResult.lt_length_printedLines hcolumns hbroken).ne' (h _ hcolumns).count

end Rollup
