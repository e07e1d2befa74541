import Rollup.Spec.Term
import Rollup.Spec.Validity
import Rollup.Text.Blank

/-!
# Reading specs from terms

The three sections of a written spec are first read into what they say, with all the freedom of
spelling: a clause as a string, a record or a list, statistics as flags, a list or one name. That is
then brought into the form that evaluation consumes and checked: all clauses first, then the
statistics in the order of their fields, then the whole.
-/

namespace Rollup.Spec

/-- A clause as it is written, each way of bucketing on its own. -/
structure WrittenClause where
  /-- The path of the field. -/
  field : String
  /-- The ranges, if any are given. -/
  ranges : Option (List Range) := none
  /-- The width of an interval, if one is given. -/
  interval : Option Binary64 := none
  /-- The base of an interval, if one is given. -/
  base : Option Binary64 := none
  /-- The component of a time, if one is given. -/
  timeComponent : Option String := none
deriving DecidableEq

namespace WrittenClause

/-- The names of the given ways of bucketing. -/
def modes (clause : WrittenClause) : List String :=
  (if clause.ranges.isSome then ["ranges"] else []) ++
    (if clause.interval.isSome then ["interval"] else []) ++
    (if clause.timeComponent.isSome then ["timeComponent"] else [])

/-- The one way of bucketing that a clause says. -/
def bucketing (clause : WrittenClause) : Bucketing :=
  match clause.ranges, clause.interval, clause.timeComponent with
  | some ranges, _, _ => .ranges ranges
  | none, some width, _ => .interval width (clause.base.getD .zero)
  | none, none, some component => .timeComponent component
  | none, none, none => .value

/-- The clause that is written, unless it combines ways of bucketing or gives a base without an
interval. -/
def toClause (clause : WrittenClause) : Except SpecError Clause :=
  if 1 < clause.modes.length then .error (.conflictingBucketing clause.field clause.modes)
  else if clause.base.isSome && clause.interval.isNone then
    .error (.baseWithoutInterval clause.field)
  else .ok { field := clause.field, bucketing := clause.bucketing }

end WrittenClause

/-- Reads a range: a record or a list of its bounds. -/
def readRange? (term : Term) : Option Range := do
  match ← term.slots? ["start", "end"] with
  | [start, stop] =>
    return {
      start := ← optional? Term.toValue? start
      stop := ← optional? Term.toValue? stop }
  | _ => none

/-- Reads a list of ranges. -/
def readRanges? (term : Term) : Option (List Range) := do
  (← term.toList?).mapM readRange?

/-- Reads a clause: a record or a list of its members. -/
def readClause? (term : Term) : Option WrittenClause := do
  match ← term.slots? ["field", "ranges", "interval", "base", "timeComponent"] with
  | [some field, ranges, interval, base, timeComponent] =>
    return {
      field := ← field.toText?
      ranges := ← optional? readRanges? ranges
      interval := ← optional? Term.toBinary64? interval
      base := ← optional? Term.toBinary64? base
      timeComponent := ← optional? Term.toText? timeComponent }
  | _ => none

/-- Reads one item of a grouping: the path of a field, or a clause. -/
def readGroupItem? : Term → Option WrittenClause
  | .string field => some { field }
  | term => readClause? term

/-- Reads a grouping: one item, or else a list of items. -/
def readGroupBy? (term : Term) : Option (List WrittenClause) :=
  match readGroupItem? term with
  | some clause => some [clause]
  | none => do (← term.toList?).mapM readGroupItem?

/-- Reads one flag of a record of flags. -/
def readFlag? : Label × Term → Option (String × Bool)
  | (.name name, .bool flag) => some (name, flag)
  | _ => none

/-- Reads the statistics of a field: flags, of which the raised ones count in the order of their
names, a list of names, or one name. -/
def readStatNames? : Term → Option (List String)
  | .record members => do
    let flags ← members.mapM readFlag?
    return (sortEntries flags).filterMap fun (name, flag) => if flag then some name else none
  | .list items => items.mapM Term.toText?
  | .string name => some [name]
  | _ => none

/-- The statistic that a name, padded or not, stands for. -/
def statOfName (field name : String) : Except SpecError Stat :=
  match Stat.ofName? (Text.trimString name) with
  | some stat => .ok stat
  | none => .error (.unknownStat field name)

/-- The set of the statistics that names stand for; the first unknown one is the error. -/
def statsOfNames (field : String) (names : List String) : Except SpecError StatSet :=
  (names.mapM (statOfName field)).map StatSet.ofList

/-- What the sections of a spec say. -/
structure Sections where
  /-- The clauses of the grouping, if there is one. -/
  groupBy : Option (List WrittenClause) := none
  /-- The names of the statistics of each field. -/
  stats : SortedMap (List String) := .empty
  /-- Whether documents are counted. -/
  total : Bool := false

/-- The names of the sections. -/
def sectionNames : List String := ["groupBy", "stats", "total"]

/-- The sections of a spec from their terms: the grouping, the statistics of each field, and the
total. -/
def readSections? (groupBy : Option Term) (stats : List (String × Term)) (total : Bool) :
    Option Sections := do
  let groupBy ← optional? readGroupBy? groupBy
  let stats ← stats.mapM fun (field, term) => (readStatNames? term).map fun names => (field, names)
  return { groupBy, stats := .ofList stats, total }

/-- The requested statistics of each field; the first field with an unknown name is the error. -/
def readStats (stats : SortedMap (List String)) : Except SpecError (SortedMap StatSet) := do
  let entries ← stats.entries.mapM fun (field, names) =>
    (statsOfNames field names).map fun set => (field, set)
  return .ofList entries

/-- The spec that the sections say. -/
def Sections.toSpec (sections : Sections) : Except SpecError Spec := do
  let groupBy ← sections.groupBy.mapM fun clauses => clauses.mapM WrittenClause.toClause
  let stats ← readStats sections.stats
  let spec : Spec := { groupBy, stats, total := sections.total }
  spec.validate
  return spec

/-- The spec that sections say, or the error that there are no sections. -/
def ofSections (detail : String) (sections : Option Sections) : Except SpecError Spec :=
  match sections with
  | some sections => sections.toSpec
  | none => .error (.malformed detail)

end Rollup.Spec
