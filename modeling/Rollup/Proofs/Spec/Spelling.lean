import Rollup.Proofs.Spec.FirstFault
import Rollup.Proofs.Spec.Slots
import Rollup.Spec.Decode

/-!
# The spellings of a spec

A spec can be written in many ways: a grouping as one clause or as a list, a clause as a string or
as an object, statistics as flags, as a list of names or as one name, and what says nothing may be
null or left out. The relations below say what a value may spell, without regard to how values are
read. Every valid spec has a spelling (`Spec.spelledBy_toValue`).
-/

namespace Rollup

open Spec (KeysAmong sectionNames)

section Spellings

/-- A text is the name of a statistic, with or without blanks around it. -/
def Stat.SpelledBy (stat : Stat) (text : String) : Prop :=
  ∃ before after : List Char, (∀ c ∈ before, Text.isBlank c = true) ∧
    (∀ c ∈ after, Text.isBlank c = true) ∧ text.toList = before ++ stat.name.toList ++ after

/-- Names spell a set if they are those of its members, in any order and with repeats. -/
structure StatSet.NamedBy (set : StatSet) (names : List String) : Prop where
  /-- Every name is that of a member. -/
  known : ∀ name ∈ names, ∃ stat, set.contains stat = true ∧ stat.SpelledBy name
  /-- Every member has a name. -/
  named : ∀ stat, set.contains stat = true → ∃ name ∈ names, stat.SpelledBy name

/-- The names of the flags that are raised. -/
def raisedNames (flags : List (String × Bool)) : List String :=
  flags.filterMap fun (name, flag) => if flag then some name else none

/-- A value spells a set of statistics: flags, of which the raised ones are the set, a list of
names, or one name. -/
inductive StatSet.SpelledBy (set : StatSet) : Value → Prop where
  /-- Flags, the raised ones of which name the set. -/
  | flagged {flags : List (String × Bool)} (hnodup : (flags.map Prod.fst).Nodup)
      (h : set.NamedBy (raisedNames flags)) :
      SpelledBy set (.object (flags.map fun (name, flag) => (name, .bool flag)))
  /-- A list of the names. -/
  | listed {names : List String} (h : set.NamedBy names) :
      SpelledBy set (.array (names.map .string))
  /-- The one name. -/
  | single {name : String} (h : set.NamedBy [name]) : SpelledBy set (.string name)

/-- What may be missing is spelled by a value, or by nothing or null if it is missing. -/
inductive OptionalSpelledBy {α : Type} (spelled : α → Value → Prop) :
    Option α → Option Value → Prop where
  /-- Nothing is said. -/
  | missing : OptionalSpelledBy spelled none none
  /-- Nothing is said by a null. -/
  | null : OptionalSpelledBy spelled none (some .null)
  /-- Something is said. -/
  | given {a : α} {value : Value} (h : spelled a value) :
      OptionalSpelledBy spelled (some a) (some value)

/-- A value is a number that is, as a floating-point number, a given one. -/
def Binary64.SpelledBy (x : Binary64) (value : Value) : Prop :=
  ∃ n : Number, value = .number n ∧ n.toBinary64 = x

/-- A value spells a range: an object with its bounds. -/
inductive Range.SpelledBy (range : Range) : Value → Prop where
  /-- An object with the bounds that there are. -/
  | object {members : List (String × Value)} (hkeys : KeysAmong ["start", "end"] members)
      (hstart : OptionalSpelledBy Eq range.start (members.lookup "start"))
      (hstop : OptionalSpelledBy Eq range.stop (members.lookup "end")) :
      SpelledBy range (.object members)

/-- A value spells ranges: a list of them. -/
def RangesSpelledBy (ranges : List Range) (value : Value) : Prop :=
  ∃ items, value = .array items ∧ List.Forall₂ Range.SpelledBy ranges items

namespace Bucketing

/-- The ranges of a bucketing. -/
def ranges? : Bucketing → Option (List Range)
  | ranges list => some list
  | _ => none

/-- The width of a bucketing. -/
def width? : Bucketing → Option Binary64
  | interval width _ => some width
  | _ => none

/-- The component of a bucketing. -/
def component? : Bucketing → Option String
  | timeComponent component => some component
  | _ => none

/-- A bucketing has a base, which is zero if none is written, or no base at all. -/
def HasBase : Bucketing → Option Binary64 → Prop
  | interval _ base, written => written.getD .zero = base
  | _, written => written = none

end Bucketing

/-- The names of the members of a clause. -/
def clauseNames : List String := ["field", "ranges", "interval", "base", "timeComponent"]

/-- A value spells a clause: the path of a field, or an object with the members of the clause. -/
inductive Clause.SpelledBy (clause : Clause) : Value → Prop where
  /-- The path of the field, if nothing else is said of it. -/
  | field (h : clause.bucketing = .value) : SpelledBy clause (.string clause.field)
  /-- An object with the path of the field and what else there is. -/
  | object {members : List (String × Value)} {base : Option Binary64}
      (hkeys : KeysAmong clauseNames members)
      (hfield : members.lookup "field" = some (.string clause.field))
      (hranges : OptionalSpelledBy RangesSpelledBy clause.bucketing.ranges?
        (members.lookup "ranges"))
      (hwidth : OptionalSpelledBy Binary64.SpelledBy clause.bucketing.width?
        (members.lookup "interval"))
      (hbase : OptionalSpelledBy Binary64.SpelledBy base (members.lookup "base"))
      (hwritten : clause.bucketing.HasBase base)
      (hcomponent : OptionalSpelledBy (fun text value => value = .string text)
        clause.bucketing.component? (members.lookup "timeComponent")) :
      SpelledBy clause (.object members)

/-- A value is a string or an object. -/
def Value.StringOrObject (value : Value) : Prop :=
  (∃ text, value = .string text) ∨ ∃ members, value = .object members

/-- A clause is spelled by a string or by an object. -/
theorem Clause.SpelledBy.stringOrObject {clause : Clause} {value : Value}
    (h : clause.SpelledBy value) : value.StringOrObject := by
  cases h with
  | field _ => exact Or.inl ⟨_, rfl⟩
  | object _ _ _ _ _ _ _ => exact Or.inr ⟨_, rfl⟩

/-- A value spells the clauses of a grouping: the only clause, or a list of all clauses. -/
inductive ClausesSpelledBy : List Clause → Value → Prop where
  /-- The only clause. -/
  | bare {clause : Clause} {value : Value} (h : clause.SpelledBy value) :
      ClausesSpelledBy [clause] value
  /-- A list of all clauses. -/
  | list {clauses : List Clause} {items : List Value}
      (h : List.Forall₂ Clause.SpelledBy clauses items) : ClausesSpelledBy clauses (.array items)

/-- What spells clauses is not null. -/
theorem ClausesSpelledBy.ne_null {clauses : List Clause} {value : Value}
    (h : ClausesSpelledBy clauses value) : value ≠ .null := by
  cases h with
  | bare h => rcases h.stringOrObject with ⟨_, rfl⟩ | ⟨_, rfl⟩ <;> simp
  | list _ => simp

/-- A value, or its absence, spells the statistics of fields: an object with a member per field. -/
inductive StatsSpelledBy (stats : SortedMap StatSet) : Option Value → Prop where
  /-- No statistics are requested. -/
  | missing (h : stats = .empty) : StatsSpelledBy stats none
  /-- An object with the statistics of every field. -/
  | object {fields : List (String × Value)} (hnodup : (fields.map Prod.fst).Nodup)
      (h : ∀ field, Option.Rel StatSet.SpelledBy (stats.find? field) (fields.lookup field)) :
      StatsSpelledBy stats (some (.object fields))

/-- A value, or its absence, spells whether documents are counted. -/
inductive TotalSpelledBy : Bool → Option Value → Prop where
  /-- Documents are not counted. -/
  | missing : TotalSpelledBy false none
  /-- It is said whether documents are counted. -/
  | given (total : Bool) : TotalSpelledBy total (some (.bool total))

/-- A value spells a spec: an object with its sections. -/
inductive Spec.SpelledBy (spec : Spec) : Value → Prop where
  /-- An object with the sections that say something. -/
  | object {members : List (String × Value)} (hkeys : KeysAmong sectionNames members)
      (hgroup : OptionalSpelledBy ClausesSpelledBy spec.groupBy (members.lookup "groupBy"))
      (hstats : StatsSpelledBy spec.stats (members.lookup "stats"))
      (htotal : TotalSpelledBy spec.total (members.lookup "total")) :
      SpelledBy spec (.object members)

end Spellings

section Writing

/-- The bounds of a range that there are, in an object. -/
def Range.toValue (range : Range) : Value :=
  .object (List.filterMap id [
    range.stop.map fun bound => ("end", bound), range.start.map fun bound => ("start", bound)])

/-- A finite floating-point number as a value. -/
def Binary64.toValue : Binary64 → Value
  | finite x => .number (.float x)
  | _ => .null

/-- A clause as a value. -/
def Clause.toValue (clause : Clause) : Value :=
  match clause.bucketing with
  | .value => .string clause.field
  | .ranges ranges =>
    .object [("field", .string clause.field), ("ranges", .array (ranges.map Range.toValue))]
  | .interval width base =>
    .object [("base", base.toValue), ("field", .string clause.field), ("interval", width.toValue)]
  | .timeComponent component =>
    .object [("field", .string clause.field), ("timeComponent", .string component)]

/-- The list of the names of a set of statistics. -/
def StatSet.toValue (set : StatSet) : Value :=
  .array ((set.toList.map Stat.name).map .string)

/-- A spec with all its sections. -/
def Spec.toValue (spec : Spec) : Value :=
  .object [
    ("groupBy", (spec.groupBy.map fun clauses => .array (clauses.map Clause.toValue)).getD .null),
    ("stats", .object (spec.stats.entries.map fun (field, set) => (field, set.toValue))),
    ("total", .bool spec.total)]

theorem Range.spelledBy_toValue (range : Range) : range.SpelledBy range.toValue := by
  have hself : ∀ bound : Option Value, OptionalSpelledBy Eq bound bound := by
    intro bound
    cases bound with
    | none => exact .missing
    | some bound => exact .given rfl
  obtain ⟨start, stop⟩ := range
  cases start <;> cases stop <;> exact .object ⟨by simp, by simp⟩ (hself _) (hself _)

theorem Binary64.spelledBy_toValue {x : Binary64} (h : x.isFinite = true) :
    x.SpelledBy x.toValue := by
  cases x with
  | finite x => exact ⟨.float x, rfl, rfl⟩
  | _ => cases h

theorem Clause.spelledBy_toValue {clause : Clause} (h : clause.Consistent) :
    clause.SpelledBy clause.toValue := by
  obtain ⟨field, bucketing⟩ := clause
  cases bucketing with
  | value => exact .field rfl
  | ranges list =>
    have hranges : RangesSpelledBy list (.array (list.map Range.toValue)) := by
      refine ⟨_, rfl, ?_⟩
      rw [List.forall₂_map_right_iff, List.forall₂_same]
      exact fun range _ => range.spelledBy_toValue
    exact .object ⟨by simp, by simp [clauseNames]⟩ rfl (.given hranges) .missing .missing rfl
      .missing
  | interval width base =>
    obtain ⟨⟨w, rfl, -⟩, hbase⟩ := Bucketing.consistent_interval_iff.mp h.bucketing
    exact .object ⟨by simp, by simp [clauseNames]⟩ rfl .missing
      (.given (Binary64.spelledBy_toValue rfl)) (.given (Binary64.spelledBy_toValue hbase)) rfl
      .missing
  | timeComponent component =>
    exact .object ⟨by simp, by simp [clauseNames]⟩ rfl .missing .missing .missing rfl (.given rfl)

theorem Stat.spelledBy_name (stat : Stat) : stat.SpelledBy stat.name :=
  ⟨[], [], List.forall_mem_nil _, List.forall_mem_nil _, by simp⟩

theorem StatSet.spelledBy_toValue (set : StatSet) : set.SpelledBy set.toValue := by
  have hmem : ∀ stat, stat ∈ set.toList ↔ set.contains stat = true := by
    intro stat
    rw [toList, List.mem_filter]
    simp [Stat.mem_all]
  refine .listed ⟨?_, ?_⟩
  · intro name hname
    obtain ⟨stat, hstat, rfl⟩ := List.mem_map.mp hname
    exact ⟨stat, (hmem stat).mp hstat, stat.spelledBy_name⟩
  · intro stat hstat
    exact ⟨stat.name, List.mem_map_of_mem ((hmem stat).mpr hstat), stat.spelledBy_name⟩

/-- A spec that nothing is wrong with has a spelling. -/
theorem Spec.spelledBy_toValue {spec : Spec} (hvalid : spec.validate = .ok ()) :
    spec.SpelledBy spec.toValue := by
  refine .object ⟨by simp, by simp [sectionNames]⟩ ?_ (.object ?_ ?_) (.given spec.total)
  · have hconsistent := fault?_iff.1.mp (spec.validate_eq_ok_iff.mp hvalid)
    change OptionalSpelledBy ClausesSpelledBy spec.groupBy (some _)
    cases hgroup : spec.groupBy with
    | none => exact .null
    | some clauses =>
      refine .given (.list ?_)
      rw [List.forall₂_map_right_iff, List.forall₂_same]
      intro clause hclause
      exact clause.spelledBy_toValue (hconsistent.clauses clauses hgroup clause hclause)
  · rw [List.map_map]
    exact spec.stats.nodup_keys
  · intro field
    rw [lookup_map_entries field fun _ => StatSet.toValue, SortedMap.find?]
    cases spec.stats.entries.lookup field with
    | none => exact .none
    | some set => exact .some set.spelledBy_toValue

end Writing

end Rollup
