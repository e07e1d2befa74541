import Rollup.Value.Order

/-!
# Specs

A spec says what to compute: by which clauses documents are grouped, if at all, which statistics are
shown for which fields, and whether documents are counted. It is the form that evaluation consumes,
whichever way the spec was written down.
-/

namespace Rollup

/-- A statistic of a field. -/
inductive Stat where
  /-- How many documents have the field. -/
  | count
  /-- The sum of its numbers. -/
  | sum
  /-- The sum divided by the count. -/
  | avg
  /-- Its least value. -/
  | min
  /-- Its greatest value. -/
  | max
deriving DecidableEq

namespace Stat

/-- All statistics in their order. -/
def all : List Stat := [count, sum, avg, min, max]

/-- The name of a statistic in specs and in result records. -/
def name : Stat → String
  | count => "count"
  | sum => "sum"
  | avg => "avg"
  | min => "min"
  | max => "max"

/-- The statistic with a name. -/
def ofName? (name : String) : Option Stat :=
  all.find? fun stat => stat.name = name

theorem mem_all (stat : Stat) : stat ∈ all := by
  cases stat <;> decide

@[simp] theorem ofName?_name (stat : Stat) : ofName? stat.name = some stat := by
  cases stat <;> decide

/-- A statistic is found under its name only. -/
theorem ofName?_eq_some {name : String} {stat : Stat} :
    ofName? name = some stat ↔ stat.name = name := by
  constructor
  · intro h
    have hname := List.find?_some h
    exact of_decide_eq_true hname
  · rintro rfl
    exact ofName?_name stat

end Stat

/-- A set of statistics. -/
structure StatSet where
  /-- Whether the count is in the set. -/
  count : Bool := false
  /-- Whether the sum is in the set. -/
  sum : Bool := false
  /-- Whether the average is in the set. -/
  avg : Bool := false
  /-- Whether the minimum is in the set. -/
  min : Bool := false
  /-- Whether the maximum is in the set. -/
  max : Bool := false
deriving DecidableEq

namespace StatSet

/-- The set without members. -/
def empty : StatSet := {}

/-- Whether a statistic is in the set. -/
def contains (set : StatSet) : Stat → Bool
  | .count => set.count
  | .sum => set.sum
  | .avg => set.avg
  | .min => set.min
  | .max => set.max

/-- The set with one statistic more. -/
def insert (set : StatSet) : Stat → StatSet
  | .count => { set with count := true }
  | .sum => { set with sum := true }
  | .avg => { set with avg := true }
  | .min => { set with min := true }
  | .max => { set with max := true }

/-- The statistics of either set. -/
def union (a b : StatSet) : StatSet where
  count := a.count || b.count
  sum := a.sum || b.sum
  avg := a.avg || b.avg
  min := a.min || b.min
  max := a.max || b.max

/-- The set of the listed statistics. -/
def ofList (stats : List Stat) : StatSet :=
  stats.foldl insert empty

/-- The members in the order of all statistics. -/
def toList (set : StatSet) : List Stat :=
  Stat.all.filter set.contains

@[simp] theorem contains_insert (set : StatSet) (stat other : Stat) :
    (set.insert stat).contains other = (decide (other = stat) || set.contains other) := by
  cases stat <;> cases other <;> simp [insert, contains]

@[simp] theorem contains_union (a b : StatSet) (stat : Stat) :
    (a.union b).contains stat = (a.contains stat || b.contains stat) := by
  cases stat <;> rfl

/-- Sets with the same members are equal. -/
theorem ext_contains {a b : StatSet} (h : ∀ stat, a.contains stat = b.contains stat) : a = b := by
  cases a
  cases b
  have hcount := h .count
  have hsum := h .sum
  have havg := h .avg
  have hmin := h .min
  have hmax := h .max
  simp_all [contains]

end StatSet

/-- The half-open range of the values at or above `start` and below `stop`; without a bound it is
open on that side. -/
structure Range where
  /-- The bound that belongs to the range. -/
  start : Option Value := none
  /-- The bound that ends the range. -/
  stop : Option Value := none
deriving DecidableEq

namespace Range

/-- A value is at or above a bound. -/
def isAtLeast (value bound : Value) : Bool :=
  match value.compare? bound with
  | some .eq | some .gt => true
  | _ => false

/-- A value is below a bound. -/
def isBelow (value bound : Value) : Bool :=
  value.compare? bound = some .lt

/-- Whether a value lies in the range. A value that does not compare with a bound does not. -/
def contains (range : Range) (value : Value) : Bool :=
  range.start.all (isAtLeast value) && range.stop.all (isBelow value)

end Range

/-- How the value of a field chooses a bucket. -/
inductive Bucketing where
  /-- By the value itself. -/
  | value
  /-- By the first of several ranges that it lies in. -/
  | ranges (ranges : List Range)
  /-- By its cell on a grid of the given width through `base`. -/
  | interval (width base : Binary64)
  /-- By a component of a time, which evaluation rejects. -/
  | timeComponent (component : String)
deriving DecidableEq

/-- A clause of a grouping: a field and how its value chooses a bucket. -/
structure Clause where
  /-- The path of the field. -/
  field : String
  /-- How its value chooses a bucket. -/
  bucketing : Bucketing := .value
deriving DecidableEq

/-- The description of one aggregate computation. -/
structure Spec where
  /-- The clauses of the grouping; without them all documents form one bucket. -/
  groupBy : Option (List Clause) := none
  /-- The requested statistics of each field. -/
  stats : SortedMap StatSet := .empty
  /-- Whether the documents of a bucket are counted. -/
  total : Bool := false
deriving DecidableEq

namespace Spec

/-- Adds statistics to those requested for a field. -/
def requestStats (spec : Spec) (field : String) (stats : StatSet) : Spec :=
  { spec with
    stats := spec.stats.insert field (((spec.stats.find? field).getD .empty).union stats) }

/-- Whether documents are grouped. -/
def isGrouped (spec : Spec) : Bool :=
  spec.groupBy.isSome

end Spec

end Rollup
