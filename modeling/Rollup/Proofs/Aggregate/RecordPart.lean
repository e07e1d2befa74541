import Rollup.Proofs.Aggregate.Record
import Rollup.Proofs.Aggregate.Tally
import Rollup.Proofs.Entries
import Rollup.Proofs.Value.Path

/-!
# The parts of a record

A record shows the statistic of a field under three segments: `stats`, the field as one segment, and
the name of the statistic. Pruning a record takes away what the spec does not request and leaves the
rest where it is.
-/

namespace Rollup

namespace Stat

theorem name_inj {a b : Stat} : a.name = b.name ↔ a = b := by
  constructor
  · intro h
    have hname := congrArg ofName? h
    rwa [ofName?_name, ofName?_name, Option.some.injEq] at hname
  · exact congrArg name

/-- All statistics in the order of their names. -/
def byName : List Stat := [avg, count, max, min, sum]

theorem mem_byName (stat : Stat) : stat ∈ byName := by
  cases stat <;> decide

/-- Looking up a statistic among those that are shown. -/
theorem lookup_filterMap_name {α : Type} (shown : Stat → Option α) (order : List Stat)
    (stat : Stat) :
    (order.filterMap fun other => (shown other).map (Prod.mk other.name)).lookup stat.name =
      if stat ∈ order then shown stat else none := by
  induction order with
  | nil => rfl
  | cons other order ih =>
    cases hshown : shown other with
    | none =>
      by_cases heq : stat = other
      · subst heq
        simp [hshown, ih]
      · simp [hshown, ih, heq]
    | some value =>
      by_cases heq : stat = other
      · subst heq
        simp [hshown]
      · simp [hshown, ih, heq, lookup_cons, name_inj]

end Stat

/-- The statistics of a field are shown in the order of their names. -/
theorem FieldStats.toValue_eq (stats : FieldStats) :
    stats.toValue =
      .object (Stat.byName.filterMap fun stat =>
        (stats.statistic? stat).map (Prod.mk stat.name)) := by
  have hcount : (if 0 < stats.count then some ("count", Value.nat stats.count) else none) =
      (stats.statistic? .count).map (Prod.mk "count") := by
    rw [statistic?]
    split <;> rfl
  have hsum : stats.sum.map (fun sum => ("sum", sum.toValue)) =
      (stats.statistic? .sum).map (Prod.mk "sum") := by
    rw [statistic?, Option.map_map]
    rfl
  have havg : stats.avg.map (fun avg => ("avg", Value.ofBinary64 avg)) =
      (stats.statistic? .avg).map (Prod.mk "avg") := by
    rw [statistic?, Option.map_map]
    rfl
  have hshown : List.filterMap id (Stat.byName.map fun stat =>
      (stats.statistic? stat).map (Prod.mk stat.name)) =
        Stat.byName.filterMap fun stat => (stats.statistic? stat).map (Prod.mk stat.name) :=
    List.filterMap_map
  rw [toValue, hcount, hsum, havg, ← hshown]
  rfl

/-- The statistics of a field show each statistic under its name. -/
theorem FieldStats.child?_toValue (stats : FieldStats) (stat : Stat) :
    stats.toValue.child? stat.name = stats.statistic? stat := by
  rw [toValue_eq, Value.child?, Stat.lookup_filterMap_name, if_pos (Stat.mem_byName stat)]

/-- A statistic of some values is a leaf. -/
theorem FieldStats.isLeaf_of_statistic? {values : List Value} {stat : Stat} {value : Value}
    (h : (ofValues values).statistic? stat = some value) : value.IsLeaf := by
  obtain ⟨hmin, hmax⟩ := isScalar_of_extreme_ofValues values
  cases stat with
  | count =>
    rw [statistic?] at h
    split at h
    · cases h
      exact Value.isLeaf_number _
    · cases h
  | sum =>
    obtain ⟨sum, _, rfl⟩ := Option.map_eq_some_iff.mp h
    cases sum with
    | exact total => exact Value.isLeaf_number _
    | rounded total => exact Value.isLeaf_ofBinary64 total
  | avg =>
    obtain ⟨avg, _, rfl⟩ := Option.map_eq_some_iff.mp h
    exact Value.isLeaf_ofBinary64 avg
  | min => exact Value.isLeaf_of_isScalar (hmin value h)
  | max => exact Value.isLeaf_of_isScalar (hmax value h)

section Members

variable (spec : Spec) (tally : Tally) (bucket : Bucket)

theorem Tally.lookup_members_stats :
    (tally.members spec).lookup "stats" =
      if spec.stats.isEmpty then none
      else
        some (.object (tally.stats.entries.map fun (field, stats) => (field, stats.toValue))) := by
  rw [members]
  cases spec.stats.isEmpty <;> cases spec.total <;> simp [lookup_cons]

theorem Tally.lookup_members_total :
    (tally.members spec).lookup "total" =
      if spec.total then some (.nat tally.total) else none := by
  rw [members]
  cases spec.stats.isEmpty <;> cases spec.total <;> simp [lookup_cons]

/-- The members of a record are in key order. -/
theorem Bucket.keySorted_members : KeySorted (bucket.members spec) := by
  have hnames : ["key", "stats", "total"].Pairwise (· < ·) := by decide
  have hsublist : ((bucket.members spec).map Prod.fst).Sublist ["key", "stats", "total"] := by
    rw [members, Tally.members]
    cases bucket.key <;> cases spec.stats.isEmpty <;> cases spec.total <;> simp
  exact hnames.sublist hsublist

/-- Any member of a record but the key is one of the tally. -/
theorem Bucket.lookup_members {name : String} (hname : name ≠ "key") :
    (bucket.members spec).lookup name = (bucket.tally.members spec).lookup name := by
  rw [members]
  cases bucket.key with
  | none => rfl
  | some key => exact (lookup_cons name "key" _ _).trans (if_neg hname)

theorem Bucket.lookup_members_key :
    (bucket.members spec).lookup "key" = bucket.key.map .array := by
  have htally : (bucket.tally.members spec).lookup "key" = none := by
    rw [Tally.members]
    cases spec.stats.isEmpty <;> cases spec.total <;> simp [lookup_cons]
  rw [members]
  cases bucket.key with
  | none => exact htally
  | some key => exact (lookup_cons "key" "key" _ _).trans (if_pos rfl)

/-- The statistic of a field stands in a record under three segments. -/
theorem Bucket.descend?_toRecord_statistic (field : String) (stat : Stat) :
    (bucket.toRecord spec).descend? ["stats", field, stat.name] =
      if spec.stats.isEmpty then none
      else (bucket.tally.stats.find? field).bind fun stats => stats.statistic? stat := by
  rw [toRecord_eq, Value.descend?_cons, Value.child?_object,
    lookup_members spec bucket (by decide), Tally.lookup_members_stats]
  split
  · rfl
  · rw [Option.bind_some, Value.descend?_pair, Value.child?_object,
      lookup_map_entries _ (fun _ (stats : FieldStats) => stats.toValue), Option.bind_map]
    refine congrArg _ (funext fun stats => ?_)
    rw [Function.comp_apply, FieldStats.child?_toValue]

/-- The statistic of a field that a bucket has. -/
def Bucket.statistic? (field : String) (stat : Stat) : Option Value :=
  (bucket.tally.stats.find? field).bind fun stats => stats.statistic? stat

/-- A record of some documents shows the statistics that its bucket has. -/
theorem Bucket.descend?_toRecord_ofData {data : List Value}
    (htally : bucket.tally = .ofData spec data) (field : String) (stat : Stat) :
    (bucket.toRecord spec).descend? ["stats", field, stat.name] = bucket.statistic? field stat := by
  rw [descend?_toRecord_statistic, statistic?]
  split
  · next hempty =>
    have hnone : field ∉ spec.stats.keys := by
      rw [SortedMap.isEmpty_eq, List.isEmpty_iff] at hempty
      rw [hempty]
      exact List.not_mem_nil
    rw [htally, Tally.find?_ofData, if_neg fun h => hnone h.1, Option.bind_none]
  · rfl

/-- The total stands in a record under one segment. -/
theorem Bucket.descend?_toRecord_total :
    (bucket.toRecord spec).descend? ["total"] =
      if spec.total then some (.nat bucket.tally.total) else none := by
  rw [toRecord_eq, Value.descend?_singleton, Value.child?_object,
    lookup_members spec bucket (by decide), Tally.lookup_members_total]

end Members

section Pruning

variable (spec : Spec) (bucket : Bucket)

/-- Pruning treats every member of a record on its own. -/
theorem Spec.lookup_filterMap_pruneMember? {members : List (String × Value)}
    (h : KeySorted members) (name : String) :
    (members.filterMap spec.pruneMember?).lookup name =
      (members.lookup name).bind fun value => (spec.pruneMember? (name, value)).map Prod.snd := by
  induction members with
  | nil => rfl
  | cons member members ih =>
    obtain ⟨key, value⟩ := member
    obtain ⟨hlt, hmembers⟩ := keySorted_cons.mp h
    rw [lookup_cons]
    cases hprune : spec.pruneMember? (key, value) with
    | none =>
      rw [List.filterMap_cons_none hprune, ih hmembers]
      by_cases hname : name = key
      · rw [if_pos hname, hname, lookup_eq_none_of_lt hlt, Option.bind_some, hprune]
        rfl
      · rw [if_neg hname]
    | some pruned =>
      obtain ⟨prunedKey, prunedValue⟩ := pruned
      obtain rfl : prunedKey = key := spec.name_of_pruneMember? hprune
      rw [List.filterMap_cons_some hprune, lookup_cons, ih hmembers]
      by_cases hname : name = prunedKey
      · rw [if_pos hname, if_pos hname, hname, Option.bind_some, hprune]
        rfl
      · rw [if_neg hname, if_neg hname]

/-- Pruning the statistics of a field leaves the requested ones. -/
theorem Spec.child?_pruneField (field : String) (stats : FieldStats) (stat : Stat) :
    (spec.pruneField field stats.toValue).child? stat.name =
      if spec.requests field stat.name then stats.statistic? stat else none := by
  rw [← FieldStats.child?_toValue]
  exact lookup_filter_key stat.name (spec.requests field) _

/-- Pruning the statistics of a record prunes those of every field. -/
theorem Spec.child?_pruneMember?_stats (fields : List (String × Value)) (field : String) :
    ((spec.pruneMember? ("stats", .object fields)).bind fun member => member.2.child? field) =
      (fields.lookup field).map (spec.pruneField field) := by
  rw [pruneMember?, if_pos rfl, pruneStats?]
  cases fields with
  | nil => rfl
  | cons first rest => exact lookup_map_entries field spec.pruneField (first :: rest)

/-- Pruning a record leaves the requested statistics where they are. -/
theorem Bucket.descend?_prune_statistic (field : String) (stat : Stat) :
    (spec.prune (bucket.toRecord spec)).descend? ["stats", field, stat.name] =
      if spec.requests field stat.name then
        (bucket.toRecord spec).descend? ["stats", field, stat.name]
      else none := by
  rw [descend?_toRecord_statistic, toRecord_eq, Spec.prune, Value.descend?_cons,
    Value.child?_object, spec.lookup_filterMap_pruneMember? (bucket.keySorted_members spec),
    lookup_members spec bucket (by decide), Tally.lookup_members_stats]
  by_cases hempty : spec.stats.isEmpty
  · simp [hempty]
  · have hfields := spec.child?_pruneMember?_stats
      (bucket.tally.stats.entries.map fun (field, stats) => (field, stats.toValue)) field
    rw [lookup_map_entries field (fun _ (stats : FieldStats) => stats.toValue)] at hfields
    rw [if_neg hempty, if_neg hempty, Option.bind_some, Option.bind_map]
    simp only [Function.comp_def, Value.descend?_pair]
    rw [← Option.bind_assoc, hfields, Option.map_map, Option.bind_map, SortedMap.find?]
    simp only [Function.comp_def, spec.child?_pruneField]
    split
    · rfl
    · exact Option.bind_fun_none _

/-- Pruning a record leaves the total where it is. -/
theorem Bucket.descend?_prune_total :
    (spec.prune (bucket.toRecord spec)).descend? ["total"] =
      (bucket.toRecord spec).descend? ["total"] := by
  rw [descend?_toRecord_total, toRecord_eq, Spec.prune, Value.descend?_singleton,
    Value.child?_object, spec.lookup_filterMap_pruneMember? (bucket.keySorted_members spec),
    lookup_members spec bucket (by decide), Tally.lookup_members_total]
  cases htotal : spec.total <;> simp [Spec.pruneMember?, htotal]

/-- Pruning a record leaves the key where it is. -/
theorem Bucket.descend?_prune_key :
    (spec.prune (bucket.toRecord spec)).descend? ["key"] = bucket.key.map .array := by
  rw [toRecord_eq, Spec.prune, Value.descend?_singleton, Value.child?_object,
    spec.lookup_filterMap_pruneMember? (bucket.keySorted_members spec), lookup_members_key]
  cases bucket.key <;> rfl

end Pruning

end Rollup
