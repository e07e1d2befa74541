import Rollup.Proofs.Aggregate.Extreme
import Rollup.Proofs.Aggregate.Grouping
import Rollup.Proofs.Aggregate.RecordPart
import Rollup.Proofs.Aggregate.RunningSum

/-!
# The shape of a record

A record of an evaluation is about the documents of one group, or about all documents without a
grouping (`Spec.IsGroup`). Which members it has, and which statistics of a field, goes by the spec
and by what these documents have at the field (`Spec.RecordShape`).
-/

namespace Rollup

section Presence

/-- A value counts for a statistic: anything but null for the count and the sum, a number for the
average, a scalar for the extremes. -/
def Value.CountsFor (value : Value) : Stat → Prop
  | .count | .sum => value.isNull = false
  | .avg => ∃ n, value = .number n
  | .min | .max => value.isScalar = true

/-- What counts for a statistic is not null. -/
theorem Value.CountsFor.isNull_eq_false {value : Value} {stat : Stat} (h : value.CountsFor stat) :
    value.isNull = false := by
  cases stat with
  | count | sum => exact h
  | avg =>
    obtain ⟨n, rfl⟩ := h
    rfl
  | min | max =>
    cases value with
    | null => cases h
    | _ => rfl

namespace FieldStats

variable {values : List Value}

/-- There is an average as soon as there is a number. -/
theorem isSome_avg_ofValues (values : List Value) :
    (ofValues values).avg.isSome = true ↔ ∃ value ∈ values, ∃ n, value = .number n := by
  have hnumber (value : Value) : value.number? = none ↔ ∀ n, value ≠ .number n := by
    cases value <;> simp [Value.number?]
  rw [Option.isSome_iff_ne_none, ne_eq, avg_ofValues_eq_none_iff, numbersOf,
    List.filterMap_eq_nil_iff]
  simp [hnumber]

/-- Values of which none is null have a statistic exactly if one of them counts for it. -/
theorem isSome_statistic?_ofValues (hpresent : ∀ value ∈ values, value.isNull = false)
    (stat : Stat) :
    ((ofValues values).statistic? stat).isSome = true ↔ ∃ value ∈ values, value.CountsFor stat := by
  have hany : values ≠ [] ↔ ∃ value ∈ values, value.isNull = false := by
    constructor
    · intro hne
      obtain ⟨value, hvalue⟩ := List.exists_mem_of_ne_nil values hne
      exact ⟨value, hvalue, hpresent value hvalue⟩
    · rintro ⟨value, hvalue, -⟩
      exact List.ne_nil_of_mem hvalue
  cases stat with
  | count =>
    rw [statistic?, count_ofValues]
    simp only [Value.CountsFor, ← hany, List.length_pos_iff]
    split <;> simp_all
  | sum =>
    rw [statistic?, Option.isSome_map, sum_ofValues]
    simp only [Value.CountsFor, ← hany]
    split <;> simp_all
  | avg =>
    rw [statistic?, Option.isSome_map]
    exact isSome_avg_ofValues values
  | min =>
    rw [statistic?, min_ofValues]
    exact isSome_extremeOf_iff
  | max =>
    rw [statistic?, max_ofValues]
    exact isSome_extremeOf_iff

end FieldStats

/-- A document has a value at a field that counts for a statistic. -/
def Document.Gives (document : Document) (field : String) (stat : Stat) : Prop :=
  ∃ value, document.data.resolve? field = some value ∧ value.CountsFor stat

/-- The values that are present at a path are those that data have there, nulls left out. -/
theorem mem_valuesAt {path : String} {data : List Value} {value : Value} :
    value ∈ valuesAt path data ↔
      (∃ part ∈ data, part.resolve? path = some value) ∧ value.isNull = false := by
  simp only [valuesAt, List.mem_filterMap, Value.resolvePresent?, Option.filter_eq_some_iff,
    Bool.not_eq_true', ← and_assoc, exists_and_right]

/-- Documents have a statistic of a field exactly if one of them has a value there that counts for
it. -/
theorem isSome_statistic?_valuesAt (documents : List Document) (field : String) (stat : Stat) :
    ((FieldStats.ofValues (valuesAt field (documents.map Document.data))).statistic? stat).isSome =
        true ↔
      ∃ document ∈ documents, document.Gives field stat := by
  rw [FieldStats.isSome_statistic?_ofValues fun value hvalue => (mem_valuesAt.mp hvalue).2]
  constructor
  · rintro ⟨value, hvalue, hcounts⟩
    obtain ⟨⟨_, hdata, hat⟩, -⟩ := mem_valuesAt.mp hvalue
    obtain ⟨document, hdocument, rfl⟩ := List.mem_map.mp hdata
    exact ⟨document, hdocument, value, hat, hcounts⟩
  · rintro ⟨document, hdocument, value, hat, hcounts⟩
    have hvalue := mem_valuesAt.mpr
      ⟨⟨document.data, List.mem_map_of_mem hdocument, hat⟩, hcounts.isNull_eq_false⟩
    exact ⟨value, hvalue, hcounts⟩

end Presence

section Shown

/-- What a record shows of the values of a field: the requested statistics that they have. -/
def StatSet.shown (set : StatSet) (values : List Value) : List (String × Value) :=
  Stat.byName.filterMap fun stat =>
    (if set.contains stat then (FieldStats.ofValues values).statistic? stat else none).map
      (Prod.mk stat.name)

/-- What is shown of a field is in key order. -/
theorem StatSet.keySorted_shown (set : StatSet) (values : List Value) :
    KeySorted (set.shown values) := by
  have hnames : (Stat.byName.map Stat.name).Pairwise (· < ·) := by decide
  refine hnames.sublist ?_
  rw [shown, List.map_filterMap]
  induction Stat.byName with
  | nil => exact .slnil
  | cons stat order ih =>
    rw [List.filterMap_cons, List.map_cons]
    split
    · exact ih.cons _
    · next hname =>
      obtain ⟨_, hshown, rfl⟩ := Option.map_eq_some_iff.mp hname
      obtain ⟨_, -, rfl⟩ := Option.map_eq_some_iff.mp hshown
      exact ih.cons_cons _

/-- A statistic is shown if it is requested and the values have it. -/
theorem StatSet.mem_shown {set : StatSet} {values : List Value} {member : String × Value} :
    member ∈ set.shown values ↔
      ∃ stat, set.contains stat = true ∧ member.1 = stat.name ∧
        (FieldStats.ofValues values).statistic? stat = some member.2 := by
  rw [shown, List.mem_filterMap]
  constructor
  · rintro ⟨stat, -, hshown⟩
    obtain ⟨value, hvalue, rfl⟩ := Option.map_eq_some_iff.mp hshown
    split at hvalue
    · next hcontains => exact ⟨stat, hcontains, rfl, hvalue⟩
    · cases hvalue
  · rintro ⟨stat, hcontains, hname, hvalue⟩
    refine ⟨stat, Stat.mem_byName stat, ?_⟩
    rw [if_pos hcontains, hvalue, Option.map_some, ← hname]

/-- What is shown of a field of some documents: the statistics that are requested and for which one
of the documents has a value that counts. -/
theorem StatSet.isSome_lookup_shown (set : StatSet) (documents : List Document)
    (field name : String) :
    ((set.shown (valuesAt field (documents.map Document.data))).lookup name).isSome = true ↔
      ∃ stat, stat.name = name ∧ set.contains stat = true ∧
        ∃ document ∈ documents, document.Gives field stat := by
  rw [← Option.ne_none_iff_isSome, Ne, lookup_eq_none_iff_notMem, not_not, List.mem_map]
  simp only [← isSome_statistic?_valuesAt, mem_shown, Option.isSome_iff_exists]
  constructor
  · rintro ⟨member, ⟨stat, hcontains, hname, hvalue⟩, rfl⟩
    exact ⟨stat, hname.symm, hcontains, member.2, hvalue⟩
  · rintro ⟨stat, rfl, hcontains, value, hvalue⟩
    exact ⟨(stat.name, value), ⟨stat, hcontains, rfl, hvalue⟩, rfl⟩

variable (spec : Spec)

/-- Pruning the statistics of a field leaves what is shown of it. -/
theorem Spec.pruneField_toValue {field : String} {set : StatSet}
    (h : spec.stats.find? field = some set) (values : List Value) :
    spec.pruneField field (FieldStats.ofValues values).toValue = .object (set.shown values) := by
  have hrequests : ∀ stat : Stat, spec.requests field stat.name = set.contains stat := by
    intro stat
    rw [requests, Stat.ofName?_name, h]
  rw [FieldStats.toValue_eq, pruneField, StatSet.shown, List.filter_filterMap]
  congr 1
  apply List.filterMap_congr
  intro stat _
  cases hstat : (FieldStats.ofValues values).statistic? stat <;>
    cases hset : set.contains stat <;> simp [hrequests, hset]

/-- What a record shows of all the fields of a spec. -/
def Spec.shownStats (data : List Value) : List (String × Value) :=
  spec.stats.entries.map fun (field, set) => (field, .object (set.shown (valuesAt field data)))

theorem Spec.map_fst_shownStats (data : List Value) :
    (spec.shownStats data).map Prod.fst = spec.stats.keys :=
  map_fst_map_entries (fun field (set : StatSet) => Value.object (set.shown (valuesAt field data)))
    spec.stats.entries

theorem Spec.lookup_shownStats (data : List Value) (field : String) :
    (spec.shownStats data).lookup field =
      (spec.stats.find? field).map fun set => .object (set.shown (valuesAt field data)) :=
  lookup_map_entries field
    (fun field (set : StatSet) => Value.object (set.shown (valuesAt field data))) spec.stats.entries

theorem Spec.child?_shownStats (data : List Value) (field : String) :
    (Value.object (spec.shownStats data)).child? field =
      (spec.stats.find? field).map fun set => .object (set.shown (valuesAt field data)) := by
  rw [Value.child?_object, spec.lookup_shownStats]

/-- The fields that a record shows are different. -/
theorem Spec.nodup_shownStats (data : List Value) :
    ((spec.shownStats data).map Prod.fst).Nodup := by
  rw [spec.map_fst_shownStats]
  exact spec.stats.nodup_keys

/-- A record shows the fields of the spec. -/
theorem Spec.mem_shownStats {data : List Value} {field : String} {value : Value} :
    (field, value) ∈ spec.shownStats data ↔
      ∃ set, spec.stats.find? field = some set ∧
        value = .object (set.shown (valuesAt field data)) := by
  rw [← lookup_eq_some_iff_mem (spec.nodup_shownStats data), spec.lookup_shownStats,
    Option.map_eq_some_iff]
  simp only [eq_comm]

/-- A statistic that is shown of a field stands under the field and its name. -/
theorem Spec.descend?_shownStats_eq_some_iff {data : List Value} {field : String} {set : StatSet}
    (hset : spec.stats.find? field = some set) (stat : Stat) (value : Value) :
    (Value.object (spec.shownStats data)).descend? [field, stat.name] = some value ↔
      (stat.name, value) ∈ set.shown (valuesAt field data) := by
  rw [Value.descend?_pair, spec.child?_shownStats, hset, Option.map_some, Option.bind_some,
    Value.child?_object, lookup_eq_some_iff_mem (set.keySorted_shown _).nodup_keys]

/-- The members of the record of a group: its key if it has one, what is shown of the fields if
there are any, and the number of documents if it is asked for. No documents give no members. -/
def Spec.shownMembers (key : Option (List Value)) (part : List Document) : List (String × Value) :=
  if part.isEmpty then []
  else List.filterMap id [
    key.map fun key => ("key", .array key),
    if spec.stats.isEmpty then none
    else some ("stats", .object (spec.shownStats (part.map Document.data))),
    if spec.total then some ("total", .nat part.length) else none]

/-- The members of a record have three names at most. -/
theorem Spec.names_shownMembers_sublist (key : Option (List Value)) (part : List Document) :
    ((spec.shownMembers key part).map Prod.fst).Sublist ["key", "stats", "total"] := by
  rw [shownMembers]
  split
  · exact List.nil_sublist _
  · cases key <;> cases spec.stats.isEmpty <;> cases spec.total <;> simp

section Lookup

variable (key : Option (List Value)) {part : List Document}

theorem Spec.lookup_shownMembers_key (hkey : part = [] → key = none) :
    (spec.shownMembers key part).lookup "key" = key.map .array := by
  rw [shownMembers]
  split
  · next hempty => rw [hkey (List.isEmpty_iff.mp hempty)]; rfl
  · cases key <;> cases spec.stats.isEmpty <;> cases spec.total <;> simp [lookup_cons]

/-- The spec has no fields exactly if there are no keys among its statistics. -/
theorem Spec.isEmpty_stats_iff : spec.stats.isEmpty = true ↔ spec.stats.keys = [] := by
  rw [SortedMap.isEmpty_eq, List.isEmpty_iff]

theorem Spec.lookup_shownMembers_stats :
    (spec.shownMembers key part).lookup "stats" =
      if spec.stats.keys ≠ [] ∧ part ≠ [] then
        some (.object (spec.shownStats (part.map Document.data)))
      else none := by
  simp only [shownMembers, List.isEmpty_iff, spec.isEmpty_stats_iff]
  by_cases hpart : part = []
  · simp [hpart]
  · by_cases hkeys : spec.stats.keys = [] <;> cases key <;> cases spec.total <;>
      simp [hpart, hkeys, lookup_cons]

theorem Spec.lookup_shownMembers_total :
    (spec.shownMembers key part).lookup "total" =
      if spec.total = true ∧ part ≠ [] then some (.nat part.length) else none := by
  simp only [shownMembers, List.isEmpty_iff]
  by_cases hpart : part = []
  · simp [hpart]
  · cases key <;> cases spec.stats.isEmpty <;> cases spec.total <;> simp [hpart, lookup_cons]

/-- What holds of the key, of the statistics and of the total holds of every member. -/
theorem Spec.forall_mem_shownMembers {p : Value → Prop} (hkey : part = [] → key = none) :
    (∀ member ∈ spec.shownMembers key part, p member.2) ↔
      (∀ components, key = some components → p (.array components)) ∧
        (spec.stats.keys ≠ [] ∧ part ≠ [] →
          p (.object (spec.shownStats (part.map Document.data)))) ∧
        (spec.total = true ∧ part ≠ [] → p (.nat part.length)) := by
  simp only [shownMembers, List.isEmpty_iff, spec.isEmpty_stats_iff]
  by_cases hpart : part = []
  · simp [hpart, hkey hpart]
  · by_cases hkeys : spec.stats.keys = [] <;> cases key <;> cases spec.total <;>
      simp [hpart, hkeys]

end Lookup

/-- The tally of some data has the statistics of all fields of the spec. -/
theorem Tally.entries_ofData {data : List Value} (hdata : data ≠ []) :
    (ofData spec data).stats.entries =
      spec.stats.entries.map fun (field, _) => (field, .ofValues (valuesAt field data)) := by
  apply (ofData spec data).stats.sorted.eq_of_lookup
  · rw [KeySorted, map_fst_map_entries fun field _ => FieldStats.ofValues (valuesAt field data)]
    exact spec.stats.sorted
  · intro field
    have hfind := find?_ofData spec data field
    simp only [SortedMap.mem_keys_iff, SortedMap.find?, hdata, ne_eq, not_false_eq_true, and_true]
      at hfind
    rw [lookup_map_entries field fun field _ => FieldStats.ofValues (valuesAt field data), hfind]
    cases spec.stats.entries.lookup field <;> rfl

/-- Pruning the statistics of the tally of some data leaves what is shown of all fields. -/
theorem Spec.pruneMember?_stats_ofData {data : List Value} (hdata : data ≠ [])
    (hfields : spec.stats.isEmpty = false) :
    spec.pruneMember? ("stats", .object ((Tally.ofData spec data).stats.entries.map
        fun (field, stats) => (field, stats.toValue))) =
      some ("stats", .object (spec.shownStats data)) := by
  have hempty : (spec.stats.entries.isEmpty) = false := hfields
  rw [Tally.entries_ofData spec hdata, pruneMember?, if_pos rfl, pruneStats?, List.isEmpty_map,
    List.isEmpty_map, hempty, if_neg Bool.false_ne_true, Option.map_some, List.map_map,
    List.map_map, shownStats]
  congr 3
  apply List.map_congr_left
  rintro ⟨field, set⟩ hentry
  have hfind : spec.stats.find? field = some set :=
    (lookup_eq_some_iff_mem spec.stats.nodup_keys).mpr hentry
  exact congrArg (Prod.mk field) (spec.pruneField_toValue hfind _)

/-- The pruned record of a bucket with the tally of some documents. -/
theorem Spec.prune_toRecord_ofData (key : Option (List Value)) {part : List Document}
    (hpart : part ≠ []) :
    spec.prune (Bucket.toRecord spec ⟨key, .ofData spec (part.map Document.data)⟩) =
      .object (spec.shownMembers key part) := by
  have hdata : part.map Document.data ≠ [] := by simpa using hpart
  have hempty : ¬ part.isEmpty = true := by simpa using hpart
  have htotal := Tally.total_ofData spec (part.map Document.data)
  have hstats := spec.pruneMember?_stats_ofData hdata
  have hprune : ∀ value, spec.pruneMember? ("total", value) =
      if spec.total then some ("total", value) else none := fun _ => rfl
  rw [List.length_map] at htotal
  rw [Bucket.toRecord_eq, prune, Bucket.members, Tally.members, shownMembers,
    if_neg hempty, htotal]
  cases key <;> cases hfields : spec.stats.isEmpty <;> cases hcount : spec.total <;>
    simp [spec.pruneMember?_key, hstats, hprune, hfields, hcount]

end Shown

section Groups

/-- The documents that a record with a key is about: all documents without a grouping, and with one
the documents of the group of the key, the first of which has that key. -/
inductive Spec.IsGroup (spec : Spec) (documents : List Document) :
    Option (List Value) → List Document → Prop
  | overall (hgroup : spec.groupBy = none) : IsGroup spec documents none documents
  | keyed {clauses : List Clause} {key : List Value} {first : Document} {rest : List Document}
      (hgroup : spec.groupBy = some clauses) (hkey : groupKey first.data clauses = .ok key)
      (hpart : membersOf clauses documents (Value.canonicalKey key) = first :: rest) :
      IsGroup spec documents (some key) (first :: rest)

variable {spec : Spec} {documents : List Document}

/-- A bucket of documents has the key and the tally of a group. -/
theorem exists_isGroup_of_mem_toList {clauses : List Clause} (hgroup : spec.groupBy = some clauses)
    {table : BucketTable} (htable : groupDocuments spec clauses documents = .ok table)
    {bucket : Bucket} (hbucket : bucket ∈ table.toList) :
    ∃ key part, spec.IsGroup documents key part ∧ part ≠ [] ∧
      bucket = ⟨key, .ofData spec (part.map Document.data)⟩ := by
  have hkeys := exists_groupDocuments_eq_ok_iff.mp ⟨table, htable⟩
  rw [toList_of_groupDocuments spec htable, List.mem_map] at hbucket
  obtain ⟨group, hmem, rfl⟩ := hbucket
  obtain ⟨first, rest, hmembers⟩ := List.exists_cons_of_ne_nil (membersOf_ne_nil hmem)
  have hfirst : first ∈ membersOf clauses documents group := by
    rw [hmembers]
    exact List.mem_cons_self
  obtain ⟨hdocument, hof⟩ := List.mem_filter.mp hfirst
  obtain ⟨key, hkey⟩ := hkeys first hdocument
  obtain rfl : Value.canonicalKey key = group := by
    simpa [Document.group?, hkey, Except.toOption] using hof
  exact ⟨some key, first :: rest, .keyed hgroup hkey hmembers, List.cons_ne_nil first rest,
    bucketOf_map_access spec hkeys hmembers hkey⟩

/-- A page of records is a part of them. -/
theorem EvalOptions.page_sublist (options : EvalOptions) (records : List Value) :
    (options.page records).Sublist records := by
  rw [page]
  split
  · exact (List.take_sublist _ _).trans (List.drop_sublist _ _)
  · exact List.drop_sublist _ _

/-- The records of buckets are pruned records of some of them. -/
theorem exists_bucket_of_mem_shapeRecords {options : EvalOptions} {buckets : List Bucket}
    {record : Value} (h : record ∈ shapeRecords spec options buckets) :
    ∃ bucket ∈ buckets, record = spec.prune (bucket.toRecord spec) := by
  rw [shapeRecords, List.mem_map] at h
  obtain ⟨unpruned, hpage, rfl⟩ := h
  have hsorted := (options.page_sublist _).subset hpage
  obtain ⟨bucket, hbucket, rfl⟩ := List.mem_map.mp ((stableSort_perm _ _).subset hsorted)
  exact ⟨bucket, hbucket, rfl⟩

/-- The record over all documents has the members of their group. -/
theorem overallRecord_eq_shownMembers (spec : Spec) (documents : List Document) :
    overallRecord spec documents = .object (spec.shownMembers none documents) := by
  cases documents with
  | nil => rfl
  | cons first rest =>
    rw [overallRecord_cons, spec.prune_toRecord_ofData none (List.cons_ne_nil first rest)]

/-- A record of an evaluation is about a group and has the members of that group. -/
theorem exists_isGroup_of_mem_records {options : EvalOptions} {result : EvalResult}
    (hrun : evaluate documents spec options = .ok result) {record : Value}
    (hrecord : record ∈ result.records) :
    ∃ key part,
      spec.IsGroup documents key part ∧ record = .object (spec.shownMembers key part) := by
  cases hvalid : spec.validate with
  | error cause =>
    rw [evaluate_of_validate_eq_error hvalid] at hrun
    cases hrun
  | ok _ =>
    cases hgroup : spec.groupBy with
    | none =>
      rw [evaluate_of_groupBy_eq_none hvalid hgroup] at hrun
      cases hrun
      rw [EvalResult.records, List.mem_singleton, overallRecord_eq_shownMembers] at hrecord
      exact ⟨none, documents, .overall hgroup, hrecord⟩
    | some clauses =>
      cases htable : groupDocuments spec clauses documents with
      | error cause =>
        rw [evaluate_of_groupDocuments_eq_error hvalid hgroup htable] at hrun
        cases hrun
      | ok table =>
        rw [evaluate_grouped hvalid hgroup htable] at hrun
        cases hrun
        obtain ⟨bucket, hbucket, rfl⟩ := exists_bucket_of_mem_shapeRecords hrecord
        obtain ⟨key, part, hof, hpart, rfl⟩ := exists_isGroup_of_mem_toList hgroup htable hbucket
        exact ⟨key, part, hof, spec.prune_toRecord_ofData key hpart⟩

end Groups

/-- Which members a record about some documents has. -/
structure Spec.RecordShape (spec : Spec) (part : List Document) (record : Value) : Prop where
  /-- A record is an object that has no other members than these, each once at most. -/
  members : ∃ members, record = .object members ∧
    (members.map Prod.fst).Sublist ["key", "stats", "total"]
  /-- Without a grouping there is no key. -/
  ungrouped : spec.groupBy = none → record.child? "key" = none
  /-- With a grouping the key has one component for each clause. -/
  grouped : ∀ clauses, spec.groupBy = some clauses →
    ∃ key, record.child? "key" = some (.array key) ∧ key.length = clauses.length
  /-- There are statistics if the spec has fields and there is a document. -/
  stats : (record.child? "stats").isSome = true ↔ spec.stats.keys ≠ [] ∧ part ≠ []
  /-- Statistics are shown for the fields of the spec, all of them and no others. -/
  fields : ∀ stats, record.child? "stats" = some stats →
    ∃ fields, stats = .object fields ∧ fields.map Prod.fst = spec.stats.keys
  /-- A statistic of a field is shown if it is requested and one of the documents has a value that
  counts for it; nothing else is shown of the field. -/
  statistics : ∀ field set, spec.stats.find? field = some set → part ≠ [] →
    ∃ shown, record.descend? ["stats", field] = some (.object shown) ∧ KeySorted shown ∧
      ∀ name, (shown.lookup name).isSome = true ↔
        ∃ stat, stat.name = name ∧ set.contains stat = true ∧
          ∃ document ∈ part, document.Gives field stat
  /-- The number of documents is shown if it is asked for and there is a document. -/
  total : record.child? "total" =
    if spec.total = true ∧ part ≠ [] then some (.nat part.length) else none

section Shape

variable {spec : Spec} {documents part : List Document} {key : Option (List Value)}

/-- A group with a key has documents. -/
theorem Spec.IsGroup.key_eq_none (h : spec.IsGroup documents key part) (hpart : part = []) :
    key = none := by
  cases h with
  | overall => rfl
  | keyed => cases hpart

/-- The members of a group have the shape that the spec and the documents of the group ask for. -/
theorem Spec.IsGroup.recordShape (h : spec.IsGroup documents key part) :
    spec.RecordShape part (.object (spec.shownMembers key part)) where
  members := ⟨_, rfl, spec.names_shownMembers_sublist key part⟩
  ungrouped hgroup := by
    rw [Value.child?_object, spec.lookup_shownMembers_key key h.key_eq_none]
    cases h with
    | overall => rfl
    | keyed hclauses =>
      rw [hgroup] at hclauses
      cases hclauses
  grouped clauses hgroup := by
    rw [Value.child?_object, spec.lookup_shownMembers_key key h.key_eq_none]
    cases h with
    | overall hnone =>
      rw [hgroup] at hnone
      cases hnone
    | @keyed _ key _ _ hclauses hkey =>
      rw [hgroup, Option.some.injEq] at hclauses
      subst hclauses
      exact ⟨key, rfl, (mapM_eq_ok_iff.mp hkey).length_eq.symm⟩
  stats := by
    rw [Value.child?_object, spec.lookup_shownMembers_stats]
    split <;> simp_all
  fields stats hstats := by
    rw [Value.child?_object, spec.lookup_shownMembers_stats] at hstats
    split at hstats
    · cases hstats
      exact ⟨_, rfl, spec.map_fst_shownStats _⟩
    · cases hstats
  statistics field set hset hpart := by
    have hkeys : spec.stats.keys ≠ [] := by
      have hfield : field ∈ spec.stats.keys := by
        rw [SortedMap.mem_keys_iff, hset]
        rfl
      exact List.ne_nil_of_mem hfield
    refine ⟨set.shown (valuesAt field (part.map Document.data)), ?_, set.keySorted_shown _, ?_⟩
    · rw [Value.descend?_pair, Value.child?_object, spec.lookup_shownMembers_stats,
        if_pos ⟨hkeys, hpart⟩, Option.bind_some, spec.child?_shownStats, hset, Option.map_some]
    · exact set.isSome_lookup_shown part field
  total := spec.lookup_shownMembers_total key

end Shape

/-- Every record of an evaluation is about a group: with its key, if there is a grouping, and with
the members and statistics that the spec asks for and the documents of the group have values for. -/
theorem evaluate_recordShape {documents : List Document} {spec : Spec} {options : EvalOptions}
    {result : EvalResult} (hrun : evaluate documents spec options = .ok result) :
    ∀ record ∈ result.records, ∃ key part, spec.IsGroup documents key part ∧
      record.child? "key" = key.map .array ∧ spec.RecordShape part record := by
  intro record hrecord
  obtain ⟨key, part, hgroup, rfl⟩ := exists_isGroup_of_mem_records hrun hrecord
  exact ⟨key, part, hgroup, spec.lookup_shownMembers_key key hgroup.key_eq_none,
    hgroup.recordShape⟩

/-- Documents of two kinds whose weights are an object, a text, null or absent. -/
def patchyDocuments : List Document := [
  ⟨[("kind", .string "cat"), ("weight", .object [("kg", .int 4)])]⟩,
  ⟨[("kind", .string "dog"), ("weight", .null)]⟩,
  ⟨[("kind", .string "cat"), ("weight", .string "light")]⟩,
  ⟨[("kind", .string "dog")]⟩]

/-- Statistics of the weights of each kind, and the number of documents. -/
def weightsByKind : Spec where
  groupBy := some [⟨"kind", .value⟩]
  stats := SortedMap.empty.insert "weight" (StatSet.ofList [.count, .avg, .min])
  total := true

/-- A record of two documents of a kind with what is shown of their weights. -/
def weightRecord (kind : String) (shown : List (String × Value)) : Value :=
  .object [("key", .array [.string kind]), ("stats", .object [("weight", .object shown)]),
    ("total", .nat 2)]

/-- The records of the patchy documents: the weights of the cats have a count and a minimum but no
average, those of the dogs have no statistics. -/
def patchyRecords : List Value := [
  weightRecord "cat" [("count", .nat 2), ("min", .string "light")],
  weightRecord "dog" []]

/-- The patchy documents have a record for each kind. -/
theorem evaluate_patchyDocuments :
    evaluate patchyDocuments weightsByKind {} = .ok (.grouped patchyRecords none) := by
  have hvalid : weightsByKind.validate = .ok () := by cbv
  have hrecords : (groupDocuments weightsByKind [⟨"kind", .value⟩] patchyDocuments).toOption.map
      (fun table => table.toList.map fun bucket =>
        weightsByKind.prune (bucket.toRecord weightsByKind)) =
        some patchyRecords := by decide +kernel
  cases htable : groupDocuments weightsByKind [⟨"kind", .value⟩] patchyDocuments with
  | error cause =>
    rw [htable] at hrecords
    cases hrecords
  | ok table =>
    rw [htable] at hrecords
    rw [evaluate_grouped hvalid rfl htable, shapeRecords_plain weightsByKind _ rfl rfl rfl]
    exact congrArg (fun records => Except.ok (EvalResult.grouped records none))
      (Option.some.inj hrecords)

/-- The records of the patchy documents have the shape that the weights ask for. -/
theorem evaluate_patchyDocuments_recordShape :
    evaluate patchyDocuments weightsByKind {} = .ok (.grouped patchyRecords none) ∧
    ∀ record ∈ patchyRecords, ∃ key part,
      weightsByKind.IsGroup patchyDocuments key part ∧ record.child? "key" = key.map .array ∧
        weightsByKind.RecordShape part record :=
  ⟨evaluate_patchyDocuments, evaluate_recordShape evaluate_patchyDocuments⟩

end Rollup
