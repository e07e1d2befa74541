import Rollup.Proofs.Aggregate.Grouping
import Rollup.Proofs.Aggregate.RecordPart

/-!
# Sorting by a statistic

A record keeps the statistics of a field under the whole path of the field as one key, but a sort
key is cut at every point. So the path of a statistic leads to the statistic exactly if the path of
the field is one segment; if it is not, the path leads nowhere, and sorting by it changes nothing.
-/

namespace Rollup

/-- The path of a statistic of a field in a record. -/
def statPath (field : String) (stat : Stat) : String :=
  "stats." ++ field ++ "." ++ stat.name

/-- A path of a statistic has the segments of the path of the field between two of its own. -/
theorem pathSegments_statPath (field : String) (stat : Stat) :
    pathSegments (statPath field stat) = "stats" :: (pathSegments field ++ [stat.name]) := by
  have hname : pathSegments stat.name = [stat.name] := by
    apply pathSegments_of_point_notMem
    cases stat <;> decide
  have hstats : pathSegments "stats" = ["stats"] := pathSegments_of_point_notMem (by decide)
  have hfirst : "stats." = "stats" ++ "." := by decide
  rw [statPath, pathSegments_append_point, hname, hfirst, pathSegments_append_point, hstats,
    List.append_assoc]
  rfl

/-- The bucket with a key into which some documents have been taken. -/
def Bucket.ofData (spec : Spec) (key : Option (List Value)) (data : List Value) : Bucket :=
  data.foldl (Bucket.fold spec) ⟨key, .empty⟩

section Leaves

/-- Whatever the statistics of some values show is a leaf. -/
theorem FieldStats.isLeaf_of_child?_toValue {values : List Value} {segment : String} {part : Value}
    (h : (ofValues values).toValue.child? segment = some part) : part.IsLeaf := by
  rw [toValue_eq, Value.child?_object] at h
  obtain ⟨before, after, hmembers, _⟩ := List.lookup_eq_some_iff.mp h
  have hmem : (segment, part) ∈ Stat.byName.filterMap fun stat =>
      ((ofValues values).statistic? stat).map (Prod.mk stat.name) := by
    rw [hmembers]
    exact List.mem_append_right before List.mem_cons_self
  obtain ⟨stat, _, hstat⟩ := List.mem_filterMap.mp hmem
  obtain ⟨value, hvalue, hpart⟩ := Option.map_eq_some_iff.mp hstat
  cases hpart
  exact isLeaf_of_statistic? hvalue

/-- Nothing in the statistics of some values is further down than one segment. -/
theorem FieldStats.descend?_toValue_eq_none (values : List Value) (first second : String)
    (rest : List String) : (ofValues values).toValue.descend? (first :: second :: rest) = none := by
  rw [Value.descend?_cons]
  cases hpart : (ofValues values).toValue.child? first with
  | none => rfl
  | some part =>
    have hleaf := isLeaf_of_child?_toValue hpart
    rw [Option.bind_some, Value.descend?_cons, hleaf second, Option.bind_none]

end Leaves

section Records

variable (spec : Spec) (key : Option (List Value)) (data : List Value) (field : String)
  (stat : Stat)

theorem Bucket.ofData_eq : ofData spec key data = ⟨key, .ofData spec data⟩ :=
  Bucket.foldl_fold spec ⟨key, .empty⟩ data

/-- Nothing in the statistics of a record is further down than a field and a statistic. -/
theorem Bucket.descend?_toRecord_ofData_eq_none (first second third : String) (rest : List String) :
    ((ofData spec key data).toRecord spec).descend? ("stats" :: first :: second :: third :: rest) =
      none := by
  have hfind : (ofData spec key data).tally.stats.entries.lookup first =
      if first ∈ spec.stats.keys ∧ data ≠ [] then some (.ofValues (valuesAt first data))
      else none := by
    rw [ofData_eq]
    exact Tally.find?_ofData spec data first
  rw [toRecord_eq, Value.descend?_cons, Value.child?_object, lookup_members spec _ (by decide),
    Tally.lookup_members_stats]
  split
  · rfl
  · rw [Option.bind_some, Value.descend?_cons, Value.child?_object,
      lookup_map_entries first (fun _ (stats : FieldStats) => stats.toValue), hfind]
    -- A field of the name of the first segment may be there, but its statistics are not nested.
    split
    · exact FieldStats.descend?_toValue_eq_none _ second third rest
    · rfl

/-- The path of a statistic leads to the statistic if the path of the field has no point, and
nowhere if it has one. -/
theorem Bucket.resolve?_statPath :
    ((ofData spec key data).toRecord spec).resolve? (statPath field stat) =
      if '.' ∈ field.toList then none else (ofData spec key data).statistic? field stat := by
  rw [Value.resolve?, pathSegments_statPath]
  split
  · next hpoint =>
    obtain ⟨first, second, rest, hsegments⟩ := pathSegments_of_point_mem hpoint
    rw [hsegments]
    cases rest with
    | nil => exact descend?_toRecord_ofData_eq_none spec key data first second stat.name []
    | cons third rest =>
      exact descend?_toRecord_ofData_eq_none spec key data first second third (rest ++ [stat.name])
  · next hpoint =>
    have htally : (ofData spec key data).tally = .ofData spec data := by rw [ofData_eq]
    rw [pathSegments_of_point_notMem hpoint, List.singleton_append]
    exact descend?_toRecord_ofData spec _ htally field stat

end Records

section Comparison

/-- How two values compare in a direction; an absent value counts as equal to any other. -/
def SortDirection.compareParts (direction : SortDirection) (left right : Option Value) : Ordering :=
  let ordering :=
    match left, right with
    | some a, some b => (a.compare? b).getD .eq
    | _, _ => .eq
  match direction with
  | .ascending => ordering
  | .descending => ordering.swap

/-- A sort key compares what two records have at its path. -/
theorem SortKey.compare_eq (key : SortKey) (left right : Value) :
    key.compare left right =
      key.direction.compareParts (left.resolve? key.path) (right.resolve? key.path) := rfl

theorem SortDirection.compareParts_none (direction : SortDirection) (right : Option Value) :
    direction.compareParts none right = .eq := by
  cases direction <;> rfl

variable (spec : Spec) (field : String) (stat : Stat) (direction : SortDirection)

/-- Sorting by the path of a statistic compares the statistic if the path of the field has no point,
and nothing if it has one. -/
theorem SortKey.compare_statPath (key otherKey : Option (List Value))
    (data otherData : List Value) :
    SortKey.compare ⟨statPath field stat, direction⟩
        ((Bucket.ofData spec key data).toRecord spec)
        ((Bucket.ofData spec otherKey otherData).toRecord spec) =
      if '.' ∈ field.toList then .eq
      else direction.compareParts ((Bucket.ofData spec key data).statistic? field stat)
        ((Bucket.ofData spec otherKey otherData).statistic? field stat) := by
  rw [compare_eq, Bucket.resolve?_statPath, Bucket.resolve?_statPath]
  split
  · exact direction.compareParts_none none
  · rfl

/-- The buckets of documents are each made of some of them. -/
theorem exists_ofData_of_mem_toList {clauses : List Clause} {documents : List Document}
    {table : BucketTable} (h : groupDocuments spec clauses documents = .ok table) {bucket : Bucket}
    (hbucket : bucket ∈ table.toList) : ∃ key data, bucket = .ofData spec key data := by
  have hkeys := exists_groupDocuments_eq_ok_iff.mp ⟨table, h⟩
  rw [toList_of_groupDocuments spec h] at hbucket
  obtain ⟨group, _, rfl⟩ := List.mem_map.mp hbucket
  refine ⟨(Access.bucketOf (documents.map (Document.access spec clauses)) group).key,
    (membersOf clauses documents group).map Document.data, ?_⟩
  rw [Bucket.ofData_eq, ← tally_bucketOf_map_access spec hkeys group]

/-- Sorting by the path of a statistic leaves all records where they are if the path of the field
has a point. -/
theorem sortRecords_statPath_eq_self {field : String} (hpoint : '.' ∈ field.toList)
    {buckets : List Bucket}
    (hbuckets : ∀ bucket ∈ buckets, ∃ key data, bucket = .ofData spec key data) :
    sortRecords [⟨statPath field stat, direction⟩] (buckets.map (Bucket.toRecord spec)) =
      buckets.map (Bucket.toRecord spec) := by
  apply stableSort_eq_self
  intro left hleft right hright
  obtain ⟨bucket, hbucket, rfl⟩ := List.mem_map.mp hleft
  obtain ⟨other, hother, rfl⟩ := List.mem_map.mp hright
  obtain ⟨key, data, rfl⟩ := hbuckets bucket hbucket
  obtain ⟨otherKey, otherData, rfl⟩ := hbuckets other hother
  rw [compareRecords_cons, SortKey.compare_statPath, if_pos hpoint, compareRecords_nil]
  decide

/-- Evaluating gives the same with and without the path of a statistic as the sort key if the path
of the field has a point. -/
theorem evaluate_sort_statPath {field : String} (hpoint : '.' ∈ field.toList)
    (documents : List Document) (options : EvalOptions) :
    evaluate documents spec { options with sort := [⟨statPath field stat, direction⟩] } =
      evaluate documents spec { options with sort := [] } := by
  cases hvalid : spec.validate with
  | error cause =>
    rw [evaluate_of_validate_eq_error hvalid, evaluate_of_validate_eq_error hvalid]
  | ok _ =>
    cases hgroup : spec.groupBy with
    | none =>
      rw [evaluate_of_groupBy_eq_none hvalid hgroup, evaluate_of_groupBy_eq_none hvalid hgroup]
      rfl
    | some clauses =>
      cases htable : groupDocuments spec clauses documents with
      | error error =>
        rw [evaluate_of_groupDocuments_eq_error hvalid hgroup htable,
          evaluate_of_groupDocuments_eq_error hvalid hgroup htable]
      | ok table =>
        have hsorted := sortRecords_statPath_eq_self spec stat direction hpoint
          fun _ => exists_ofData_of_mem_toList spec htable
        rw [evaluate_grouped hvalid hgroup htable, evaluate_grouped hvalid hgroup htable,
          shapeRecords, shapeRecords, hsorted, sortRecords_nil]
        rfl

end Comparison

/-- The path of a statistic addresses it in every record of some documents, and sorting by the path
compares it, as long as the path of the field has no point. If it has one the path leads nowhere,
every two records compare as equal, and results come out as if they were not sorted. -/
theorem statPath_resolves_and_sorts (spec : Spec) (field : String) (stat : Stat)
    (direction : SortDirection) :
    (∀ key data, ((Bucket.ofData spec key data).toRecord spec).resolve? (statPath field stat) =
      if '.' ∈ field.toList then none else (Bucket.ofData spec key data).statistic? field stat) ∧
    (∀ key otherKey data otherData,
      SortKey.compare ⟨statPath field stat, direction⟩
          ((Bucket.ofData spec key data).toRecord spec)
          ((Bucket.ofData spec otherKey otherData).toRecord spec) =
        if '.' ∈ field.toList then .eq
        else direction.compareParts ((Bucket.ofData spec key data).statistic? field stat)
          ((Bucket.ofData spec otherKey otherData).statistic? field stat)) ∧
    ('.' ∈ field.toList → ∀ (documents : List Document) (options : EvalOptions),
      evaluate documents spec { options with sort := [⟨statPath field stat, direction⟩] } =
        evaluate documents spec { options with sort := [] }) := by
  refine ⟨?_, ?_, ?_⟩
  · intro key data
    exact Bucket.resolve?_statPath spec key data field stat
  · intro key otherKey data otherData
    exact SortKey.compare_statPath spec field stat direction key otherKey data otherData
  · intro hpoint documents options
    exact evaluate_sort_statPath spec stat direction hpoint documents options

/-- Pets of two owners of different age. -/
def ownedDocuments : List Document := [
  ⟨[("kind", .string "cat"), ("owner", .object [("age", .int 30)])]⟩,
  ⟨[("kind", .string "dog"), ("owner", .object [("age", .int 40)])]⟩]

/-- The greatest age of an owner by the kind of pet. -/
def ownersByKind : Spec where
  groupBy := some [⟨"kind", .value⟩]
  stats := SortedMap.empty.insert "owner.age" (StatSet.ofList [.max])

/-- The path of a statistic of a nested field does not address it: a record has the greatest age of
an owner, but its path leads nowhere. -/
theorem statPath_not_resolves_nested :
    ¬ ∀ (spec : Spec) (field : String) (stat : Stat) (key : Option (List Value)) (data : List Value)
        (value : Value), field ∈ spec.stats.keys →
      (Bucket.ofData spec key data).statistic? field stat = some value →
      ((Bucket.ofData spec key data).toRecord spec).resolve? (statPath field stat) =
        some value := by
  intro h
  have hmax := h ownersByKind "owner.age" .max (some [.string "cat"])
    [.object [("owner", .object [("age", .int 30)])]] (.int 30) (by decide) (by decide +kernel)
  have hnone : ((Bucket.ofData ownersByKind (some [.string "cat"])
      [.object [("owner", .object [("age", .int 30)])]]).toRecord ownersByKind).resolve?
        (statPath "owner.age" .max) = none := by decide +kernel
  rw [hnone] at hmax
  cases hmax

/-- Kinds of pets are not sorted by the greatest age of an owner. -/
theorem statPath_ownedDocuments_resolves_and_sorts :
    '.' ∈ "owner.age".toList ∧
    evaluate ownedDocuments ownersByKind { sort := [⟨statPath "owner.age" .max, .descending⟩] } =
      evaluate ownedDocuments ownersByKind {} := by
  have hpoint : '.' ∈ "owner.age".toList := by decide
  have h := statPath_resolves_and_sorts ownersByKind "owner.age" .max .descending
  exact ⟨hpoint, h.2.2 hpoint ownedDocuments {}⟩

end Rollup
