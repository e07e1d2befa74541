import Mathlib.Algebra.BigOperators.Group.List.Basic
import Mathlib.Algebra.Ring.Int.Defs
import Mathlib.Algebra.Ring.Nat
import Rollup.Proofs.Aggregate.Extreme
import Rollup.Proofs.Aggregate.Grouping
import Rollup.Proofs.Value.Number

/-!
# Documents in another order

Buckets come up in the order of the documents, and a bucket has the key of the first of its
documents. Apart from that the order of the documents does not show: grouping them in another order
succeeds alike, gives buckets for the same canonical keys, and the buckets of one canonical key hold
the same totals, counts and exact sums, and extremes that compare as equal.
-/

namespace Rollup

/-- The statistics of a field, which were taken over the same values in two orders, agree. -/
structure FieldStats.AgreeOn (values : List Value) (stats other : FieldStats) : Prop where
  /-- The counts are the same. -/
  count : stats.count = other.count
  /-- The sums of integers of bounded size are the same exact integer, and missing only together. -/
  sum : (∀ n ∈ numbersOf values, ∃ k, n = .integer k) →
    ((integersOf values).map Int.natAbs).sum < 2 ^ 63 →
    stats.sum = (if values = [] then none else some (.exact (integersOf values).sum)) ∧
      other.sum = stats.sum
  /-- The minima of values of one kind compare as equal, and are missing only together. -/
  min : Value.OneKind values →
    Option.Rel (fun a b => a.compare? b = some .eq) stats.min other.min
  /-- The maxima of values of one kind compare as equal, and are missing only together. -/
  max : Value.OneKind values →
    Option.Rel (fun a b => a.compare? b = some .eq) stats.max other.max

/-- Two buckets that were filled from the same documents in two orders agree. -/
structure Bucket.AgreeOn (spec : Spec) (documents : List Document) (bucket other : Bucket) :
    Prop where
  /-- The totals are the same. -/
  total : bucket.tally.total = other.tally.total
  /-- Both have statistics of every field of the spec, and these agree. -/
  stats : ∀ field ∈ spec.stats.keys, ∃ stats otherStats,
    bucket.tally.stats.find? field = some stats ∧
    other.tally.stats.find? field = some otherStats ∧
    stats.AgreeOn (valuesAt field (documents.map Document.data)) otherStats

/-- The exact sum of the integers among some values, if all numbers among them are integers. -/
private theorem sum_ofValues_of_integers {values : List Value}
    (hnumbers : ∀ n ∈ numbersOf values, ∃ k, n = .integer k)
    (hsize : ((integersOf values).map Int.natAbs).sum < 2 ^ 63) :
    (FieldStats.ofValues values).sum =
      if values = [] then none else some (.exact (integersOf values).sum) := by
  rw [FieldStats.sum_ofValues, numbersOf_eq_map_integer hnumbers, Sum.foldl_add_of_natAbs_lt hsize]

/-- The statistics of values agree with those of the same values in another order. -/
theorem FieldStats.agreeOn_of_perm {values others : List Value} (hperm : values.Perm others) :
    (ofValues values).AgreeOn values (ofValues others) := by
  constructor
  · rw [count_ofValues, count_ofValues, hperm.length_eq]
  · intro hnumbers hsize
    have hintegers : (integersOf values).Perm (integersOf others) := hperm.filterMap _
    have hother := sum_ofValues_of_integers
      (fun n hn => hnumbers n ((hperm.filterMap Value.number?).symm.subset hn))
      ((hintegers.map Int.natAbs).sum_eq ▸ hsize)
    have hnil : others = [] ↔ values = [] := by
      rw [← List.length_eq_zero_iff, ← List.length_eq_zero_iff, hperm.length_eq]
    rw [sum_ofValues_of_integers hnumbers hsize, hother]
    simp only [hnil, hintegers.sum_eq, and_self]
  · intro hkind
    rw [min_ofValues, min_ofValues]
    exact extremeOf_perm (by decide) hkind hperm
  · intro hkind
    rw [max_ofValues, max_ofValues]
    exact extremeOf_perm (by decide) hkind hperm

section Groups

variable {spec : Spec} {clauses : List Clause} {documents others : List Document}

/-- The buckets of documents are stored under the groups of the documents, each once. -/
theorem map_group?_toList {table : BucketTable}
    (h : groupDocuments spec clauses documents = .ok table) :
    table.toList.map Bucket.group? = (groupsOf clauses documents).map some := by
  have hkeys := exists_groupDocuments_eq_ok_iff.mp ⟨table, h⟩
  rw [toList_of_groupDocuments spec h, List.map_map]
  apply List.map_congr_left
  intro group hgroup
  rw [← canonicals_map_access spec hkeys] at hgroup
  exact Access.group?_bucketOf hgroup

/-- A bucket holds the tally of the documents of its group. -/
theorem tally_of_mem_toList {table : BucketTable}
    (h : groupDocuments spec clauses documents = .ok table) {bucket : Bucket} {group : String}
    (hbucket : bucket ∈ table.toList) (hgroup : bucket.group? = some group) :
    group ∈ groupsOf clauses documents ∧
      bucket.tally = .ofData spec ((membersOf clauses documents group).map Document.data) := by
  have hkeys := exists_groupDocuments_eq_ok_iff.mp ⟨table, h⟩
  rw [toList_of_groupDocuments spec h, List.mem_map] at hbucket
  obtain ⟨name, hname, rfl⟩ := hbucket
  have hmem := hname
  rw [← canonicals_map_access spec hkeys] at hmem
  rw [Access.group?_bucketOf hmem, Option.some.injEq] at hgroup
  subst hgroup
  exact ⟨hname, tally_bucketOf_map_access spec hkeys name⟩

/-- Documents in another order have the same groups. -/
theorem groupsOf_perm (hperm : documents.Perm others) :
    (groupsOf clauses documents).Perm (groupsOf clauses others) := by
  have hsame := List.perm_ext_iff_of_nodup
    (nodup_eraseDups (documents.filterMap (Document.group? clauses)))
    (nodup_eraseDups (others.filterMap (Document.group? clauses)))
  rw [groupsOf, groupsOf, hsame]
  intro group
  rw [List.mem_eraseDups, List.mem_eraseDups]
  exact (hperm.filterMap _).mem_iff

/-- Values in another order have the same parts at a path. -/
theorem valuesAt_perm (field : String) {data more : List Value} (hperm : data.Perm more) :
    (valuesAt field data).Perm (valuesAt field more) :=
  hperm.filterMap _

/-- Tallies of the same documents in two orders agree. -/
theorem Bucket.agreeOn_of_perm {bucket other : Bucket} (hperm : documents.Perm others)
    (hne : documents ≠ []) (hbucket : bucket.tally = .ofData spec (documents.map Document.data))
    (hother : other.tally = .ofData spec (others.map Document.data)) :
    bucket.AgreeOn spec documents other := by
  have hnil : documents.map Document.data ≠ [] := fun h => hne (List.map_eq_nil_iff.mp h)
  have hdata := hperm.map Document.data
  constructor
  · rw [hbucket, hother, Tally.total_ofData, Tally.total_ofData, hdata.length_eq]
  · intro field hfield
    have hotherNil : others.map Document.data ≠ [] := fun h => hnil (List.perm_nil.mp (h ▸ hdata))
    refine ⟨_, _, ?_, ?_, FieldStats.agreeOn_of_perm (valuesAt_perm field hdata)⟩
    · rw [hbucket, Tally.find?_ofData, if_pos ⟨hfield, hnil⟩]
    · rw [hother, Tally.find?_ofData, if_pos ⟨hfield, hotherNil⟩]

end Groups

/-- The order of documents shows in the order and in the keys of buckets only. Documents in another
order are grouped if and only if they are; the buckets then have the same canonical keys, each once,
and the two buckets of one canonical key agree on the total and on the statistics of every field. -/
theorem groupDocuments_perm (spec : Spec) (clauses : List Clause) {documents others : List Document}
    (hperm : documents.Perm others) :
    ((∃ table, groupDocuments spec clauses documents = .ok table) ↔
      ∃ table, groupDocuments spec clauses others = .ok table) ∧
    ∀ table otherTable, groupDocuments spec clauses documents = .ok table →
      groupDocuments spec clauses others = .ok otherTable →
      (∃ groups : List String, groups.Nodup ∧ table.toList.map Bucket.group? = groups.map some ∧
        (otherTable.toList.map Bucket.group?).Perm (groups.map some)) ∧
      ∀ bucket ∈ table.toList, ∀ other ∈ otherTable.toList, ∀ group,
        bucket.group? = some group → other.group? = some group →
        bucket.AgreeOn spec (membersOf clauses documents group) other := by
  constructor
  · rw [exists_groupDocuments_eq_ok_iff, exists_groupDocuments_eq_ok_iff]
    exact forall_congr' fun document => imp_congr_left hperm.mem_iff
  · intro table otherTable htable hother
    refine ⟨⟨groupsOf clauses documents, nodup_eraseDups _, map_group?_toList htable, ?_⟩, ?_⟩
    · rw [map_group?_toList hother]
      exact (groupsOf_perm hperm).symm.map some
    · intro bucket hbucket other hotherMem group hgroup hotherGroup
      obtain ⟨hmem, htally⟩ := tally_of_mem_toList htable hbucket hgroup
      obtain ⟨-, hotherTally⟩ := tally_of_mem_toList hother hotherMem hotherGroup
      exact Bucket.agreeOn_of_perm (hperm.filter _) (membersOf_ne_nil hmem) htally hotherTally

/-- A safe integer as a value that is a floating-point number. -/
def Value.safeFloat (n : Int) (h : n.natAbs ≤ Number.maxSafeInteger := by decide) : Value :=
  .number (.float (Number.ofSafe n h))

/-- Documents of two kinds, one of which is spelled in two ways. -/
def weighedDocuments : List Document := [
  ⟨[("kind", .int 1), ("mass", .int 7)]⟩,
  ⟨[("kind", .string "dog"), ("mass", .string "light")]⟩,
  ⟨[("kind", .safeFloat 1), ("mass", .int (-3))]⟩,
  ⟨[("kind", .string "dog"), ("mass", .string "heavy")]⟩]

/-- All statistics of the masses and the number of documents of each kind. -/
def massesByKind : Spec where
  groupBy := some [⟨"kind", .value⟩]
  stats := SortedMap.empty.insert "mass" (StatSet.ofList Stat.all)
  total := true

/-- Taken the other way round, the documents make the buckets in another order and one of them with
another key, but the buckets of one canonical key agree. -/
theorem groupDocuments_weighedDocuments_reverse :
    weighedDocuments.Perm weighedDocuments.reverse ∧
    ∃ table otherTable,
      groupDocuments massesByKind [⟨"kind", .value⟩] weighedDocuments = .ok table ∧
      groupDocuments massesByKind [⟨"kind", .value⟩] weighedDocuments.reverse = .ok otherTable ∧
      table.toList.map Bucket.key = [some [.int 1], some [.string "dog"]] ∧
      otherTable.toList.map Bucket.key = [some [.string "dog"], some [.safeFloat 1]] ∧
      ∀ bucket ∈ table.toList, ∀ other ∈ otherTable.toList, ∀ group,
        bucket.group? = some group → other.group? = some group →
        bucket.AgreeOn massesByKind (membersOf [⟨"kind", .value⟩] weighedDocuments group)
          other := by
  have hperm : weighedDocuments.Perm weighedDocuments.reverse := (List.reverse_perm _).symm
  have hkeys : (groupDocuments massesByKind [⟨"kind", .value⟩] weighedDocuments).map
      (fun table => table.toList.map Bucket.key) = .ok [some [.int 1], some [.string "dog"]] := by
    decide +kernel
  have hotherKeys : (groupDocuments massesByKind [⟨"kind", .value⟩] weighedDocuments.reverse).map
      (fun table => table.toList.map Bucket.key) =
        .ok [some [.string "dog"], some [.safeFloat 1]] := by
    decide +kernel
  obtain ⟨table, htable⟩ : ∃ table,
      groupDocuments massesByKind [⟨"kind", .value⟩] weighedDocuments = .ok table := by
    rw [exists_eq_ok_iff]
    intro error herror
    rw [herror] at hkeys
    cases hkeys
  obtain ⟨hsuccess, hagree⟩ := groupDocuments_perm massesByKind [⟨"kind", .value⟩] hperm
  obtain ⟨otherTable, hother⟩ := hsuccess.mp ⟨table, htable⟩
  rw [htable] at hkeys
  rw [hother] at hotherKeys
  exact ⟨hperm, table, otherTable, htable, hother, Except.ok.inj hkeys, Except.ok.inj hotherKeys,
    (hagree table otherTable htable hother).2⟩

end Rollup
