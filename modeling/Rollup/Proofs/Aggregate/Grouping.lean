import Mathlib.Data.List.Forall2
import Rollup.Aggregate.Evaluation
import Rollup.Proofs.Aggregate.BucketTable
import Rollup.Proofs.Aggregate.Failure
import Rollup.Proofs.Aggregate.Record
import Rollup.Proofs.Aggregate.Tally
import Rollup.Proofs.Sorting.SortKey

/-!
# Grouping as a partition

A grouped evaluation walks over the documents once and changes one bucket at a time. It gives what
one gets by first dividing the documents into groups with one canonical key and then evaluating
every group on its own, without a grouping.
-/

namespace Rollup

/-- The canonical form of the key that clauses give a document, if they give it one. -/
def Document.group? (clauses : List Clause) (document : Document) : Option String :=
  (groupKey document.data clauses).toOption.map Value.canonicalKey

/-- The canonical keys of documents, each once, in the order of first appearance. -/
def groupsOf (clauses : List Clause) (documents : List Document) : List String :=
  (documents.filterMap (Document.group? clauses)).eraseDups

/-- The documents of a group, in their own order. -/
def membersOf (clauses : List Clause) (documents : List Document) (group : String) :
    List Document :=
  documents.filter fun document => document.group? clauses = some group

/-- What a document does to the table of buckets. -/
def Document.access (spec : Spec) (clauses : List Clause) (document : Document) : Access where
  key := (groupKey document.data clauses).toOption.getD []
  change tally := tally.fold spec document.data

section Groups

variable (spec : Spec) {clauses : List Clause} {documents : List Document}

/-- A document with a group key accesses the bucket of that key. -/
theorem Document.access_of_groupKey {document : Document} {key : List Value}
    (h : groupKey document.data clauses = .ok key) :
    document.access spec clauses = ⟨key, fun tally => tally.fold spec document.data⟩ := by
  rw [Document.access, h]
  rfl

/-- The group of a document with a group key is the bucket that it accesses. -/
theorem Document.group?_eq_canonical {document : Document}
    (h : ∃ key, groupKey document.data clauses = .ok key) :
    document.group? clauses = some (document.access spec clauses).canonical := by
  obtain ⟨key, hkey⟩ := h
  rw [Document.access_of_groupKey spec hkey, Document.group?, hkey]
  rfl

/-- Taking one document into a table is its access. -/
theorem groupDocument_of_groupKey {document : Document}
    (h : ∃ key, groupKey document.data clauses = .ok key) (table : BucketTable) :
    groupDocument spec clauses table document =
      .ok (table.modify (document.access spec clauses).key
        (document.access spec clauses).change) := by
  obtain ⟨key, hkey⟩ := h
  rw [Document.access_of_groupKey spec hkey, groupDocument, hkey]
  rfl

private theorem foldlM_groupDocument
    (hkeys : ∀ document ∈ documents, ∃ key, groupKey document.data clauses = .ok key)
    (table : BucketTable) :
    documents.foldlM (groupDocument spec clauses) table =
      .ok ((documents.map (Document.access spec clauses)).foldl
        (fun table access => table.modify access.key access.change) table) := by
  induction documents generalizing table with
  | nil => rfl
  | cons document documents ih =>
    have hfirst := groupDocument_of_groupKey spec (hkeys document List.mem_cons_self) table
    have hrest := fun table =>
      ih (fun other hother => hkeys other (List.mem_cons_of_mem _ hother)) table
    rw [List.foldlM_cons, hfirst, List.map_cons, List.foldl_cons, ← hrest]
    rfl

/-- If every document has a group key, the table of all documents is that of their accesses. -/
theorem groupDocuments_eq_run
    (hkeys : ∀ document ∈ documents, ∃ key, groupKey document.data clauses = .ok key) :
    groupDocuments spec clauses documents =
      .ok (BucketTable.run (documents.map (Document.access spec clauses))) :=
  foldlM_groupDocument spec hkeys .empty

/-- The groups of documents are the buckets that they access. -/
theorem canonicals_map_access
    (hkeys : ∀ document ∈ documents, ∃ key, groupKey document.data clauses = .ok key) :
    Access.canonicals (documents.map (Document.access spec clauses)) =
      groupsOf clauses documents := by
  have hmap : documents.filterMap (Document.group? clauses) =
      (documents.map (Document.access spec clauses)).map Access.canonical := by
    rw [List.map_map, ← List.filterMap_eq_map]
    apply List.filterMap_congr
    intro document hdocument
    exact Document.group?_eq_canonical spec (hkeys document hdocument)
  rw [Access.canonicals, groupsOf, hmap]

/-- The table of documents holds the bucket of every group. -/
theorem toList_of_groupDocuments {table : BucketTable}
    (h : groupDocuments spec clauses documents = .ok table) :
    table.toList = (groupsOf clauses documents).map
      (Access.bucketOf (documents.map (Document.access spec clauses))) := by
  have hkeys := exists_groupDocuments_eq_ok_iff.mp ⟨table, h⟩
  rw [groupDocuments_eq_run spec hkeys] at h
  cases h
  rw [(BucketTable.reflects_run _).buckets, canonicals_map_access spec hkeys]

/-- The accesses to a bucket are those of the documents of the group. -/
theorem filter_map_access
    (hkeys : ∀ document ∈ documents, ∃ key, groupKey document.data clauses = .ok key)
    (group : String) :
    ((documents.map (Document.access spec clauses)).filter fun access => access.canonical = group) =
      (membersOf clauses documents group).map (Document.access spec clauses) := by
  rw [List.filter_map, membersOf]
  congr 1
  apply List.filter_congr
  intro document hdocument
  rw [Document.group?_eq_canonical spec (hkeys document hdocument)]
  simp

/-- A group that appears has a document. -/
theorem membersOf_ne_nil {group : String} (h : group ∈ groupsOf clauses documents) :
    membersOf clauses documents group ≠ [] := by
  rw [groupsOf, List.mem_eraseDups, List.mem_filterMap] at h
  obtain ⟨document, hdocument, hgroup⟩ := h
  have hmem : document ∈ membersOf clauses documents group :=
    List.mem_filter.mpr ⟨hdocument, decide_eq_true hgroup⟩
  exact List.ne_nil_of_mem hmem

/-- The tally of a group is that of its documents. -/
theorem tally_bucketOf_map_access
    (hkeys : ∀ document ∈ documents, ∃ key, groupKey document.data clauses = .ok key)
    (group : String) :
    (Access.bucketOf (documents.map (Document.access spec clauses)) group).tally =
      .ofData spec ((membersOf clauses documents group).map Document.data) := by
  rw [Access.bucketOf, filter_map_access spec hkeys, Tally.ofData, List.foldl_map, List.foldl_map]
  rfl

/-- The bucket of a group has the key of its first document and the tally of all its documents. -/
theorem bucketOf_map_access
    (hkeys : ∀ document ∈ documents, ∃ key, groupKey document.data clauses = .ok key)
    {group : String} {first : Document} {rest : List Document} {key : List Value}
    (hmembers : membersOf clauses documents group = first :: rest)
    (hkey : groupKey first.data clauses = .ok key) :
    Access.bucketOf (documents.map (Document.access spec clauses)) group =
      ⟨some key, .ofData spec ((first :: rest).map Document.data)⟩ := by
  have hfilter := filter_map_access spec hkeys group
  have htally := tally_bucketOf_map_access spec hkeys group
  have hhead := List.head?_filter
    (p := fun access : Access => decide (access.canonical = group))
    (l := documents.map (Document.access spec clauses))
  rw [hfilter, hmembers, List.map_cons, List.head?_cons,
    Document.access_of_groupKey spec hkey] at hhead
  rw [← hmembers, ← htally, Access.bucketOf, ← hhead]
  rfl

end Groups

section Records

variable (spec : Spec)

/-- Without sorting and paging, the records are the pruned records of the buckets in their order. -/
theorem shapeRecords_plain {options : EvalOptions} (buckets : List Bucket)
    (hsort : options.sort = []) (hskip : options.skip = 0) (hlimit : options.limit.getD 0 = 0) :
    shapeRecords spec options buckets =
      buckets.map fun bucket => spec.prune (bucket.toRecord spec) := by
  have hpage : ∀ records, options.page records = records := by
    intro records
    rw [EvalOptions.page, hskip, List.drop_zero]
    cases hlimit' : options.limit with
    | none => rfl
    | some limit =>
      rw [hlimit', Option.getD_some] at hlimit
      rw [hlimit]
  rw [shapeRecords, hsort, sortRecords_nil, hpage, List.map_map]
  rfl

/-- The record over all documents is the pruned record of a bucket without a key. -/
theorem overallRecord_cons (first : Document) (rest : List Document) :
    overallRecord spec (first :: rest) =
      spec.prune
        (Bucket.toRecord spec ⟨none, .ofData spec ((first :: rest).map Document.data)⟩) := by
  have hfold := Bucket.foldl_fold spec .overall ((first :: rest).map Document.data)
  rw [List.foldl_map] at hfold
  exact congrArg (fun bucket => spec.prune (Bucket.toRecord spec bucket)) hfold

/-- A spec keeps its validity without its grouping. -/
theorem Spec.validate_ungrouped (h : spec.validate = .ok ()) :
    { spec with groupBy := none }.validate = .ok () := by
  have hfault := spec.validate_eq_ok_iff.mp h
  rw [fault?] at hfault
  split at hfault
  · cases hfault
  · next hstats => simp only [validate, fault?, hstats, Option.bind_none, refuse]; rfl

/-- A valid spec without its grouping gives the record over all documents, whatever the options. -/
theorem evaluate_ungrouped (h : spec.validate = .ok ()) (documents : List Document)
    (options : EvalOptions) :
    evaluate documents { spec with groupBy := none } options =
      .ok (.overall (overallRecord spec documents) (options.report documents.length)) :=
  evaluate_of_groupBy_eq_none (spec.validate_ungrouped h) rfl documents options

/-- The record of the bucket of a group is that of its documents alone, with the key of the first
added. -/
theorem exists_evaluate_of_mem_groupsOf {clauses : List Clause} {documents : List Document}
    (hvalid : spec.validate = .ok ())
    (hkeys : ∀ document ∈ documents, ∃ key, groupKey document.data clauses = .ok key)
    {group : String} (hgroup : group ∈ groupsOf clauses documents) (options : EvalOptions) :
    ∃ first rest key members,
      membersOf clauses documents group = first :: rest ∧
      groupKey first.data clauses = .ok key ∧
      evaluate (first :: rest) { spec with groupBy := none } options =
        .ok (.overall (.object members) (options.report (first :: rest).length)) ∧
      spec.prune (Bucket.toRecord spec
        (Access.bucketOf (documents.map (Document.access spec clauses)) group)) =
          .object (insertEntry "key" (.array key) members) := by
  obtain ⟨first, rest, hmembers⟩ := List.exists_cons_of_ne_nil (membersOf_ne_nil hgroup)
  have hmember : first ∈ membersOf clauses documents group := by
    rw [hmembers]
    exact List.mem_cons_self
  have hfirst : first ∈ documents := (List.mem_filter.mp hmember).1
  obtain ⟨key, hkey⟩ := hkeys first hfirst
  obtain ⟨members, hoverall, hkeyed⟩ := spec.prune_toRecord_keyed key
    (.ofData spec ((first :: rest).map Document.data))
  refine ⟨first, rest, key, members, hmembers, hkey, ?_, ?_⟩
  · rw [evaluate_ungrouped spec hvalid, overallRecord_cons, hoverall]
  · rw [bucketOf_map_access spec hkeys hmembers hkey, hkeyed]

end Records

/-- Evaluating a grouping is dividing the documents into groups and evaluating each group without a
grouping. There is one record for each group, in the order of first appearance; it is the record of
the documents of the group, with the key of the first of them added. The reported number is the
number of groups. -/
theorem evaluate_grouped_eq_evaluate_parts {documents : List Document} {spec : Spec}
    {clauses : List Clause} {options : EvalOptions} (hvalid : spec.validate = .ok ())
    (hgroup : spec.groupBy = some clauses)
    (hkeys : ∀ document ∈ documents, ∃ key, groupKey document.data clauses = .ok key)
    (hsort : options.sort = []) (hskip : options.skip = 0) (hlimit : options.limit.getD 0 = 0) :
    ∃ records,
      evaluate documents spec options =
        .ok (.grouped records (options.report (groupsOf clauses documents).length)) ∧
      List.Forall₂
        (fun group record => ∃ first rest key members,
          membersOf clauses documents group = first :: rest ∧
          groupKey first.data clauses = .ok key ∧
          evaluate (first :: rest) { spec with groupBy := none } options =
            .ok (.overall (.object members) (options.report (first :: rest).length)) ∧
          record = .object (insertEntry "key" (.array key) members))
        (groupsOf clauses documents) records := by
  have htable := BucketTable.reflects_run (documents.map (Document.access spec clauses))
  have hgroups := canonicals_map_access spec hkeys
  refine ⟨(groupsOf clauses documents).map fun group => spec.prune (Bucket.toRecord spec
    (Access.bucketOf (documents.map (Document.access spec clauses)) group)), ?_, ?_⟩
  · rw [evaluate_grouped hvalid hgroup (groupDocuments_eq_run spec hkeys) options,
      htable.buckets, htable.size_eq, hgroups, shapeRecords_plain spec _ hsort hskip hlimit,
      List.map_map]
    rfl
  · rw [List.forall₂_map_right_iff, List.forall₂_same]
    intro group hmem
    exact exists_evaluate_of_mem_groupsOf spec hvalid hkeys hmem options

/-- Documents of two kinds in turn, one of them without an age. -/
def mixedDocuments : List Document := [
  ⟨[("age", .int 5), ("kind", .string "cat")]⟩,
  ⟨[("age", .int 2), ("kind", .string "dog")]⟩,
  ⟨[("kind", .string "cat")]⟩,
  ⟨[("age", .int 8), ("kind", .string "cat")]⟩]

/-- The sum of the ages and the number of documents of each kind. -/
def agesByKind : Spec where
  groupBy := some [⟨"kind", .value⟩]
  stats := SortedMap.empty.insert "age" (StatSet.ofList [.sum])
  total := true

/-- The kinds of the mixed documents are evaluated each on its own. -/
theorem evaluate_mixedDocuments_eq_evaluate_parts :
    agesByKind.validate = .ok () ∧
    (∀ document ∈ mixedDocuments, ∃ key, groupKey document.data [⟨"kind", .value⟩] = .ok key) ∧
    groupsOf [⟨"kind", .value⟩] mixedDocuments = ["[s:\"cat\"]", "[s:\"dog\"]"] ∧
    ∃ records,
      evaluate mixedDocuments agesByKind { total := true } = .ok (.grouped records (some 2)) ∧
      List.Forall₂
        (fun group record => ∃ first rest key members,
          membersOf [⟨"kind", .value⟩] mixedDocuments group = first :: rest ∧
          groupKey first.data [⟨"kind", .value⟩] = .ok key ∧
          evaluate (first :: rest) { agesByKind with groupBy := none } { total := true } =
            .ok (.overall (.object members) (some (first :: rest).length)) ∧
          record = .object (insertEntry "key" (.array key) members))
        ["[s:\"cat\"]", "[s:\"dog\"]"] records := by
  have hvalid : agesByKind.validate = .ok () := by cbv
  have hkeys : ∀ document ∈ mixedDocuments,
      ∃ key, groupKey document.data [⟨"kind", .value⟩] = .ok key := by
    intro document hdocument
    simp only [mixedDocuments, List.mem_cons, List.not_mem_nil, or_false] at hdocument
    rcases hdocument with rfl | rfl | rfl | rfl
    · exact ⟨[.string "cat"], rfl⟩
    · exact ⟨[.string "dog"], rfl⟩
    · exact ⟨[.string "cat"], rfl⟩
    · exact ⟨[.string "cat"], rfl⟩
  have hgroups : groupsOf [⟨"kind", .value⟩] mixedDocuments = ["[s:\"cat\"]", "[s:\"dog\"]"] := by
    decide +kernel
  have hsort : ({ total := true } : EvalOptions).sort = [] := rfl
  have h := evaluate_grouped_eq_evaluate_parts hvalid rfl hkeys hsort rfl rfl
  rw [hgroups] at h
  exact ⟨hvalid, hkeys, hgroups, h⟩

end Rollup
