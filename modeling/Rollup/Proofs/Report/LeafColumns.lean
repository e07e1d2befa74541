import Rollup.Proofs.Aggregate.RecordShape
import Rollup.Proofs.Value.Flatten
import Rollup.Report.Table

/-!
# Columns of leaves

A table has a column for the path of every leaf of a record. The fields of a spec and the keys in a
group key may contain points, so two leaves may have one path, and then one of them is not shown.
Within a record this happens in two ways only: in one component of the key, or between a statistic
of a field and a field without statistics whose name is the path of that statistic.
-/

namespace Rollup

/-- The columns of a table are the paths that its rows have something under. -/
theorem mem_tableColumns {rows : List (SortedMap Value)} {column : String} :
    column ∈ tableColumns rows ↔ ∃ row ∈ rows, column ∈ row.keys := by
  rw [tableColumns, SortedMap.keys, SortedMap.ofList, mem_map_fst_sortEntries, List.map_map]
  simp

/-- The table of a result shows all of a record. -/
structure EvalResult.ShowsInFull (result : EvalResult) (record : Value) : Prop where
  /-- The row of the record has as many entries as the record has leaves. -/
  count : record.flatten.entries.length = record.leavesBelow.length
  /-- Different leaves have different columns. -/
  distinct : record.leafPaths.Nodup
  /-- Every leaf has a column in the table. -/
  column : ∀ path leaf, (path, leaf) ∈ record.leavesBelow →
    Value.joinPath path ∈ tableColumns (result.records.map Value.flatten)
  /-- The row of the record has the leaf in that column. -/
  entry : ∀ path leaf, (path, leaf) ∈ record.leavesBelow →
    record.flatten.find? (Value.joinPath path) = some leaf

/-- The table of a result shows all of a record exactly if the leaves of the record have different
paths. -/
theorem EvalResult.showsInFull_iff {result : EvalResult} {record : Value}
    (h : record ∈ result.records) : result.ShowsInFull record ↔ record.LeavesApart := by
  constructor
  · intro hshows
    exact hshows.distinct
  · intro hapart
    refine ⟨record.length_entries_flatten_eq_iff.mpr hapart, hapart, ?_, ?_⟩
    · intro path leaf hleaf
      exact mem_tableColumns.mpr ⟨record.flatten, List.mem_map_of_mem h,
        Value.mem_keys_flatten_of_mem_leavesBelow hleaf⟩
    · intro path leaf hleaf
      exact hapart.find?_flatten hleaf

section Statistics

/-- The name of a statistic has no point. -/
theorem Stat.point_notMem_name (stat : Stat) : '.' ∉ stat.name.toList := by
  cases stat <;> decide

variable (set : StatSet) (values : List Value)

/-- The paths through what is shown of a field are those of its statistics. -/
theorem StatSet.leafPaths_shown :
    (Value.object (set.shown values)).leafPaths = (set.shown values).map Prod.fst := by
  apply Value.leafPaths_object_of_isLeaf
  intro member hmember
  obtain ⟨stat, -, -, hstat⟩ := StatSet.mem_shown.mp hmember
  exact FieldStats.isLeaf_of_statistic? hstat

/-- A path through a field leads to one of the statistics that are shown of it, or is that of the
field itself if none is shown. -/
theorem StatSet.mem_pathsThrough_shown {field path : String} :
    path ∈ Value.pathsThrough field (.object (set.shown values)) ↔
      set.shown values = [] ∧ path = field ∨
        ∃ (stat : Stat) (value : Value), (stat.name, value) ∈ set.shown values ∧
          path = field ++ "." ++ stat.name := by
  rw [Value.pathsThrough, Value.children, set.leafPaths_shown]
  split
  · next hnone => simp [hnone]
  · next hsome =>
    rw [List.map_map, List.mem_map]
    constructor
    · rintro ⟨member, hmember, rfl⟩
      obtain ⟨stat, -, hname, -⟩ := StatSet.mem_shown.mp hmember
      exact .inr ⟨stat, member.2, hname ▸ hmember, congrArg _ hname⟩
    · rintro (⟨hnone, -⟩ | ⟨stat, value, hmember, rfl⟩)
      · exact absurd hnone hsome
      · exact ⟨(stat.name, value), hmember, rfl⟩

variable (spec : Spec) (data : List Value)

/-- No field without statistics has the name of the path to a statistic of another field. -/
def Spec.FieldsApart (spec : Spec) (data : List Value) : Prop :=
  ∀ field (stat : Stat), (Value.object (spec.shownStats data)).child? (field ++ "." ++ stat.name) =
      some (.object []) →
    (Value.object (spec.shownStats data)).descend? [field, stat.name] = none

/-- A path does not lead both to a field without statistics and to a statistic of another field. -/
theorem Spec.FieldsApart.ne_append_name {spec : Spec} {data : List Value}
    (h : spec.FieldsApart data) {f g : String} {setF setG : StatSet} {stat : Stat} {value : Value}
    (hf : spec.stats.find? f = some setF) (hg : spec.stats.find? g = some setG)
    (hnone : setF.shown (valuesAt f data) = [])
    (hsome : (stat.name, value) ∈ setG.shown (valuesAt g data)) : f ≠ g ++ "." ++ stat.name := by
  rintro rfl
  have hempty : (Value.object (spec.shownStats data)).child? (g ++ "." ++ stat.name) =
      some (.object []) := by
    rw [spec.child?_shownStats, hf, Option.map_some, hnone]
  have hshown := (spec.descend?_shownStats_eq_some_iff hg stat value).mpr hsome
  rw [h g stat hempty] at hshown
  cases hshown

/-- If no field is in the way of another one, no path leads through two of them. -/
theorem Spec.FieldsApart.disjoint {spec : Spec} {data : List Value} (h : spec.FieldsApart data)
    {f g : String} {setF setG : StatSet} (hf : spec.stats.find? f = some setF)
    (hg : spec.stats.find? g = some setG) (hne : f ≠ g) :
    List.Disjoint (Value.pathsThrough f (.object (setF.shown (valuesAt f data))))
      (Value.pathsThrough g (.object (setG.shown (valuesAt g data)))) := by
  intro path hpathF hpathG
  rcases (setF.mem_pathsThrough_shown _).mp hpathF with ⟨hnoneF, rfl⟩ | ⟨s, v, hs, rfl⟩
  · rcases (setG.mem_pathsThrough_shown _).mp hpathG with ⟨-, hpath⟩ | ⟨t, w, ht, hpath⟩
    · exact hne hpath
    · exact h.ne_append_name hf hg hnoneF ht hpath
  · rcases (setG.mem_pathsThrough_shown _).mp hpathG with ⟨hnoneG, hpath⟩ | ⟨t, w, ht, hpath⟩
    · exact h.ne_append_name hg hf hnoneG hs hpath.symm
    · exact hne (Value.append_point_inj s.point_notMem_name t.point_notMem_name hpath).1

/-- A field is not the path to a statistic of itself. -/
theorem Stat.ne_append_name (field : String) (stat : Stat) : field ≠ field ++ "." ++ stat.name := by
  intro heq
  have hpoint : ".".length = 1 := by decide
  have hlength := congrArg String.length heq
  rw [String.length_append, String.length_append] at hlength
  omega

/-- If no path leads through two fields, no field without statistics is in the way of another one:
its path would be that of a statistic of the other one. -/
theorem Spec.fieldsApart_of_disjoint
    (h : ∀ a ∈ spec.shownStats data, ∀ b ∈ spec.shownStats data, a.1 ≠ b.1 →
      List.Disjoint (Value.pathsThrough a.1 a.2) (Value.pathsThrough b.1 b.2)) :
    spec.FieldsApart data := by
  intro field stat hempty
  rw [Option.eq_none_iff_forall_ne_some]
  intro value hvalue
  rw [spec.child?_shownStats] at hempty
  obtain ⟨other, hother, hnone⟩ := Option.map_eq_some_iff.mp hempty
  cases hset : spec.stats.find? field with
  | none =>
    rw [Value.descend?_pair, spec.child?_shownStats, hset] at hvalue
    cases hvalue
  | some set =>
    have hshown := (spec.descend?_shownStats_eq_some_iff hset stat value).mp hvalue
    exact h _ (spec.mem_shownStats.mpr ⟨set, hset, rfl⟩)
      _ (spec.mem_shownStats.mpr ⟨other, hother, rfl⟩) (stat.ne_append_name field)
      ((set.mem_pathsThrough_shown _).mpr (.inr ⟨stat, value, hshown, rfl⟩))
      ((other.mem_pathsThrough_shown _).mpr (.inl ⟨Value.object.inj hnone, rfl⟩))

/-- The leaves of the statistics of a record have different paths exactly if no field is in the way
of another one. -/
theorem Spec.leavesApart_shownStats_iff :
    (Value.object (spec.shownStats data)).LeavesApart ↔ spec.FieldsApart data := by
  have hfields : ∀ child ∈ (Value.object (spec.shownStats data)).children,
      child.2.LeavesApart := by
    rintro ⟨field, value⟩ hchild
    obtain ⟨set, -, rfl⟩ := spec.mem_shownStats.mp hchild
    rw [Value.LeavesApart, set.leafPaths_shown]
    exact (set.keySorted_shown _).nodup_keys
  rw [Value.leavesApart_iff (.object (spec.shownStats data)) (spec.nodup_shownStats data),
    and_iff_right hfields]
  constructor
  · exact spec.fieldsApart_of_disjoint data
  · intro hapart
    rintro ⟨f, v⟩ hf ⟨g, w⟩ hg hne
    obtain ⟨setF, hsetF, rfl⟩ := spec.mem_shownStats.mp hf
    obtain ⟨setG, hsetG, rfl⟩ := spec.mem_shownStats.mp hg
    exact hapart.disjoint hsetF hsetG hne

end Statistics

section Records

variable {spec : Spec} {documents part : List Document} {key : Option (List Value)}

/-- The record of a group has its leaves apart if every component of the key has and if the fields
of its statistics do not get in each other's way. -/
theorem Spec.IsGroup.leavesApart_iff (h : spec.IsGroup documents key part) :
    (Value.object (spec.shownMembers key part)).LeavesApart ↔
      (∀ components, key = some components → ∀ component ∈ components, component.LeavesApart) ∧
        (spec.stats.keys ≠ [] ∧ part ≠ [] → spec.FieldsApart (part.map Document.data)) := by
  have hnames := spec.names_shownMembers_sublist key part
  have hnodup : ((spec.shownMembers key part).map Prod.fst).Nodup := hnames.nodup (by decide)
  have hpoint : ∀ member ∈ spec.shownMembers key part, '.' ∉ member.1.toList := by
    intro member hmember
    have hfree : ∀ name ∈ ["key", "stats", "total"], '.' ∉ name.toList := by decide
    exact hfree member.1 (hnames.subset (List.mem_map_of_mem hmember))
  have hmembers := spec.forall_mem_shownMembers key h.key_eq_none (p := Value.LeavesApart)
  have htotal : (Value.nat part.length).LeavesApart := Value.leavesApart_of_children_eq_nil rfl
  simp only [Value.leavesApart_array, spec.leavesApart_shownStats_iff, htotal, implies_true,
    and_true] at hmembers
  exact (Value.leavesApart_iff_of_point_notMem (.object (spec.shownMembers key part)) hnodup
    hpoint).trans hmembers

end Records

/-- The table shows all of a record except in two cases: in one component of the key two leaves have
the same path, or a field without statistics has the name of the path to a statistic of another
field. In these cases a leaf is missing from the table. -/
theorem evaluate_showsInFull_iff {documents : List Document} {spec : Spec} {options : EvalOptions}
    {result : EvalResult} (hrun : evaluate documents spec options = .ok result) :
    ∀ record ∈ result.records,
      result.ShowsInFull record ↔
        (∀ key, record.child? "key" = some (.array key) →
          ∀ component ∈ key, component.LeavesApart) ∧
        ∀ field (stat : Stat),
          record.descend? ["stats", field ++ "." ++ stat.name] = some (.object []) →
            record.descend? ["stats", field, stat.name] = none := by
  intro record hrecord
  rw [EvalResult.showsInFull_iff hrecord]
  obtain ⟨key, part, hgroup, rfl⟩ := exists_isGroup_of_mem_records hrun hrecord
  rw [hgroup.leavesApart_iff, Value.child?_object,
    spec.lookup_shownMembers_key key hgroup.key_eq_none]
  refine and_congr ?_ ?_
  · simp only [Option.map_eq_some_iff, Value.array.injEq, exists_eq_right]
  · simp only [Value.descend?_cons _ "stats", Value.child?_object, spec.lookup_shownMembers_stats,
      Value.descend?_singleton]
    split
    · next hpresent =>
      rw [imp_iff_right hpresent]
      rfl
    · next habsent => simp [habsent]

/-- Counts of a field and of what looks like its count. -/
def shadowedCount : Spec where
  stats := (SortedMap.empty.insert "a" (StatSet.ofList [.count])).insert "a.count"
    (StatSet.ofList [.count])

/-- A table does not always show all of a record: one document with a field that is counted, and no
value for another field whose name is the path of that count, have one column for both. -/
theorem evaluate_shadowedCount_not_showsInFull :
    ¬ ∀ (documents : List Document) (spec : Spec) (options : EvalOptions) (result : EvalResult),
      evaluate documents spec options = .ok result →
        ∀ record ∈ result.records, result.ShowsInFull record := by
  intro h
  have hvalid : shadowedCount.validate = .ok () := by cbv
  have hrun := evaluate_of_groupBy_eq_none hvalid rfl [⟨[("a", .int 5)]⟩] {}
  have hshows := h _ _ _ _ hrun _ List.mem_cons_self
  have hshared : ¬ (overallRecord shadowedCount [⟨[("a", .int 5)]⟩]).leafPaths.Nodup := by
    decide +kernel
  exact hshared hshows.distinct

/-- The table of the patchy documents shows all of both records. -/
theorem evaluate_patchyDocuments_showsInFull :
    evaluate patchyDocuments weightsByKind {} = .ok (.grouped patchyRecords none) ∧
    ∀ record ∈ patchyRecords, (EvalResult.grouped patchyRecords none).ShowsInFull record := by
  refine ⟨evaluate_patchyDocuments, fun record hrecord =>
    (evaluate_showsInFull_iff evaluate_patchyDocuments record hrecord).mpr ?_⟩
  obtain ⟨kind, shown, rfl⟩ : ∃ kind shown, record = weightRecord kind shown := by
    simp only [patchyRecords, List.mem_cons, List.not_mem_nil, or_false] at hrecord
    rcases hrecord with rfl | rfl <;> exact ⟨_, _, rfl⟩
  constructor
  · rintro _ ⟨⟩ component hcomponent
    obtain rfl := List.mem_singleton.mp hcomponent
    exact Value.leavesApart_of_children_eq_nil rfl
  · intro field stat hempty
    have hname : field ++ "." ++ stat.name ≠ "weight" := by
      intro heq
      have hpoint : '.' ∉ "weight".toList := by decide
      rw [← heq] at hpoint
      simp at hpoint
    have hnone :
        (weightRecord kind shown).descend? ["stats", field ++ "." ++ stat.name] = none := by
      rw [Value.descend?_pair]
      exact (lookup_cons _ "weight" (Value.object shown) []).trans (if_neg hname)
    rw [hnone] at hempty
    cases hempty

end Rollup
