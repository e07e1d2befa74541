import Rollup.Proofs.Aggregate.RecordPart

/-!
# Pruning as a filter

Pruning leaves a value that is no object as it is, and of an object every member but the statistics
and the total. The total is left if the spec asks for it, and of the statistics of a field those
that the spec requests (`Spec.PrunesTo`). What a spec leaves of a record does not change if a spec
that requests more has pruned the record before.
-/

namespace Rollup

/-- Entries in key order stay so if some are left out and the others keep their keys. -/
theorem KeySorted.filterMap {α β : Type} {entries : List (String × α)} (h : KeySorted entries)
    {f : String × α → Option (String × β)}
    (hkey : ∀ entry result, f entry = some result → result.1 = entry.1) :
    KeySorted (entries.filterMap f) := by
  rw [KeySorted, List.pairwise_map]
  refine (List.pairwise_map.mp h).filterMap f ?_
  intro a b hlt x hx y hy
  rw [hkey a x hx, hkey b y hy]
  exact hlt

/-- What is found under a key of a well-formed object is well-formed. -/
theorem Value.WellFormed.of_lookup {members : List (String × Value)}
    (h : (Value.object members).WellFormed) {name : String} {value : Value}
    (hvalue : members.lookup name = some value) : value.WellFormed := by
  have hmem := (lookup_eq_some_iff_mem h.1.nodup_keys).mp hvalue
  exact wellFormed_of_mem_members h.2 _ hmem

/-- Options that are related to one option are equal if values related to one value are. -/
theorem eq_of_rel_of_rel {α β : Type} {r : α → β → Prop} {x : Option α} {y z : Option β}
    (hy : Option.Rel r x y) (hz : Option.Rel r x z) (h : ∀ a b c, r a b → r a c → b = c) :
    y = z := by
  cases hy with
  | none =>
    cases hz
    rfl
  | some hb =>
    cases hz with
    | some hc => rw [h _ _ _ hb hc]

namespace Spec

/-- The spec requests the statistic that has a name, for a field. -/
def AsksFor (spec : Spec) (field name : String) : Prop :=
  ∃ (set : StatSet) (stat : Stat), spec.stats.find? field = some set ∧ set.contains stat = true ∧
    stat.name = name

/-- What is left of the entry of a field: of an object the members that have the name of a requested
statistic, and anything else as it is. -/
inductive PrunesFieldTo (spec : Spec) (field : String) : Value → Value → Prop where
  /-- What is no object is left as it is. -/
  | verbatim {value : Value} (h : ∀ members, value ≠ .object members) :
      PrunesFieldTo spec field value value
  /-- Of an object the requested members are left, with their values. -/
  | requested {members kept : List (String × Value)} (sorted : KeySorted kept)
      (kept_iff : ∀ name value, kept.lookup name = some value ↔
        spec.AsksFor field name ∧ members.lookup name = some value) :
      PrunesFieldTo spec field (.object members) (.object kept)

/-- What is left of the members of a record. -/
structure PrunesMembersTo (spec : Spec) (members kept : List (String × Value)) : Prop where
  /-- They stay in key order. -/
  sorted : KeySorted kept
  /-- Any other member than the statistics and the total is left as it is. -/
  frame : ∀ name, name ≠ "stats" → name ≠ "total" → kept.lookup name = members.lookup name
  /-- The total is left as it is if it is asked for. -/
  total : kept.lookup "total" = if spec.total then members.lookup "total" else none
  /-- Statistics that are no object, or an empty one, are left out. -/
  noStats : (∀ first rest, members.lookup "stats" ≠ some (.object (first :: rest))) →
    kept.lookup "stats" = none
  /-- Of other statistics the entries of all fields are left, each pruned for itself. -/
  stats : ∀ first rest, members.lookup "stats" = some (.object (first :: rest)) →
    ∃ fields, kept.lookup "stats" = some (.object fields) ∧ KeySorted fields ∧
      ∀ field, Option.Rel (spec.PrunesFieldTo field) ((first :: rest).lookup field)
        (fields.lookup field)

/-- What is left of a value. -/
inductive PrunesTo (spec : Spec) : Value → Value → Prop where
  /-- What is no object is left as it is. -/
  | verbatim {value : Value} (h : ∀ members, value ≠ .object members) : PrunesTo spec value value
  /-- An object is a record. -/
  | record {members kept : List (String × Value)} (h : spec.PrunesMembersTo members kept) :
      PrunesTo spec (.object members) (.object kept)

/-- A spec requests no more than a wider one, and asks for the total only if that one does. -/
structure Within (narrow wide : Spec) : Prop where
  /-- What it requests of a field, the wider one requests too. -/
  requests : ∀ field name, narrow.AsksFor field name → wide.AsksFor field name
  /-- If it asks for the total, so does the wider one. -/
  total : narrow.total = true → wide.total = true

variable (spec : Spec)

theorem requests_iff_asksFor {field name : String} :
    spec.requests field name = true ↔ spec.AsksFor field name := by
  rw [requests_eq_true_iff, AsksFor, exists_comm]
  simp only [Stat.ofName?_eq_some]
  refine exists₂_congr fun set stat => ?_
  rw [and_comm, and_assoc, and_comm, and_assoc]

section Uniqueness

variable {spec}

/-- Only one value is left of the entry of a field. -/
theorem PrunesFieldTo.unique {field : String} {value a b : Value}
    (ha : spec.PrunesFieldTo field value a) (hb : spec.PrunesFieldTo field value b) : a = b := by
  cases ha with
  | verbatim hvalue =>
    cases hb with
    | verbatim => rfl
    | requested => exact absurd rfl (hvalue _)
  | requested hsorted hkept =>
    cases hb with
    | verbatim hvalue => exact absurd rfl (hvalue _)
    | requested hsorted' hkept' =>
      refine congrArg Value.object (hsorted.eq_of_lookup hsorted' fun name => ?_)
      apply Option.ext
      intro value
      rw [hkept, hkept']

/-- Only one list of members is left of a record. -/
theorem PrunesMembersTo.unique {members a b : List (String × Value)}
    (ha : spec.PrunesMembersTo members a) (hb : spec.PrunesMembersTo members b) : a = b := by
  refine ha.sorted.eq_of_lookup hb.sorted fun name => ?_
  by_cases hstats : name = "stats"
  · subst hstats
    by_cases hfields : ∃ first rest, members.lookup "stats" = some (.object (first :: rest))
    · obtain ⟨first, rest, hfields⟩ := hfields
      obtain ⟨as, hlookup, hsorted, has⟩ := ha.stats first rest hfields
      obtain ⟨bs, hlookup', hsorted', hbs⟩ := hb.stats first rest hfields
      have heq : as = bs := hsorted.eq_of_lookup hsorted' fun field =>
        eq_of_rel_of_rel (has field) (hbs field) fun _ _ _ => PrunesFieldTo.unique
      rw [hlookup, hlookup', heq]
    · simp only [not_exists] at hfields
      rw [ha.noStats hfields, hb.noStats hfields]
  · by_cases htotal : name = "total"
    · rw [htotal, ha.total, hb.total]
    · rw [ha.frame name hstats htotal, hb.frame name hstats htotal]

/-- Only one value is left of a value. -/
theorem PrunesTo.unique {value a b : Value} (ha : spec.PrunesTo value a)
    (hb : spec.PrunesTo value b) : a = b := by
  cases ha with
  | verbatim hvalue =>
    cases hb with
    | verbatim => rfl
    | record => exact absurd rfl (hvalue _)
  | record ha =>
    cases hb with
    | verbatim hvalue => exact absurd rfl (hvalue _)
    | record hb => rw [ha.unique hb]

end Uniqueness

section Leaving

/-- Pruning the entry of a field leaves the requested statistics. -/
theorem prunesFieldTo_pruneField (field : String) {value : Value} (h : value.WellFormed) :
    spec.PrunesFieldTo field value (spec.pruneField field value) := by
  cases value with
  | object members =>
    refine .requested (List.Pairwise.sublist (List.filter_sublist.map Prod.fst) h.1) ?_
    intro name value
    rw [lookup_filter_key, ← requests_iff_asksFor]
    split <;> simp_all
  | _ => exact .verbatim (by simp)

/-- Pruning the statistics leaves the entries of all fields, if there are any. -/
theorem prunesFieldTo_pruneStats {first : String × Value} {rest : List (String × Value)}
    (h : (Value.object (first :: rest)).WellFormed) :
    ∃ fields, spec.pruneStats? (.object (first :: rest)) = some (.object fields) ∧
      KeySorted fields ∧
      ∀ field, Option.Rel (spec.PrunesFieldTo field) ((first :: rest).lookup field)
        (fields.lookup field) := by
  refine ⟨_, rfl, ?_, ?_⟩
  · rw [KeySorted, map_fst_map_entries spec.pruneField]
    exact h.1
  · intro field
    rw [lookup_map_entries field spec.pruneField]
    cases hvalue : (first :: rest).lookup field with
    | none => exact .none
    | some value =>
      exact .some (spec.prunesFieldTo_pruneField field (h.of_lookup hvalue))

/-- Pruning the members of a record leaves what it should. -/
theorem prunesMembersTo_filterMap {members : List (String × Value)}
    (h : (Value.object members).WellFormed) :
    spec.PrunesMembersTo members (members.filterMap spec.pruneMember?) where
  sorted := h.1.filterMap fun _ _ => spec.name_of_pruneMember?
  frame name hstats htotal := by
    rw [spec.lookup_filterMap_pruneMember? h.1]
    simp [pruneMember?, hstats, htotal]
  total := by
    rw [spec.lookup_filterMap_pruneMember? h.1]
    cases htotal : spec.total <;> simp [pruneMember?, htotal]
  noStats hnone := by
    rw [spec.lookup_filterMap_pruneMember? h.1]
    cases hvalue : members.lookup "stats" with
    | none => rfl
    | some value =>
      cases value with
      | object fields =>
        cases fields with
        | nil => rfl
        | cons first rest => exact absurd hvalue (hnone first rest)
      | _ => rfl
  stats first rest hvalue := by
    obtain ⟨fields, hprune, hfields⟩ := spec.prunesFieldTo_pruneStats (h.of_lookup hvalue)
    refine ⟨fields, ?_, hfields⟩
    rw [spec.lookup_filterMap_pruneMember? h.1, hvalue, Option.bind_some, pruneMember?, if_pos rfl,
      hprune]
    rfl

/-- Pruning a value leaves what it should, and that is all that it leaves. -/
theorem prune_eq_iff_prunesTo {record : Value} (h : record.WellFormed) (pruned : Value) :
    spec.prune record = pruned ↔ spec.PrunesTo record pruned := by
  have hprune : spec.PrunesTo record (spec.prune record) := by
    cases record with
    | object members => exact .record (spec.prunesMembersTo_filterMap h)
    | _ => exact .verbatim (by simp)
  constructor
  · rintro rfl
    exact hprune
  · exact hprune.unique

end Leaving

section Composition

variable {narrow wide : Spec} (h : narrow.Within wide)
include h

/-- Pruning the statistics of a field further leaves what pruning them at once leaves. -/
theorem Within.pruneField_pruneField (field : String) (value : Value) :
    narrow.pruneField field (wide.pruneField field value) = narrow.pruneField field value := by
  cases value with
  | object stats =>
    -- Of two filters in a row the wider one keeps all that the narrower one keeps.
    simp only [pruneField, List.filter_filter]
    congr 1
    apply List.filter_congr
    rintro ⟨name, _⟩ _
    cases hnarrow : narrow.requests field name with
    | false => rfl
    | true =>
      exact wide.requests_iff_asksFor.mpr
        (h.requests field name (narrow.requests_iff_asksFor.mp hnarrow))
  | _ => rfl

/-- Pruning the statistics of a record further leaves what pruning them at once leaves. -/
theorem Within.pruneStats?_pruneStats? (value : Value) :
    (wide.pruneStats? value).bind narrow.pruneStats? = narrow.pruneStats? value := by
  cases value with
  | object fields =>
    cases fields with
    | nil => rfl
    | cons first rest =>
      simp only [pruneStats?, List.isEmpty_cons, Bool.false_eq_true, if_false, Option.bind_some,
        List.isEmpty_map, List.map_map]
      congr 2
      apply List.map_congr_left
      rintro ⟨field, value⟩ _
      exact congrArg (Prod.mk field) (h.pruneField_pruneField field value)
  | _ => rfl

/-- Pruning a member further leaves what pruning it at once leaves. -/
theorem Within.pruneMember?_pruneMember? (member : String × Value) :
    (wide.pruneMember? member).bind narrow.pruneMember? = narrow.pruneMember? member := by
  obtain ⟨name, value⟩ := member
  by_cases hstats : name = "stats"
  · subst hstats
    simp only [pruneMember?, if_true]
    rw [← h.pruneStats?_pruneStats? value]
    cases wide.pruneStats? value <;> simp [pruneMember?]
  · by_cases htotal : name = "total"
    · subst htotal
      have hasked := h.total
      simp only [pruneMember?, hstats, if_false, if_true]
      cases hwide : wide.total <;> simp_all [pruneMember?]
    · simp [pruneMember?, hstats, htotal]

/-- Pruning a record further leaves what pruning it at once leaves. -/
theorem Within.prune_prune (record : Value) :
    narrow.prune (wide.prune record) = narrow.prune record := by
  cases record with
  | object members =>
    simp only [prune, List.filterMap_filterMap, h.pruneMember?_pruneMember?]
  | _ => rfl

end Composition

/-- A spec requests no more than itself. -/
theorem within_self : spec.Within spec where
  requests _ _ := id
  total := id

/-- Pruning is an exact filter. It leaves what the spec asks for and all that is not its business, a
second time it changes nothing, and where a spec that requests more has pruned before, the result is
the same as without. -/
theorem prune_filters {record : Value} (h : record.WellFormed) :
    (∀ pruned, spec.prune record = pruned ↔ spec.PrunesTo record pruned) ∧
      spec.prune (spec.prune record) = spec.prune record ∧
      ∀ narrow : Spec, narrow.Within spec →
        narrow.prune (spec.prune record) = narrow.prune record :=
  ⟨spec.prune_eq_iff_prunesTo h, spec.within_self.prune_prune record,
    fun _ hwithin => hwithin.prune_prune record⟩

end Spec

/-- A record with members that no bucket has: a text for a total, a number for the statistics of one
field, an unknown statistic of another, and statistics of a field that nobody asked for. -/
def strayRecord : Value := .object [
  ("note", .null),
  ("stats", .object [
    ("age", .object [("count", .int 6), ("max", .int 8), ("median", .int 5)]),
    ("height", .object [("max", .int 3)]),
    ("weight", .int 7)]),
  ("total", .string "many")]

/-- The given statistics of the age and of the weight, with or without the total. -/
def agesAndWeights (stats : List Stat) (total : Bool) : Spec where
  stats :=
    (SortedMap.empty.insert "age" (StatSet.ofList stats)).insert "weight" (StatSet.ofList stats)
  total := total

/-- Pruning the stray record for maximum and total, and then for nothing but the fields. -/
theorem prune_strayRecord :
    strayRecord.WellFormed ∧
    (agesAndWeights [] false).Within (agesAndWeights [.max] true) ∧
    (agesAndWeights [.max] true).PrunesTo strayRecord (.object [
      ("note", .null),
      ("stats", .object [("age", .object [("max", .int 8)]), ("height", .object []),
        ("weight", .int 7)]),
      ("total", .string "many")]) ∧
    (agesAndWeights [] false).prune ((agesAndWeights [.max] true).prune strayRecord) = .object [
      ("note", .null),
      ("stats", .object [("age", .object []), ("height", .object []), ("weight", .int 7)])] := by
  have hwell : strayRecord.WellFormed := by
    simp only [strayRecord, Value.int, Value.WellFormed, Value.WellFormedMembers, KeySorted,
      Number.InRange]
    decide
  have hwithin : (agesAndWeights [] false).Within (agesAndWeights [.max] true) := by
    refine ⟨?_, fun _ => rfl⟩
    rintro field name ⟨set, stat, hset, hstat, -⟩
    rw [agesAndWeights, SortedMap.find?_insert, SortedMap.find?_insert] at hset
    have hnone : (StatSet.ofList []).contains stat = false := by cases stat <;> rfl
    have hofList : set = StatSet.ofList [] := by
      split at hset
      · exact (Option.some.inj hset).symm
      · split at hset
        · exact (Option.some.inj hset).symm
        · cases hset
    rw [hofList, hnone] at hstat
    cases hstat
  obtain ⟨hexact, -, hcompose⟩ := (agesAndWeights [.max] true).prune_filters hwell
  refine ⟨hwell, hwithin, (hexact _).mp (by decide +kernel), ?_⟩
  rw [hcompose _ hwithin]
  decide +kernel

end Rollup
