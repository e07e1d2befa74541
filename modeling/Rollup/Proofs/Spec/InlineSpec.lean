import Rollup.Proofs.Spec.CompactClause

/-!
# Specs from inline arguments

Statistics arguments are folded into a spec one by one. What they request is seen from the fields
they mention and the names they give: it does not depend on their order or on how the names of a
field are distributed over them, and the spec is the same as that of the object with the same
clauses, the names of every field and the same total.
-/

namespace Rollup

open Text

section Requests

/-- The field that a statistics argument mentions, and the names that it gives, blank ones left
out. -/
def Spec.statParts? (argument : String) : Option (String × List String) :=
  (cutString? "=" argument).map fun (field, names) =>
    (trimString field, (pieces ',' names).filter fun name => trimString name ≠ "")

/-- A statistics argument is read exactly if its field has a path and its names are known. -/
theorem Spec.readStatArgument_eq_ok_iff {argument field : String} {set : StatSet} :
    readStatArgument argument = .ok (field, set) ↔
      ∃ names, statParts? argument = some (field, names) ∧ field ≠ "" ∧ set.NamedBy names := by
  have hnames : ∀ names, set.NamedBy names ↔ statsOfNames field names = .ok set :=
    fun names => statsOfNames_eq_ok_iff.symm
  simp only [hnames]
  rw [readStatArgument, statParts?]
  cases cutString? "=" argument with
  | none => simp
  | some halves =>
    obtain ⟨first, last⟩ := halves
    simp only [Option.map_some, Option.some.injEq, Prod.mk.injEq]
    by_cases hempty : trimString first = ""
    · rw [if_pos hempty]
      constructor
      · intro h
        cases h
      · rintro ⟨_, ⟨rfl, -⟩, hne, -⟩
        exact absurd hempty hne
    · rw [if_neg hempty, map_eq_ok_iff]
      constructor
      · rintro ⟨read, hread, hentry⟩
        obtain ⟨rfl, rfl⟩ := Prod.mk.inj hentry
        exact ⟨_, ⟨rfl, rfl⟩, hempty, hread⟩
      · rintro ⟨_, ⟨rfl, rfl⟩, -, hread⟩
        exact ⟨set, hread, rfl⟩

/-- A spec with several requests. -/
def Spec.requestAll (spec : Spec) (entries : List (String × StatSet)) : Spec :=
  entries.foldl (fun spec (field, set) => spec.requestStats field set) spec

variable (spec : Spec) (field : String)

/-- Requests leave what a spec says besides. -/
theorem Spec.requestAll_sections (entries : List (String × StatSet)) :
    (spec.requestAll entries).groupBy = spec.groupBy ∧
      (spec.requestAll entries).total = spec.total := by
  induction entries generalizing spec with
  | nil => exact ⟨rfl, rfl⟩
  | cons entry entries ih => exact ih _

theorem Spec.find?_requestStats (name : String) (set : StatSet) :
    (spec.requestStats name set).stats.find? field =
      if field = name then some (((spec.stats.find? name).getD .empty).union set)
      else spec.stats.find? field :=
  SortedMap.find?_insert _ _ _ _

/-- A field has statistics after some requests exactly if it had some before or is mentioned. -/
theorem Spec.isSome_find?_requestAll (entries : List (String × StatSet)) :
    ((spec.requestAll entries).stats.find? field).isSome = true ↔
      (spec.stats.find? field).isSome = true ∨ ∃ set, (field, set) ∈ entries := by
  induction entries generalizing spec with
  | nil => simp [requestAll]
  | cons entry entries ih =>
    obtain ⟨name, set⟩ := entry
    have hstep := ih (spec.requestStats name set)
    rw [find?_requestStats] at hstep
    rw [requestAll, List.foldl_cons, ← requestAll, hstep]
    by_cases hname : field = name <;> simp [hname]

/-- A statistic is requested for a field after some requests exactly if it was before or one of
them requests it. -/
theorem Spec.contains_requestAll (entries : List (String × StatSet)) (stat : Stat) :
    (((spec.requestAll entries).stats.find? field).getD .empty).contains stat = true ↔
      ((spec.stats.find? field).getD .empty).contains stat = true ∨
        ∃ set, (field, set) ∈ entries ∧ set.contains stat = true := by
  induction entries generalizing spec with
  | nil => simp [requestAll]
  | cons entry entries ih =>
    obtain ⟨name, set⟩ := entry
    have hstep := ih (spec.requestStats name set)
    rw [find?_requestStats] at hstep
    rw [requestAll, List.foldl_cons, ← requestAll, hstep]
    by_cases hname : field = name
    · simp [hname, or_assoc, or_and_right, exists_or]
    · simp [hname]

/-- Statistics arguments mention a field. -/
def Spec.Mentions (stats : List String) (field : String) : Prop :=
  ∃ argument ∈ stats, ∃ names, statParts? argument = some (field, names)

/-- Statistics arguments request a statistic for a field. -/
def Spec.Requests (stats : List String) (field : String) (stat : Stat) : Prop :=
  ∃ argument ∈ stats, ∃ names, statParts? argument = some (field, names) ∧
    ∃ name ∈ names, stat.SpelledBy name

variable {stats : List String} {entries : List (String × StatSet)}
  (hstats : stats.mapM Spec.readStatArgument = .ok entries)
include hstats

/-- What is read from an argument comes from its field and its names. -/
theorem Spec.exists_argument_of_mem {set : StatSet} (h : (field, set) ∈ entries) :
    ∃ argument ∈ stats, ∃ names, statParts? argument = some (field, names) ∧ field ≠ "" ∧
      set.NamedBy names := by
  obtain ⟨argument, hargument, hread⟩ :=
    exists_mem_of_forall₂ (mapM_eq_ok_iff.mp hstats).flip (field, set) h
  exact ⟨argument, hargument, readStatArgument_eq_ok_iff.mp hread⟩

/-- From an argument that is accepted its names are read. -/
theorem Spec.exists_mem_of_argument {argument : String} (hargument : argument ∈ stats)
    {names : List String} (hparts : statParts? argument = some (field, names)) :
    ∃ set, (field, set) ∈ entries ∧ set.NamedBy names := by
  obtain ⟨⟨name, set⟩, hentry, hread⟩ :=
    exists_mem_of_forall₂ (mapM_eq_ok_iff.mp hstats) argument hargument
  obtain ⟨others, hothers, -, hnamed⟩ := readStatArgument_eq_ok_iff.mp hread
  rw [hparts, Option.some.injEq, Prod.mk.injEq] at hothers
  obtain ⟨rfl, rfl⟩ := hothers
  exact ⟨set, hentry, hnamed⟩

/-- The fields with statistics are those that arguments mention. -/
theorem Spec.mentions_iff : Mentions stats field ↔ ∃ set, (field, set) ∈ entries := by
  constructor
  · rintro ⟨argument, hargument, names, hparts⟩
    obtain ⟨set, hentry, -⟩ := exists_mem_of_argument field hstats hargument hparts
    exact ⟨set, hentry⟩
  · rintro ⟨set, hentry⟩
    obtain ⟨argument, hargument, names, hparts, -⟩ := exists_argument_of_mem field hstats hentry
    exact ⟨argument, hargument, names, hparts⟩

/-- The statistics of a field are those that arguments request. -/
theorem Spec.requests_iff (stat : Stat) :
    Requests stats field stat ↔ ∃ set, (field, set) ∈ entries ∧ set.contains stat = true := by
  constructor
  · rintro ⟨argument, hargument, names, hparts, name, hname, hspelled⟩
    obtain ⟨set, hentry, hnamed⟩ := exists_mem_of_argument field hstats hargument hparts
    exact ⟨set, hentry, (hnamed.contains_iff stat).mpr ⟨name, hname, hspelled⟩⟩
  · rintro ⟨set, hentry, hstat⟩
    obtain ⟨argument, hargument, names, hparts, -, hnamed⟩ :=
      exists_argument_of_mem field hstats hentry
    exact ⟨argument, hargument, names, hparts, hnamed.named stat hstat⟩

end Requests

section Inline

/-- The spec of clauses and of what is read from statistics arguments. -/
def Spec.inline (clauses : List Clause) (entries : List (String × StatSet)) (total : Bool) : Spec :=
  Spec.requestAll { groupBy := if clauses.isEmpty then none else some clauses, total } entries

variable {groupBy stats : List String} {clauses : List Clause} {entries : List (String × StatSet)}
  (total : Bool)

/-- Statistics are kept for the mentioned fields, and those that are requested. -/
theorem Spec.stats_inline (hstats : stats.mapM readStatArgument = .ok entries) (field : String) :
    (((inline clauses entries total).stats.find? field).isSome = true ↔ Mentions stats field) ∧
      ∀ stat,
        (((inline clauses entries total).stats.find? field).getD .empty).contains stat = true ↔
          Requests stats field stat := by
  have hnone : ∀ stat, StatSet.empty.contains stat = false := fun stat => by cases stat <;> rfl
  constructor
  · rw [inline, isSome_find?_requestAll, mentions_iff field hstats]
    simp
  · intro stat
    rw [inline, contains_requestAll, requests_iff field hstats]
    simp [hnone]

/-- Specs with the same grouping and the same total are the same if the same statistics are kept and
requested for every field. -/
theorem Spec.ext_stats {a b : Spec} (hgroupBy : a.groupBy = b.groupBy) (htotal : a.total = b.total)
    (hkept : ∀ field, (a.stats.find? field).isSome = true ↔ (b.stats.find? field).isSome = true)
    (hrequested : ∀ field stat, ((a.stats.find? field).getD .empty).contains stat = true ↔
      ((b.stats.find? field).getD .empty).contains stat = true) : a = b := by
  have hstats : a.stats = b.stats := by
    apply SortedMap.ext_find?
    intro field
    have hkept := hkept field
    have hrequested := hrequested field
    cases ha : a.stats.find? field with
    | none =>
      cases hb : b.stats.find? field with
      | none => rfl
      | some set => simp [ha, hb] at hkept
    | some set =>
      cases hb : b.stats.find? field with
      | none => simp [ha, hb] at hkept
      | some other =>
        rw [ha, hb, Option.getD_some, Option.getD_some] at hrequested
        exact congrArg some (StatSet.ext_contains fun stat => Bool.eq_iff_iff.mpr (hrequested stat))
  cases a
  cases b
  simp_all

/-- The same statistics arguments in another order, or with repeats, give the same spec. -/
theorem Spec.inline_eq_of_mem {others : List String} {more : List (String × StatSet)}
    (hothers : others.mapM readStatArgument = .ok more)
    (hstats : stats.mapM readStatArgument = .ok entries)
    (hmem : ∀ argument, argument ∈ others ↔ argument ∈ stats) :
    inline clauses more total = inline clauses entries total := by
  have hsections := requestAll_sections
    { groupBy := if clauses.isEmpty then none else some clauses, total }
  refine ext_stats ((hsections more).1.trans (hsections entries).1.symm)
    ((hsections more).2.trans (hsections entries).2.symm) (fun field => ?_) fun field stat => ?_
  · rw [(stats_inline total hothers field).1, (stats_inline total hstats field).1]
    simp only [Mentions, hmem]
  · rw [(stats_inline total hothers field).2, (stats_inline total hstats field).2]
    simp only [Requests, hmem]

/-- Accepted clauses are consistent. -/
theorem Spec.consistent_of_readGroupArgument
    (hgroup : groupBy.mapM readGroupArgument = .ok clauses) :
    ∀ clause ∈ clauses, clause.Consistent := by
  intro clause hclause
  obtain ⟨argument, -, hread⟩ :=
    exists_mem_of_forall₂ (mapM_eq_ok_iff.mp hgroup).flip clause hclause
  exact Clause.fault?_iff.1.mp (readGroupArgument_eq_ok_iff.mp hread).2

/-- The spec of accepted arguments is consistent. -/
theorem Spec.consistent_inline (hgroup : groupBy.mapM readGroupArgument = .ok clauses)
    (hstats : stats.mapM readStatArgument = .ok entries) :
    (inline clauses entries total).Consistent := by
  have hsections := (requestAll_sections
    { groupBy := if clauses.isEmpty then none else some clauses, total } entries).1
  rw [← inline] at hsections
  constructor
  · rw [SortedMap.mem_keys_iff, (stats_inline total hstats "").1, mentions_iff "" hstats]
    rintro ⟨set, hentry⟩
    obtain ⟨_, _, _, _, hne, _⟩ := exists_argument_of_mem "" hstats hentry
    exact hne rfl
  · rw [hsections]
    cases clauses <;> simp
  · intro others hothers
    rw [hsections] at hothers
    split at hothers
    · cases hothers
    · cases hothers
      exact consistent_of_readGroupArgument hgroup

/-- Accepted arguments give the spec of what is read from them. -/
theorem Spec.ofArguments_eq_inline (hgroup : groupBy.mapM readGroupArgument = .ok clauses)
    (hstats : stats.mapM readStatArgument = .ok entries) :
    ofArguments groupBy stats total = .ok (inline clauses entries total) := by
  have hvalid : (inline clauses entries total).validate = .ok () :=
    refuse_eq_ok_iff.mpr (Spec.fault?_iff.1.mpr (consistent_inline total hgroup hstats))
  have hempty : groupBy.isEmpty = clauses.isEmpty := by
    cases mapM_eq_ok_iff.mp hgroup <;> rfl
  rw [ofArguments, hgroup, hstats, hempty]
  change (do (inline clauses entries total).validate; return inline clauses entries total) = _
  rw [hvalid]
  rfl

end Inline

section Objects

/-- The fields that statistics arguments mention, in the order of the arguments. -/
def Spec.mentioned (stats : List String) : List String :=
  stats.filterMap fun argument => (statParts? argument).map Prod.fst

/-- The names that statistics arguments give for a field, in the order of the arguments. -/
def Spec.namesFor (stats : List String) (field : String) : List String :=
  (stats.filterMap statParts?).flatMap fun (name, names) => if name = field then names else []

/-- The names of every mentioned field. -/
def Spec.namesOfFields (stats : List String) : SortedMap (List String) :=
  .ofList ((mentioned stats).map fun field => (field, namesFor stats field))

/-- The object of a list of clauses, the statistics of every mentioned field and the total. -/
def Spec.argumentsValue (items : List Value) (stats : List String) (total : Bool) : Value :=
  .object ((if items.isEmpty then [] else [("groupBy", .array items)]) ++ [
    ("stats", .object ((namesOfFields stats).entries.map fun (field, names) =>
      (field, .array (names.map .string)))),
    ("total", .bool total)])

theorem Spec.mem_mentioned_iff {stats : List String} {field : String} :
    field ∈ mentioned stats ↔ Mentions stats field := by
  simp [mentioned, Mentions, List.mem_filterMap]

theorem Spec.mem_namesFor_iff {stats : List String} {field name : String} :
    name ∈ namesFor stats field ↔
      ∃ argument ∈ stats, ∃ names, statParts? argument = some (field, names) ∧ name ∈ names := by
  simp only [namesFor, List.mem_flatMap, List.mem_filterMap]
  constructor
  · rintro ⟨⟨other, names⟩, ⟨argument, hargument, hparts⟩, hname⟩
    dsimp only at hname
    split at hname
    · next heq =>
      rw [heq] at hparts
      exact ⟨argument, hargument, names, hparts, hname⟩
    · cases hname
  · rintro ⟨argument, hargument, names, hparts, hname⟩
    exact ⟨(field, names), ⟨argument, hargument, hparts⟩, by simpa using hname⟩

/-- Every mentioned field has the names that are given for it. -/
theorem Spec.find?_namesOfFields (stats : List String) (field : String) :
    (Mentions stats field → (namesOfFields stats).find? field = some (namesFor stats field)) ∧
      (¬Mentions stats field → (namesOfFields stats).find? field = none) := by
  rw [namesOfFields, SortedMap.find?, SortedMap.ofList, lookup_sortEntries, ← List.map_reverse]
  constructor
  · intro h
    exact List.lookup_graph _ (List.mem_reverse.mpr (mem_mentioned_iff.mpr h))
  · intro h
    rw [lookup_eq_none_iff_notMem, List.map_map]
    simpa [mem_mentioned_iff] using h

variable {groupBy stats : List String} {clauses : List Clause} {entries : List (String × StatSet)}

/-- The names that are given for a field are those of its statistics. -/
theorem Spec.namedBy_namesFor (hstats : stats.mapM readStatArgument = .ok entries) {field : String}
    {set : StatSet} (hset : ∀ stat, set.contains stat = true ↔ Requests stats field stat) :
    set.NamedBy (namesFor stats field) := by
  constructor
  · intro name hname
    obtain ⟨argument, hargument, names, hparts, hname⟩ := mem_namesFor_iff.mp hname
    obtain ⟨other, -, hnamed⟩ := exists_mem_of_argument field hstats hargument hparts
    obtain ⟨stat, -, hspelled⟩ := hnamed.known name hname
    exact ⟨stat, (hset stat).mpr ⟨argument, hargument, names, hparts, name, hname, hspelled⟩,
      hspelled⟩
  · intro stat hstat
    obtain ⟨argument, hargument, names, hparts, name, hname, hspelled⟩ := (hset stat).mp hstat
    exact ⟨name, mem_namesFor_iff.mpr ⟨argument, hargument, names, hparts, hname⟩, hspelled⟩

/-- The names of the fields spell the statistics that are requested for them. -/
theorem Spec.statsSpelledBy_namesOfFields (hstats : stats.mapM readStatArgument = .ok entries)
    (clauses : List Clause) (total : Bool) :
    StatsSpelledBy (inline clauses entries total).stats
      (some (.object ((namesOfFields stats).entries.map fun (field, names) =>
        (field, .array (names.map .string))))) := by
  refine .object ?_ fun field => ?_
  · rw [map_fst_map_entries (fun _ (names : List String) => Value.array (names.map .string))]
    exact (namesOfFields stats).nodup_keys
  · obtain ⟨hkept, hrequested⟩ := @stats_inline stats clauses entries total hstats field
    obtain ⟨hmentioned, hnot⟩ := find?_namesOfFields stats field
    rw [lookup_map_entries field (fun _ (names : List String) => Value.array (names.map .string)),
      ← SortedMap.find?]
    cases hset : (inline clauses entries total).stats.find? field with
    | none =>
      rw [hset] at hkept
      rw [hnot (mt hkept.mpr (by simp))]
      exact .none
    | some set =>
      rw [hset] at hkept hrequested
      rw [hmentioned (hkept.mp rfl)]
      exact .some (.listed (namedBy_namesFor hstats hrequested))

/-- The object of some arguments spells the spec of what is read from them. -/
theorem Spec.spelledBy_argumentsValue (hstats : stats.mapM readStatArgument = .ok entries)
    {items : List Value} (hitems : List.Forall₂ Clause.SpelledBy clauses items) (total : Bool) :
    (inline clauses entries total).SpelledBy (argumentsValue items stats total) := by
  obtain ⟨hgroup, htotal⟩ := requestAll_sections
    { groupBy := if clauses.isEmpty then none else some clauses, total } entries
  rw [← inline] at hgroup htotal
  have hspelled := statsSpelledBy_namesOfFields hstats clauses total
  rw [argumentsValue]
  cases hitems with
  | nil =>
    refine .object ⟨by simp, by simp [sectionNames]⟩ ?_ hspelled ?_
    · rw [hgroup]
      exact .missing
    · rw [htotal]
      exact .given total
  | cons hclause hrest =>
    refine .object ⟨by simp, by simp [sectionNames]⟩ ?_ hspelled ?_
    · rw [hgroup]
      exact .given (.list (.cons hclause hrest))
    · rw [htotal]
      exact .given total

end Objects

section Distribution

variable {groupBy stats : List String} {clauses : List Clause}

/-- The set of two lists of statistics is that of either. -/
theorem StatSet.ofList_append (stats others : List Stat) :
    ofList (stats ++ others) = (ofList stats).union (ofList others) := by
  apply ext_contains
  intro stat
  rw [contains_union, contains_ofList, contains_ofList, contains_ofList]
  simp

/-- Names of two lists stand for the statistics of either. -/
theorem Spec.statsOfNames_append (field : String) (names others : List String) :
    statsOfNames field (names ++ others) = do
      let first ← statsOfNames field names
      let second ← statsOfNames field others
      return first.union second := by
  rw [statsOfNames, statsOfNames, statsOfNames, List.mapM_append]
  cases names.mapM (statOfName field) with
  | error cause => rfl
  | ok stats =>
    cases others.mapM (statOfName field) with
    | error cause => rfl
    | ok more => exact congrArg Except.ok (StatSet.ofList_append stats more)

/-- A statistics argument is cut at its first equals sign. -/
theorem Spec.readStatArgument_equals {field : String} (hfield : '=' ∉ field.toList)
    (names : String) :
    readStatArgument (field ++ "=" ++ names) =
      if trimString field = "" then .error .emptyStatField
      else (statsOfNames (trimString field)
        ((pieces ',' names).filter fun name => trimString name ≠ "")).map
          fun set => (trimString field, set) := by
  have hcut : cutString? "=" (field ++ "=" ++ names) = some (field, names) := by
    have hcut := cutString?_equals hfield names.toList
    rw [String.ofList_toList, String.ofList_toList] at hcut
    rw [← hcut]
    congr 1
    apply String.toList_injective
    simp
  rw [readStatArgument, hcut]

/-- The names of an argument may be distributed over two. -/
theorem Spec.readStatArgument_comma {field : String} (hfield : '=' ∉ field.toList)
    (names others : String) :
    readStatArgument (field ++ "=" ++ names ++ "," ++ others) = do
      let first ← readStatArgument (field ++ "=" ++ names)
      let second ← readStatArgument (field ++ "=" ++ others)
      return (first.1, first.2.union second.2) := by
  have hpieces : pieces ',' (names ++ "," ++ others) = pieces ',' names ++ pieces ',' others :=
    pieces_append (by simp)
  have hassoc :
      field ++ "=" ++ names ++ "," ++ others = field ++ "=" ++ (names ++ "," ++ others) := by
    simp [String.append_assoc]
  rw [hassoc, readStatArgument_equals hfield, readStatArgument_equals hfield,
    readStatArgument_equals hfield, hpieces, List.filter_append, statsOfNames_append]
  split
  · rfl
  · generalize statsOfNames (trimString field)
      ((pieces ',' names).filter fun name => trimString name ≠ "") = first
    generalize statsOfNames (trimString field)
      ((pieces ',' others).filter fun name => trimString name ≠ "") = second
    cases first with
    | error cause => rfl
    | ok set => cases second <;> rfl

/-- Requesting the statistics of two sets is requesting those of one and then those of the other. -/
theorem Spec.requestStats_union (spec : Spec) (field : String) (set other : StatSet) :
    spec.requestStats field (set.union other)
      = (spec.requestStats field set).requestStats field other := by
  refine ext_stats rfl rfl (fun name => ?_) fun name stat => ?_
  · simp only [find?_requestStats]
    by_cases hname : name = field <;> simp [hname]
  · simp only [find?_requestStats]
    by_cases hname : name = field <;> simp [hname, or_assoc]

/-- The names of an argument are given for the field in front of its equals sign. -/
theorem Spec.fst_of_readStatArgument {field : String} (hfield : '=' ∉ field.toList)
    {names : String} {entry : String × StatSet}
    (h : readStatArgument (field ++ "=" ++ names) = .ok entry) : entry.1 = trimString field := by
  rw [readStatArgument_equals hfield] at h
  split at h
  · cases h
  · obtain ⟨set, -, rfl⟩ := map_eq_ok_iff.mp h
    rfl

/-- Arguments that come to the same requests give the same spec. -/
theorem Spec.ofArguments_congr {stats others : List String}
    (h : ∀ spec : Spec, (stats.mapM readStatArgument).map spec.requestAll
      = (others.mapM readStatArgument).map spec.requestAll) (groupBy : List String) (total : Bool) :
    ofArguments groupBy stats total = ofArguments groupBy others total := by
  have hbind : ∀ arguments, ofArguments groupBy arguments total = do
      let clauses ← groupBy.mapM readGroupArgument
      let empty : Spec := { groupBy := if groupBy.isEmpty then none else some clauses, total }
      let spec ← (arguments.mapM readStatArgument).map empty.requestAll
      spec.validate
      return spec := by
    intro arguments
    rw [ofArguments]
    congr 1
    funext clauses
    cases arguments.mapM readStatArgument <;> rfl
  simp only [hbind, h]

/-- The names of a field come to the same requests over two arguments as in one. -/
theorem Spec.map_requestAll_comma {field : String} (hfield : '=' ∉ field.toList)
    (before after : List String) (names others : String) (spec : Spec) :
    ((before ++ (field ++ "=" ++ names ++ "," ++ others) :: after).mapM readStatArgument).map
        spec.requestAll =
      ((before ++ (field ++ "=" ++ names) :: (field ++ "=" ++ others) :: after).mapM
        readStatArgument).map spec.requestAll := by
  have hfirst := fun entry => @fst_of_readStatArgument field hfield names entry
  have hsecond := fun entry => @fst_of_readStatArgument field hfield others entry
  rw [List.mapM_append, List.mapM_append, List.mapM_cons, List.mapM_cons, List.mapM_cons,
    readStatArgument_comma hfield]
  generalize readStatArgument (field ++ "=" ++ names) = first at hfirst ⊢
  generalize readStatArgument (field ++ "=" ++ others) = second at hsecond ⊢
  cases before.mapM readStatArgument with
  | error cause => rfl
  | ok entries =>
    cases first with
    | error cause => rfl
    | ok entry =>
      cases second with
      | error cause => rfl
      | ok other =>
        cases after.mapM readStatArgument with
        | error cause => rfl
        | ok rest =>
          have hname : other.1 = entry.1 := (hsecond other rfl).trans (hfirst entry rfl).symm
          have hspec : spec.requestAll (entries ++ (entry.1, entry.2.union other.2) :: rest)
              = spec.requestAll (entries ++ entry :: other :: rest) := by
            simp only [requestAll, List.foldl_append, List.foldl_cons, requestStats_union, hname]
          exact congrArg Except.ok hspec

/-- How the names of a field are distributed over arguments does not matter. -/
theorem Spec.ofArguments_comma {field : String} (hfield : '=' ∉ field.toList)
    (groupBy before after : List String) (names others : String) (total : Bool) :
    ofArguments groupBy (before ++ (field ++ "=" ++ names ++ "," ++ others) :: after) total =
      ofArguments groupBy
        (before ++ (field ++ "=" ++ names) :: (field ++ "=" ++ others) :: after) total :=
  ofArguments_congr (map_requestAll_comma hfield before after names others) groupBy total

end Distribution

/-- Accepted arguments give the spec that the object of their clauses, of the names given for every
field and of the total spells, whatever the order and the repeats of the statistics arguments and
however the names of a field are distributed over them. -/
theorem Spec.ofArguments_of_accepted {groupBy stats : List String} {clauses : List Clause}
    (hgroup : groupBy.mapM readGroupArgument = .ok clauses)
    (hstats : ∀ argument ∈ stats, ∃ entry, readStatArgument argument = .ok entry) (total : Bool) :
    ∃ spec, ofArguments groupBy stats total = .ok spec ∧
      List.Forall₂ Clause.SpelledBy clauses (clauses.map Clause.toValue) ∧
      (∀ items, List.Forall₂ Clause.SpelledBy clauses items →
        ofJsonValue (argumentsValue items stats total) = .ok spec) ∧
      (∀ others, (∀ argument, argument ∈ others ↔ argument ∈ stats) →
        ofArguments groupBy others total = .ok spec) ∧
      ∀ before after field names more, '=' ∉ String.toList field →
        stats = before ++ (field ++ "=" ++ names ++ "," ++ more) :: after →
        ofArguments groupBy (before ++ (field ++ "=" ++ names) :: (field ++ "=" ++ more) :: after)
          total = .ok spec := by
  obtain ⟨entries, hentries⟩ := exists_mapM_eq_ok_iff.mpr hstats
  have hconsistent := consistent_of_readGroupArgument hgroup
  have hspec := ofArguments_eq_inline total hgroup hentries
  refine ⟨_, hspec, ?_, ?_, ?_, ?_⟩
  · rw [List.forall₂_map_right_iff, List.forall₂_same]
    exact fun clause hclause => Clause.spelledBy_toValue (hconsistent clause hclause)
  · intro items hitems
    exact (spelledBy_argumentsValue hentries hitems total).ofJsonValue_eq
      (refuse_eq_ok_iff.mpr (Spec.fault?_iff.1.mpr (consistent_inline total hgroup hentries)))
  · intro others hothers
    have haccepted : ∀ argument ∈ others, ∃ entry, readStatArgument argument = .ok entry :=
      fun argument hargument => hstats argument ((hothers argument).mp hargument)
    obtain ⟨more, hmore⟩ := exists_mapM_eq_ok_iff.mpr haccepted
    rw [ofArguments_eq_inline total hgroup hmore, inline_eq_of_mem total hmore hentries hothers]
  · rintro before after field names more hfield rfl
    rw [← ofArguments_comma hfield, hspec]

/-- The clauses by kind and by decade. -/
def kindAndDecade : List Clause := [⟨"kind", .value⟩, ⟨"age", .interval (Binary64.ofInt 10) .zero⟩]

/-- The same spec is given by a list of arguments, by the object of the same clauses and names, and
by arguments with the names distributed otherwise. -/
theorem Spec.ofArguments_kindAndDecade :
    ["kind", "age:interval=10"].mapM readGroupArgument = .ok kindAndDecade ∧
      (∀ argument ∈ ["age= max ,count", "size=sum"],
        ∃ entry, readStatArgument argument = .ok entry) ∧
      ∃ spec,
        ofArguments ["kind", "age:interval=10"] ["age= max ,count", "size=sum"] true = .ok spec ∧
        ofJsonValue (argumentsValue (kindAndDecade.map Clause.toValue)
          ["age= max ,count", "size=sum"] true) = .ok spec ∧
        ofArguments ["kind", "age:interval=10"] ["size=sum", "age= max ,count"] true = .ok spec ∧
        ofArguments ["kind", "age:interval=10"] ["age= max ", "age=count", "size=sum"] true
          = .ok spec := by
  have hgroup : ["kind", "age:interval=10"].mapM readGroupArgument = .ok kindAndDecade := by
    decide +kernel
  have hstats : ∀ argument ∈ ["age= max ,count", "size=sum"],
      ∃ entry, readStatArgument argument = .ok entry := by
    rintro argument (_ | ⟨_, _ | ⟨_, ⟨⟩⟩⟩)
    · exact ⟨("age", StatSet.ofList [.max, .count]), by decide +kernel⟩
    · exact ⟨("size", StatSet.ofList [.sum]), by decide +kernel⟩
  obtain ⟨spec, hspec, hitems, hobject, horder, hcomma⟩ :=
    ofArguments_of_accepted hgroup hstats true
  refine ⟨hgroup, hstats, spec, hspec, hobject _ hitems, horder _ fun argument => ?_, ?_⟩
  · simp [or_comm]
  · exact hcomma [] ["size=sum"] "age" " max " "count" (by decide) (by decide)

end Rollup
