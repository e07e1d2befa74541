import Rollup.Proofs.Spec.Spelling
import Rollup.Proofs.Text.Marks
import Rollup.Proofs.Value.NormalForm
import Rollup.Spec.Json

/-!
# Reading the spellings of a spec

Reading a value gives the spec that it spells, whatever the spelling. The parts of the syntax
overlap: a list may be taken for one clause with its members in order or for a list of clauses. Of
spellings, though, only a list of one string is taken for a clause, and then it is the same clause.
-/

namespace Rollup

open Spec (Term WrittenClause)

section Names

/-- A text is the name of a statistic with or without blanks exactly if the name is what is left
without blanks. -/
theorem Stat.spelledBy_iff {stat : Stat} {text : String} :
    stat.SpelledBy text ↔ Text.trimString text = stat.name := by
  have hname : Text.trim stat.name.toList = stat.name.toList := by cases stat <;> decide
  rw [Text.trimString, ← String.toList_inj, String.toList_ofList]
  exact Text.padded_iff hname

/-- The statistic of a name is found exactly if the name spells it. -/
theorem Stat.ofName?_eq_some_iff {stat : Stat} {text : String} :
    ofName? (Text.trimString text) = some stat ↔ stat.SpelledBy text := by
  rw [spelledBy_iff, ofName?_eq_some, eq_comm]

theorem StatSet.contains_foldl_insert (stats : List Stat) (set : StatSet) (stat : Stat) :
    (stats.foldl insert set).contains stat = (decide (stat ∈ stats) || set.contains stat) := by
  induction stats generalizing set with
  | nil => simp
  | cons first rest ih =>
    rw [List.foldl_cons, ih, contains_insert]
    by_cases hstat : stat = first <;> simp [hstat]

/-- The set of listed statistics contains exactly these. -/
theorem StatSet.contains_ofList (stats : List Stat) (stat : Stat) :
    (ofList stats).contains stat = decide (stat ∈ stats) := by
  have hempty : empty.contains stat = false := by cases stat <;> rfl
  rw [ofList, contains_foldl_insert, hempty, Bool.or_false]

/-- A name is that of one statistic only. -/
theorem Stat.SpelledBy.unique {stat other : Stat} {text : String} (h : stat.SpelledBy text)
    (hother : other.SpelledBy text) : stat = other :=
  Option.some.inj ((ofName?_eq_some_iff.mpr h).symm.trans (ofName?_eq_some_iff.mpr hother))

/-- A set contains the statistics of its names. -/
theorem StatSet.NamedBy.contains_iff {set : StatSet} {names : List String} (h : set.NamedBy names)
    (stat : Stat) : set.contains stat = true ↔ ∃ name ∈ names, stat.SpelledBy name := by
  refine ⟨h.named stat, ?_⟩
  rintro ⟨name, hname, hspelled⟩
  obtain ⟨other, hother, hotherSpelled⟩ := h.known name hname
  exact hspelled.unique hotherSpelled ▸ hother

/-- Names are those of one set only. -/
theorem StatSet.NamedBy.unique {set other : StatSet} {names : List String} (h : set.NamedBy names)
    (hother : other.NamedBy names) : set = other :=
  ext_contains fun stat =>
    Bool.eq_iff_iff.mpr ((h.contains_iff stat).trans (hother.contains_iff stat).symm)

/-- The names of listed statistics are those of their set. -/
theorem StatSet.namedBy_ofList {names : List String} {stats : List Stat}
    (h : List.Forall₂ (fun name stat => Stat.SpelledBy stat name) names stats) :
    (ofList stats).NamedBy names := by
  constructor
  · intro name hname
    obtain ⟨stat, hstat, hspelled⟩ := exists_mem_of_forall₂ h name hname
    exact ⟨stat, by rwa [contains_ofList, decide_eq_true_eq], hspelled⟩
  · intro stat hstat
    rw [contains_ofList, decide_eq_true_eq] at hstat
    exact exists_mem_of_forall₂ h.flip stat hstat

/-- A name stands for a statistic exactly if it spells it. -/
theorem Spec.statOfName_eq_ok_iff {field name : String} {stat : Stat} :
    statOfName field name = .ok stat ↔ stat.SpelledBy name := by
  rw [← Stat.ofName?_eq_some_iff, statOfName]
  split
  · next other hfound => rw [hfound, Except.ok.injEq, Option.some.injEq]
  · next hnone => simp [hnone]

/-- Names stand for a set exactly if they are those of its members. -/
theorem Spec.statsOfNames_eq_ok_iff {field : String} {names : List String} {set : StatSet} :
    statsOfNames field names = .ok set ↔ set.NamedBy names := by
  have hlist : ∀ stats, names.mapM (statOfName field) = .ok stats →
      (StatSet.ofList stats).NamedBy names := by
    intro stats hstats
    simp only [mapM_eq_ok_iff, statOfName_eq_ok_iff] at hstats
    exact StatSet.namedBy_ofList hstats
  rw [statsOfNames, map_eq_ok_iff]
  constructor
  · rintro ⟨stats, hstats, rfl⟩
    exact hlist stats hstats
  · intro h
    have hread : ∀ name ∈ names, ∃ stat, statOfName field name = .ok stat := by
      intro name hname
      obtain ⟨stat, -, hspelled⟩ := h.known name hname
      exact ⟨stat, statOfName_eq_ok_iff.mpr hspelled⟩
    obtain ⟨stats, hstats⟩ := exists_mapM_eq_ok_iff.mpr hread
    exact ⟨stats, hstats, (hlist stats hstats).unique h⟩

theorem mem_raisedNames {flags : List (String × Bool)} {name : String} :
    name ∈ raisedNames flags ↔ (name, true) ∈ flags := by
  rw [raisedNames, List.mem_filterMap]
  constructor
  · rintro ⟨⟨other, flag⟩, hflag, hname⟩
    cases flag with
    | true =>
      cases hname
      exact hflag
    | false => cases hname
  · intro hflag
    exact ⟨_, hflag, rfl⟩

/-- Members are read as flags exactly if these are their names and values. -/
theorem mapM_readFlag?_eq_some_iff {members : List (String × Value)}
    {flags : List (String × Bool)} :
    (Term.ofMembers members).mapM Spec.readFlag? = some flags ↔
      members = flags.map fun (name, flag) => (name, .bool flag) := by
  rw [Term.ofMembers_eq_map, List.mapM_map]
  refine mapM_eq_some_iff_eq_map ?_
  rintro ⟨name, value⟩ ⟨other, flag⟩
  cases value <;> simp [Spec.readFlag?, Term.ofValue]

/-- Items are read as texts exactly if they are these texts. -/
theorem mapM_toText?_eq_some_iff {items : List Value} {texts : List String} :
    (Term.ofItems items).mapM Term.toText? = some texts ↔ items = texts.map .string := by
  rw [Term.ofItems_eq_map, List.mapM_map]
  refine mapM_eq_some_iff_eq_map ?_
  rintro value text
  cases value <;> simp [Term.toText?, Term.ofValue]

/-- The names that are read from a spelling of a set name it. -/
theorem StatSet.SpelledBy.readStatNames? {set : StatSet} {value : Value} (h : set.SpelledBy value) :
    ∃ names, Spec.readStatNames? (.ofValue value) = some names ∧ set.NamedBy names := by
  cases h with
  | @flagged flags hnodup h =>
    refine ⟨raisedNames (sortEntries flags), ?_, ?_⟩
    · rw [Term.ofValue, Spec.readStatNames?, mapM_readFlag?_eq_some_iff.mpr rfl]
      rfl
    · have hmem : ∀ name, name ∈ raisedNames (sortEntries flags) ↔ name ∈ raisedNames flags := by
        intro name
        rw [mem_raisedNames, mem_raisedNames, mem_sortEntries_iff hnodup]
      constructor
      · exact fun name hname => h.known name ((hmem name).mp hname)
      · intro stat hstat
        obtain ⟨name, hname, hspelled⟩ := h.named stat hstat
        exact ⟨name, (hmem name).mpr hname, hspelled⟩
  | @listed names h =>
    refine ⟨names, ?_, h⟩
    rw [Term.ofValue, Spec.readStatNames?]
    exact mapM_toText?_eq_some_iff.mpr rfl
  | single h => exact ⟨_, rfl, h⟩

end Names

section Optional

variable {α : Type}

/-- What is given and not null is read. -/
theorem optional?_ofValue {read : Term → Option α} {value : Value} (h : value ≠ .null) :
    Spec.optional? read (some (.ofValue value)) = (read (.ofValue value)).map some := by
  cases value with
  | null => exact absurd rfl h
  | _ => rfl

/-- Where the spellings of something are read, that may be missing is read as well. -/
theorem OptionalSpelledBy.optional?_eq {spelled : α → Value → Prop} {read : Term → Option α}
    {a : Option α} {slot : Option Value} (h : OptionalSpelledBy spelled a slot)
    (hread : ∀ x ∈ a, ∀ value, spelled x value → value ≠ .null ∧ read (.ofValue value) = some x) :
    Spec.optional? read (slot.map .ofValue) = some a := by
  cases h with
  | missing => rfl
  | null => rfl
  | @given x value h =>
    obtain ⟨hnull, hvalue⟩ := hread x rfl value h
    rw [Option.map_some, optional?_ofValue hnull, hvalue, Option.map_some]

end Optional

section Clauses

mutual

/-- As part of a document a term of JSON denotes the normal form of its value. -/
theorem Spec.Term.toValue?_ofValue :
    ∀ value : Value, (ofValue value).toValue? = some value.normalize
  | .null => rfl
  | .bool _ => rfl
  | .number _ => rfl
  | .string _ => rfl
  | .array items => by
    rw [ofValue, toValue?, toItems?_ofItems items, Value.normalize]
    rfl
  | .object members => by
    rw [ofValue, toValue?, toMembers?_ofMembers members, Value.normalize]
    rfl

theorem Spec.Term.toItems?_ofItems :
    ∀ items : List Value, toItems? (ofItems items) = some (Value.normalizeItems items)
  | [] => rfl
  | item :: items => by
    rw [ofItems, toItems?, toValue?_ofValue item, toItems?_ofItems items, Value.normalizeItems]
    rfl

theorem Spec.Term.toMembers?_ofMembers : ∀ members : List (String × Value),
    toMembers? (ofMembers members) = some (Value.normalizeMembers members)
  | [] => rfl
  | (key, value) :: members => by
    rw [ofMembers, toMembers?, toValue?_ofValue value, toMembers?_ofMembers members,
      Value.normalizeMembers]
    rfl

end

/-- The bounds of all ranges of a clause are scalars. -/
def Clause.HasScalarBounds (clause : Clause) : Prop :=
  ∀ ranges ∈ clause.bucketing.ranges?, ∀ range ∈ ranges, ∀ bound ∈ range.bounds,
    bound.isScalar = true

/-- The bounds of a consistent clause are scalars. -/
theorem Clause.Consistent.hasScalarBounds {clause : Clause} (h : clause.Consistent) :
    clause.HasScalarBounds := by
  obtain ⟨field, bucketing⟩ := clause
  intro ranges hranges range hrange
  cases bucketing with
  | ranges list =>
    cases hranges
    exact ((Bucketing.consistent_ranges_iff.mp h.bucketing).2 range hrange).isScalar
  | _ => cases hranges

/-- A range with scalar bounds is read from its spellings. -/
theorem Range.SpelledBy.readRange?_eq {range : Range} {value : Value} (h : range.SpelledBy value)
    (hscalar : ∀ bound ∈ range.bounds, bound.isScalar = true) :
    Spec.readRange? (.ofValue value) = some range := by
  obtain ⟨hkeys, hstart, hstop⟩ := h
  have hbound : ∀ bound ∈ range.bounds, ∀ value, bound = value →
      value ≠ .null ∧ (Term.ofValue value).toValue? = some bound := by
    rintro bound hmem _ rfl
    rw [Term.toValue?_ofValue, Value.normalize_of_isScalar (hscalar bound hmem)]
    refine ⟨?_, rfl⟩
    rintro rfl
    cases hscalar _ hmem
  have hslots := (Term.slots?_object_eq_some_iff (by decide)).mpr ⟨hkeys, rfl⟩
  have hreadStart := hstart.optional?_eq fun bound hmem =>
    hbound bound (List.mem_append_left _ (Option.mem_toList.mpr hmem))
  have hreadStop := hstop.optional?_eq fun bound hmem =>
    hbound bound (List.mem_append_right _ (Option.mem_toList.mpr hmem))
  rw [Spec.readRange?, hslots]
  simp only [List.map_cons, List.map_nil, Option.bind_eq_bind, Option.bind_some, hreadStart,
    hreadStop]
  rfl

/-- Ranges with scalar bounds are read from their spellings. -/
theorem RangesSpelledBy.readRanges?_eq {ranges : List Range} {value : Value}
    (h : RangesSpelledBy ranges value)
    (hscalar : ∀ range ∈ ranges, ∀ bound ∈ range.bounds, bound.isScalar = true) :
    Spec.readRanges? (.ofValue value) = some ranges := by
  obtain ⟨items, rfl, hitems⟩ := h
  have hread : ∀ range ∈ ranges, ∀ item, range.SpelledBy item →
      Spec.readRange? (.ofValue item) = some range :=
    fun range hrange item hitem => hitem.readRange?_eq (hscalar range hrange)
  have hitems : (Term.ofItems items).mapM Spec.readRange? = some ranges := by
    rw [Term.ofItems_eq_map, mapM_eq_some_iff, List.forall₂_map_left_iff]
    have hmem := (List.forall₂_and_left _ _).mpr ⟨fun _ hrange => hrange, hitems⟩
    exact (hmem.imp fun range item h => hread range h.1 item h.2).flip
  exact hitems

/-- A number is read from its spellings. -/
theorem Binary64.SpelledBy.toBinary64?_eq {x : Binary64} {value : Value} (h : x.SpelledBy value) :
    value ≠ .null ∧ (Term.ofValue value).toBinary64? = some x := by
  obtain ⟨n, rfl, rfl⟩ := h
  exact ⟨by simp, rfl⟩

/-- The clause as it is written with a certain base. -/
def Clause.writtenWith (clause : Clause) (base : Option Binary64) : WrittenClause where
  field := clause.field
  ranges := clause.bucketing.ranges?
  interval := clause.bucketing.width?
  base := base
  timeComponent := clause.bucketing.component?

/-- What is written of a clause says the clause. -/
theorem Clause.toClause_writtenWith {clause : Clause} {base : Option Binary64}
    (h : clause.bucketing.HasBase base) : (clause.writtenWith base).toClause = .ok clause := by
  obtain ⟨field, bucketing⟩ := clause
  cases bucketing with
  | interval width zero =>
    cases h
    cases base <;> rfl
  | _ =>
    cases h
    rfl

/-- A clause with scalar bounds is read from its spellings. -/
theorem Clause.SpelledBy.readGroupItem? {clause : Clause} {value : Value}
    (h : clause.SpelledBy value) (hscalar : clause.HasScalarBounds) :
    ∃ written, Spec.readGroupItem? (.ofValue value) = some written ∧
      written.toClause = .ok clause := by
  cases h with
  | field h =>
    obtain ⟨field, bucketing⟩ := clause
    cases h
    exact ⟨_, rfl, rfl⟩
  | @object members base hkeys hfield hranges hwidth hbase hwritten hcomponent =>
    have hnames : clauseNames.Nodup := by decide
    have hslots := (Term.slots?_object_eq_some_iff hnames).mpr ⟨hkeys, rfl⟩
    have hreadRanges : Spec.optional? Spec.readRanges? ((members.lookup "ranges").map .ofValue) =
        some clause.bucketing.ranges? := by
      refine hranges.optional?_eq fun ranges hmem value h => ⟨?_, ?_⟩
      · obtain ⟨items, rfl, -⟩ := h
        simp
      · exact h.readRanges?_eq (hscalar ranges hmem)
    have hreadWidth := hwidth.optional?_eq fun _ _ _ h => h.toBinary64?_eq
    have hreadBase := hbase.optional?_eq fun _ _ _ h => h.toBinary64?_eq
    have hreadComponent : Spec.optional? Term.toText?
        ((members.lookup "timeComponent").map .ofValue) = some clause.bucketing.component? := by
      refine hcomponent.optional?_eq ?_
      rintro text - _ rfl
      exact ⟨by simp, rfl⟩
    have hclause :
        Spec.readClause? (.ofValue (.object members)) = some (clause.writtenWith base) := by
      rw [clauseNames] at hslots
      rw [Spec.readClause?, hslots]
      simp only [List.map_cons, List.map_nil, Option.bind_eq_bind, Option.bind_some, hfield,
        Option.map_some, hreadRanges, hreadWidth, hreadBase, hreadComponent]
      rfl
    exact ⟨_, hclause, Clause.toClause_writtenWith hwritten⟩

end Clauses

section Grouping

/-- A clause is read from slots, the first of which holds the path of its field and the second its
ranges. -/
theorem exists_slots_of_readClause? {term : Term} {written : WrittenClause}
    (h : Spec.readClause? term = some written) :
    ∃ field ranges rest, term.slots? clauseNames = some (some field :: ranges :: rest) ∧
      field.toText? = some written.field ∧
      Spec.optional? Spec.readRanges? ranges = some written.ranges := by
  rw [Spec.readClause?, Option.bind_eq_bind, Option.bind_eq_some_iff] at h
  obtain ⟨slots, hslots, h⟩ := h
  split at h
  · next field ranges interval base component =>
    obtain ⟨text, htext, h⟩ := Option.bind_eq_some_iff.mp h
    obtain ⟨list, hlist, h⟩ := Option.bind_eq_some_iff.mp h
    obtain ⟨_, _, h⟩ := Option.bind_eq_some_iff.mp h
    obtain ⟨_, _, h⟩ := Option.bind_eq_some_iff.mp h
    obtain ⟨_, _, h⟩ := Option.bind_eq_some_iff.mp h
    cases h
    exact ⟨field, ranges, _, hslots, htext, hlist⟩
  · cases h

/-- A list of strings and objects is a clause in itself only if it is one string, and then it is the
clause that this string is. -/
theorem readGroupItem?_array {items : List Value} (hitems : ∀ item ∈ items, item.StringOrObject)
    {written : WrittenClause}
    (hread : Spec.readGroupItem? (.ofValue (.array items)) = some written) :
    ∃ text, items = [.string text] ∧ written = { field := text } := by
  match items with
  | [] => cases hread
  | [item] =>
    rcases hitems item List.mem_cons_self with ⟨text, rfl⟩ | ⟨members, rfl⟩
    · cases hread
      exact ⟨text, rfl, rfl⟩
    · cases hread
  | first :: second :: rest =>
    -- The second item would be the ranges of a clause, but it is neither a list nor null.
    have hsecond : Spec.optional? Spec.readRanges? (some (.ofValue second)) = none := by
      rcases hitems second (by simp) with ⟨text, rfl⟩ | ⟨members, rfl⟩ <;> rfl
    obtain ⟨field, ranges, more, hslots, -, hranges⟩ := exists_slots_of_readClause? hread
    rw [Term.ofValue, Term.slots?] at hslots
    split at hslots
    · obtain ⟨-, hslot, -⟩ : _ ∧ some (Term.ofValue second) = ranges ∧ _ := by
        simpa only [Term.ofItems, List.map_cons, List.cons_append, Option.some.injEq,
          List.cons.injEq] using hslots
      rw [← hslot, hsecond] at hranges
      cases hranges
    · cases hslots

/-- Clauses with scalar bounds are read one by one from their spellings. -/
theorem exists_mapM_readGroupItem? {clauses : List Clause} {items : List Value}
    (h : List.Forall₂ Clause.SpelledBy clauses items)
    (hscalar : ∀ clause ∈ clauses, clause.HasScalarBounds) :
    ∃ written, (Term.ofItems items).mapM Spec.readGroupItem? = some written ∧
      written.mapM WrittenClause.toClause = .ok clauses := by
  simp only [mapM_eq_some_iff, mapM_eq_ok_iff]
  induction h with
  | nil => exact ⟨[], .nil, .nil⟩
  | @cons clause item clauses items hclause _ ih =>
    obtain ⟨hbounds, hscalar⟩ := List.forall_mem_cons.mp hscalar
    obtain ⟨first, hread, hfirst⟩ := hclause.readGroupItem? hbounds
    obtain ⟨rest, hreads, hrest⟩ := ih hscalar
    exact ⟨first :: rest, .cons hread hreads, .cons hfirst hrest⟩

/-- A grouping with scalar bounds is read from its spellings, whether a list of its clauses is taken
for one clause or not. -/
theorem ClausesSpelledBy.readGroupBy? {clauses : List Clause} {value : Value}
    (h : ClausesSpelledBy clauses value)
    (hscalar : ∀ clause ∈ clauses, clause.HasScalarBounds) :
    ∃ written, Spec.readGroupBy? (.ofValue value) = some written ∧
      written.mapM WrittenClause.toClause = .ok clauses := by
  cases h with
  | @bare clause value h =>
    obtain ⟨written, hread, hclause⟩ := h.readGroupItem? (hscalar clause List.mem_cons_self)
    refine ⟨[written], ?_, mapM_eq_ok_iff.mpr (.cons hclause .nil)⟩
    rw [Spec.readGroupBy?, hread]
  | @list clauses items h =>
    cases hitem : Spec.readGroupItem? (.ofValue (.array items)) with
    | some written =>
      have hitems := forall_mem_of_forall₂ (h.imp fun _ _ hclause => hclause.stringOrObject)
      obtain ⟨text, rfl, rfl⟩ := readGroupItem?_array hitems hitem
      obtain ⟨clause, rest, hclause, hrest, rfl⟩ := List.forall₂_cons_right_iff.mp h
      cases hrest
      obtain ⟨written, hread, hwritten⟩ :=
        hclause.readGroupItem? (hscalar clause List.mem_cons_self)
      cases hread
      refine ⟨[{ field := text }], ?_, mapM_eq_ok_iff.mpr (.cons hwritten .nil)⟩
      rw [Spec.readGroupBy?, hitem]
    | none =>
      obtain ⟨written, hread, hwritten⟩ := exists_mapM_readGroupItem? h hscalar
      refine ⟨written, ?_, hwritten⟩
      rw [Spec.readGroupBy?, hitem]
      exact hread

/-- The grouping of a spec is read from its spellings if it has scalar bounds. -/
theorem Spec.exists_readGroupBy? {groupBy : Option (List Clause)} {slot : Option Value}
    (h : OptionalSpelledBy ClausesSpelledBy groupBy slot)
    (hscalar : ∀ clauses ∈ groupBy, ∀ clause ∈ clauses, clause.HasScalarBounds) :
    ∃ written, optional? readGroupBy? (slot.map .ofValue) = some written ∧
      (written.mapM fun clauses => clauses.mapM WrittenClause.toClause) = .ok groupBy := by
  cases h with
  | missing => exact ⟨none, rfl, rfl⟩
  | null => exact ⟨none, rfl, rfl⟩
  | @given clauses value h =>
    obtain ⟨written, hread, hwritten⟩ := h.readGroupBy? (hscalar clauses rfl)
    refine ⟨some written, ?_, ?_⟩
    · rw [Option.map_some, optional?_ofValue h.ne_null, hread, Option.map_some]
    · rw [Option.mapM_some, hwritten]
      rfl

end Grouping

section Sections

/-- Statistics are read exactly if every field has the set that its names stand for. -/
theorem readStats_eq_ok_iff {names : SortedMap (List String)} {stats : SortedMap StatSet} :
    Spec.readStats names = .ok stats ↔
      ∀ field, Option.Rel (fun list set => Spec.statsOfNames field list = .ok set)
        (names.find? field) (stats.find? field) := by
  rw [Spec.readStats, bind_eq_ok_iff]
  constructor
  · rintro ⟨sets, hsets, hstats⟩
    cases hstats
    have hentries := mapM_values_eq_ok_iff.mp hsets
    have hkeys : (sets.map Prod.fst).Nodup := map_fst_eq_of_forall₂ hentries ▸ names.nodup_keys
    simp only [SortedMap.find?_ofList hkeys]
    exact rel_lookup_of_forall₂ hentries
  · intro h
    have hentries := names.sorted.forall₂_of_rel_lookup stats.sorted h
    refine ⟨stats.entries, mapM_values_eq_ok_iff.mpr hentries, ?_⟩
    rw [stats.ofList_entries]
    rfl

/-- An object has the terms of its values as statistics of its keys. -/
theorem statsMembers?_ofValue (fields : List (String × Value)) :
    Spec.statsMembers? (some (.ofValue (.object fields))) =
      some (fields.map fun (field, value) => (field, .ofValue value)) := by
  rw [Term.ofValue, Spec.statsMembers?, Term.ofMembers_eq_map]
  exact mapM_map_eq_some fun _ _ => rfl

/-- The terms of an object have its keys and are those of its values. -/
theorem lookup_of_statsMembers? {fields : List (String × Value)} {terms : List (String × Term)}
    (h : Spec.statsMembers? (some (.ofValue (.object fields))) = some terms) :
    terms.map Prod.fst = fields.map Prod.fst ∧
      ∀ field, terms.lookup field = (fields.lookup field).map .ofValue := by
  rw [statsMembers?_ofValue] at h
  cases h
  exact ⟨map_fst_map_entries (fun _ => Term.ofValue) fields,
    fun field => lookup_map_entries field (fun _ => Term.ofValue) fields⟩

/-- The names that are read for fields are found under these fields. -/
theorem rel_find?_of_readStatNames? {terms : List (String × Term)}
    {entries : List (String × List String)} (hnodup : (terms.map Prod.fst).Nodup)
    (h : terms.mapM (fun (field, term) =>
      (Spec.readStatNames? term).map fun names => (field, names)) = some entries) (field : String) :
    Option.Rel (fun term names => Spec.readStatNames? term = some names) (terms.lookup field)
      ((SortedMap.ofList entries).find? field) := by
  have hentries := (mapM_values_eq_some_iff (f := fun _ => Spec.readStatNames?)).mp h
  have hkeys : (entries.map Prod.fst).Nodup := map_fst_eq_of_forall₂ hentries ▸ hnodup
  rw [SortedMap.find?_ofList hkeys]
  exact rel_lookup_of_forall₂ (r := fun _ term names => Spec.readStatNames? term = some names)
    hentries field

/-- From a spelling of a set names are read. -/
theorem exists_readStatNames?_of_rel {set : Option StatSet} {value : Value}
    (h : Option.Rel StatSet.SpelledBy set (some value)) :
    ∃ names, Spec.readStatNames? (.ofValue value) = some names := by
  cases h with
  | some hset =>
    obtain ⟨names, hnames, -⟩ := hset.readStatNames?
    exact ⟨names, hnames⟩

/-- The names that are read from a spelling of a set stand for this set. -/
theorem rel_statsOfNames (field : String) {set : Option StatSet} {value : Option Value}
    {names : Option (List String)} (hspelled : Option.Rel StatSet.SpelledBy set value)
    (hnames : Option.Rel (fun term names => Spec.readStatNames? term = some names)
      (value.map .ofValue) names) :
    Option.Rel (fun list set => Spec.statsOfNames field list = .ok set) names set := by
  cases hspelled with
  | none =>
    cases hnames
    exact .none
  | some hset =>
    cases hnames with
    | some hnames =>
      obtain ⟨names, hread, hnamed⟩ := hset.readStatNames?
      cases hread.symm.trans hnames
      exact .some (Spec.statsOfNames_eq_ok_iff.mpr hnamed)

/-- The statistics of fields are read from their spellings. -/
theorem StatsSpelledBy.read {stats : SortedMap StatSet} {slot : Option Value}
    (h : StatsSpelledBy stats slot) :
    ∃ fields entries, Spec.statsMembers? (slot.map .ofValue) = some fields ∧
      fields.mapM (fun (field, term) =>
        (Spec.readStatNames? term).map fun names => (field, names)) = some entries ∧
      Spec.readStats (.ofList entries) = .ok stats := by
  cases h with
  | missing h =>
    subst h
    exact ⟨[], [], rfl, rfl, rfl⟩
  | @object fields hnodup h =>
    obtain ⟨terms, hterms⟩ : ∃ terms,
        Spec.statsMembers? (some (.ofValue (.object fields))) = some terms :=
      ⟨_, statsMembers?_ofValue fields⟩
    obtain ⟨hkeys, hlookup⟩ := lookup_of_statsMembers? hterms
    have hnodup : (terms.map Prod.fst).Nodup := hkeys ▸ hnodup
    have hread : ∀ entry ∈ terms, ∃ names, Spec.readStatNames? entry.2 = some names := by
      intro entry hentry
      obtain ⟨value, hvalue, hterm⟩ := Option.map_eq_some_iff.mp
        ((hlookup entry.1).symm.trans ((lookup_eq_some_iff_mem hnodup).mpr hentry))
      rw [← hterm]
      exact exists_readStatNames?_of_rel (hvalue ▸ h entry.1)
    obtain ⟨entries, hentries⟩ :=
      (exists_mapM_values_eq_some_iff (f := fun _ => Spec.readStatNames?)).mpr hread
    refine ⟨terms, entries, hterms, hentries, readStats_eq_ok_iff.mpr ?_⟩
    intro field
    have hnames := rel_find?_of_readStatNames? hnodup hentries field
    rw [hlookup] at hnames
    exact rel_statsOfNames field (h field) hnames

/-- Whether documents are counted is read from its spellings. -/
theorem TotalSpelledBy.readTotal?_eq {total : Bool} {slot : Option Value}
    (h : TotalSpelledBy total slot) : Spec.readTotal? (slot.map .ofValue) = some total := by
  cases h <;> rfl

/-- A spec with scalar bounds is read from its spellings and then validated. -/
theorem Spec.SpelledBy.ofJsonValue_eq_validate {spec : Spec} {value : Value}
    (h : spec.SpelledBy value)
    (hscalar : ∀ clauses ∈ spec.groupBy, ∀ clause ∈ clauses, clause.HasScalarBounds) :
    Spec.ofJsonValue value = spec.validate.map fun _ => spec := by
  obtain @⟨members, hkeys, hgroup, hstats, htotal⟩ := h
  obtain ⟨written, hgroupBy, hclauses⟩ := exists_readGroupBy? hgroup hscalar
  obtain ⟨fields, entries, hfields, hentries, hsets⟩ := hstats.read
  have hslots := (Term.slots?_object_eq_some_iff (by decide)).mpr ⟨hkeys, rfl⟩
  have hsections : sectionsOfTerm? (.ofValue (.object members)) =
      some { groupBy := written, stats := .ofList entries, total := spec.total } := by
    rw [sectionsOfTerm?, hslots]
    simp only [sectionNames, List.map_cons, List.map_nil, Option.bind_eq_bind, Option.bind_some,
      hfields, htotal.readTotal?_eq, readSections?, hgroupBy, hentries]
    rfl
  rw [ofJsonValue, hsections, ofSections, Sections.toSpec]
  simp only [hclauses, hsets]
  change (do spec.validate; return spec) = _
  cases spec.validate <;> rfl

/-- A spec that nothing is wrong with is read from its spellings. -/
theorem Spec.SpelledBy.ofJsonValue_eq {spec : Spec} {value : Value} (h : spec.SpelledBy value)
    (hvalid : spec.validate = .ok ()) : Spec.ofJsonValue value = .ok spec := by
  have hscalar : ∀ clauses ∈ spec.groupBy, ∀ clause ∈ clauses, clause.HasScalarBounds := by
    intro clauses hclauses clause hclause
    have hconsistent := Spec.fault?_iff.1.mp (spec.validate_eq_ok_iff.mp hvalid)
    exact (hconsistent.clauses clauses hclauses clause hclause).hasScalarBounds
  rw [h.ofJsonValue_eq_validate hscalar, hvalid]
  rfl

end Sections

/-- Every valid spec can be written down, and it is read back from whatever spells it. -/
theorem Spec.ofJsonValue_of_spelledBy {spec : Spec} (hvalid : spec.validate = .ok ()) :
    spec.SpelledBy spec.toValue ∧
      ∀ value, spec.SpelledBy value → ofJsonValue value = .ok spec :=
  ⟨spelledBy_toValue hvalid, fun _ h => h.ofJsonValue_eq hvalid⟩

/-- Two statistics of the ages, by kind, by decade and by whether the size is below four. -/
def agesByDecade : Spec where
  groupBy := some [⟨"kind", .value⟩, ⟨"age", .interval (Binary64.ofInt 10) .zero⟩,
    ⟨"size", .ranges [⟨none, some (.int 4)⟩, ⟨some (.int 4), none⟩]⟩]
  stats := SortedMap.empty.insert "age" (StatSet.ofList [.count, .max])
  total := true

/-- The spec in one of its spellings, with clauses of all forms and padded names of flags. -/
def agesByDecadeValue : Value :=
  .object [
    ("groupBy", .array [
      .string "kind",
      .object [("base", .null), ("field", .string "age"), ("interval", .int 10)],
      .object [("field", .string "size"), ("ranges", .array [
        .object [("end", .int 4)],
        .object [("end", .null), ("start", .int 4)]])]]),
    ("stats", .object [
      ("age", .object [(" count", .bool true), ("max ", .bool true), ("median", .bool false)])]),
    ("total", .bool true)]

/-- The spec is valid, and it is read from that spelling. -/
theorem Spec.ofJsonValue_agesByDecadeValue :
    agesByDecade.validate = .ok () ∧ agesByDecade.SpelledBy agesByDecadeValue ∧
      ofJsonValue agesByDecadeValue = .ok agesByDecade := by
  have hvalid : agesByDecade.validate = .ok () := by decide +kernel
  have hspelled : agesByDecade.SpelledBy agesByDecadeValue := by
    have hwidth : (Binary64.ofInt 10).SpelledBy (.int 10) := ⟨.integer 10, rfl, rfl⟩
    have hbase : Bucketing.HasBase (.interval (Binary64.ofInt 10) .zero) none := Option.getD_none
    have hage : Clause.SpelledBy ⟨"age", .interval (Binary64.ofInt 10) .zero⟩
        (.object [("base", .null), ("field", .string "age"), ("interval", .int 10)]) :=
      .object ⟨by decide, by decide⟩ rfl .missing (.given hwidth) .null hbase .missing
    have hbelow : Range.SpelledBy ⟨none, some (.int 4)⟩ (.object [("end", .int 4)]) :=
      .object ⟨by decide, by decide⟩ .missing (.given rfl)
    have habove : Range.SpelledBy ⟨some (.int 4), none⟩
        (.object [("end", .null), ("start", .int 4)]) :=
      .object ⟨by decide, by decide⟩ (.given rfl) .null
    have hnamed : (StatSet.ofList [.count, .max]).NamedBy [" count", "max "] := by
      have hblank : ∀ c ∈ [' '], Text.isBlank c = true := List.forall_mem_singleton.mpr rfl
      have hcount : Stat.count.SpelledBy " count" :=
        ⟨[' '], [], hblank, List.forall_mem_nil _, by decide⟩
      have hmax : Stat.max.SpelledBy "max " :=
        ⟨[], [' '], List.forall_mem_nil _, hblank, by decide⟩
      constructor
      · rintro name (_ | ⟨_, _ | ⟨_, ⟨⟩⟩⟩)
        · exact ⟨.count, rfl, hcount⟩
        · exact ⟨.max, rfl, hmax⟩
      · rintro stat hstat
        cases stat with
        | count => exact ⟨_, by decide, hcount⟩
        | max => exact ⟨_, by decide, hmax⟩
        | _ => cases hstat
    refine .object ⟨by decide, by decide⟩ (.given (.list (.cons (.field rfl) (.cons hage
      (.cons ?_ .nil))))) (.object (by decide) ?_) (.given true)
    · exact .object ⟨by decide, by decide⟩ rfl
        (.given ⟨_, rfl, .cons hbelow (.cons habove .nil)⟩) .missing .missing rfl .missing
    · intro field
      rw [agesByDecade, SortedMap.find?_insert, lookup_cons]
      split
      · exact .some (@StatSet.SpelledBy.flagged _
          [(" count", true), ("max ", true), ("median", false)] (by decide) hnamed)
      · exact .none
  exact ⟨hvalid, hspelled, (ofJsonValue_of_spelledBy hvalid).2 _ hspelled⟩

end Rollup
