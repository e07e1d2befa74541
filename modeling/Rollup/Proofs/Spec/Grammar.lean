import Rollup.Proofs.Spec.Reading

/-!
# What is accepted as a spec

The documented syntax of a spec consists of objects with known keys, strings for fields and names,
and lists of clauses and of names (`Documented`). Reading accepts more than that in two ways only:
an array may stand for an object, its items for the members in their order (`Positional`), and a
flag that is not raised may have any name (`IdleName`).
-/

namespace Rollup

open Spec (Term WrittenClause KeysAmong sectionNames)

section Forms

/-- The documented form of a range: an object with known keys. -/
inductive RangeForm : Value → Prop where
  /-- An object with the bounds. -/
  | object {members : List (String × Value)}
      (hkeys : ∀ key ∈ members.map Prod.fst, key ∈ ["start", "end"]) : RangeForm (.object members)

/-- The documented form of a clause: a string, or an object with known keys. -/
inductive ClauseForm : Value → Prop where
  /-- The path of a field. -/
  | field (field : String) : ClauseForm (.string field)
  /-- An object with the members of a clause. -/
  | object {members : List (String × Value)}
      (hkeys : ∀ key ∈ members.map Prod.fst, key ∈ clauseNames)
      (hranges : ∀ ranges, ("ranges", .array ranges) ∈ members →
        ∀ range ∈ ranges, RangeForm range) :
      ClauseForm (.object members)

/-- The documented form of a grouping: null, a clause, or a list of clauses. -/
inductive GroupByForm : Value → Prop where
  /-- There is no grouping. -/
  | null : GroupByForm .null
  /-- One clause. -/
  | clause {value : Value} (h : ClauseForm value) : GroupByForm value
  /-- A list of clauses. -/
  | list {items : List Value} (h : ∀ item ∈ items, ClauseForm item) : GroupByForm (.array items)

/-- A text is, without the blanks around it, the name of a statistic. -/
def IsStatName (text : String) : Prop :=
  ∃ stat : Stat, Text.trimString text = stat.name

/-- The names of statistics that are written in a value: those of flags, raised or not, those of a
list, or the only one. -/
def writtenNames : Value → List String
  | .object flags => flags.map Prod.fst
  | .array items => items.filterMap fun
    | .string name => some name
    | _ => none
  | .string name => [name]
  | _ => []

/-- The documented form of a spec: an object with known keys, a grouping and names of statistics. -/
inductive Documented : Value → Prop where
  /-- An object with the sections. -/
  | object {members : List (String × Value)}
      (hkeys : ∀ key ∈ members.map Prod.fst, key ∈ sectionNames)
      (hgroup : ∀ value, ("groupBy", value) ∈ members → GroupByForm value)
      (hstats : ∀ fields, ("stats", .object fields) ∈ members → ∀ entry ∈ fields,
        ∀ name ∈ writtenNames entry.2, IsStatName name) : Documented (.object members)

/-- An array stands where the documented form has an object. -/
inductive Positional : Value → Prop where
  /-- The spec is an array. -/
  | spec (sections : List Value) : Positional (.array sections)
  /-- An item of a grouping is neither a string nor an object. -/
  | clause {members : List (String × Value)} {items : List Value} {item : Value}
      (hgroup : ("groupBy", .array items) ∈ members) (hitem : item ∈ items)
      (hform : ¬item.StringOrObject) : Positional (.object members)
  /-- A range is an array. -/
  | range {members clause : List (String × Value)} {value : Value} {ranges bounds : List Value}
      (hgroup : ("groupBy", value) ∈ members)
      (hclause : value = .object clause ∨ ∃ items, value = .array items ∧ .object clause ∈ items)
      (hranges : ("ranges", .array ranges) ∈ clause) (hrange : .array bounds ∈ ranges) :
      Positional (.object members)

/-- A flag that is not raised has a name that is not that of a statistic. -/
inductive IdleName : Value → Prop where
  /-- There is such a flag for some field. -/
  | flag {members fields flags : List (String × Value)} {field name : String}
      (hstats : ("stats", .object fields) ∈ members) (hfield : (field, .object flags) ∈ fields)
      (hflag : (name, .bool false) ∈ flags) (hname : ¬IsStatName name) : IdleName (.object members)

/-- In the documented form no array stands for an object. -/
theorem Documented.not_positional {value : Value} (h : Documented value) : ¬Positional value := by
  obtain ⟨hkeys, hgroup, hstats⟩ := h
  intro hpositional
  cases hpositional with
  | clause hmem hitem hform =>
    cases hgroup _ hmem with
    | clause h => cases h
    | list h =>
      cases h _ hitem with
      | field _ => exact hform (Or.inl ⟨_, rfl⟩)
      | object _ _ => exact hform (Or.inr ⟨_, rfl⟩)
  | @range _ clause value ranges bounds hmem hclause hranges hrange =>
    have hform : ClauseForm (.object clause) := by
      rcases hclause with rfl | ⟨items, rfl, hitem⟩
      · cases hgroup _ hmem with
        | clause h => exact h
      · cases hgroup _ hmem with
        | clause h => cases h
        | list h => exact h _ hitem
    cases hform with
    | object _ hforms => cases hforms ranges hranges _ hrange

/-- In the documented form every flag has the name of a statistic. -/
theorem Documented.not_idleName {value : Value} (h : Documented value) : ¬IdleName value := by
  obtain ⟨hkeys, hgroup, hstats⟩ := h
  rintro ⟨hmem, hfield, hflag, hname⟩
  exact hname (hstats _ hmem _ hfield _ (List.mem_map_of_mem hflag))

end Forms

section Acceptance

/-- A term that is read as a range is an object with known keys or a list. -/
theorem rangeForm_of_readRange? {value : Value} {range : Range}
    (h : Spec.readRange? (.ofValue value) = some range) :
    RangeForm value ∨ ∃ bounds, value = .array bounds := by
  rw [Spec.readRange?, Option.bind_eq_bind, Option.bind_eq_some_iff] at h
  obtain ⟨slots, hslots, -⟩ := h
  cases value with
  | object members =>
    obtain ⟨hkeys, -⟩ := (Term.slots?_object_eq_some_iff (by decide)).mp hslots
    exact Or.inl (.object hkeys.among)
  | array bounds => exact Or.inr ⟨bounds, rfl⟩
  | _ => cases hslots

/-- An object that is read as a clause has the documented form, unless one of its ranges is an
array. -/
theorem clauseForm_of_readClause? {members : List (String × Value)} {written : WrittenClause}
    (h : Spec.readClause? (.ofValue (.object members)) = some written)
    (hranges : ∀ ranges, ("ranges", .array ranges) ∈ members → ∀ bounds, .array bounds ∉ ranges) :
    ClauseForm (.object members) := by
  obtain ⟨field, slot, rest, hslots, -, hread⟩ := exists_slots_of_readClause? h
  have hnames : clauseNames.Nodup := by decide
  obtain ⟨hkeys, hslots⟩ := (Term.slots?_object_eq_some_iff hnames).mp hslots
  refine .object hkeys.among fun ranges hmem range hrange => ?_
  have hlookup := (lookup_eq_some_iff_mem hkeys.nodup).mpr hmem
  have hslot : slot = some (.ofValue (.array ranges)) := by
    simp only [clauseNames, List.map_cons, hlookup, List.cons.injEq] at hslots
    exact hslots.2.1
  have hnull : Value.array ranges ≠ .null := by simp
  rw [hslot, optional?_ofValue hnull, Option.map_eq_some_iff] at hread
  obtain ⟨list, hlist, -⟩ := hread
  rw [Term.ofValue, Term.ofItems_eq_map] at hlist
  obtain ⟨_, -, hrange'⟩ := exists_of_mapM_eq_some hlist _ (List.mem_map_of_mem hrange)
  rcases rangeForm_of_readRange? hrange' with hform | ⟨bounds, rfl⟩
  · exact hform
  · exact absurd hrange (hranges ranges hmem bounds)

/-- What is read as an item of a grouping has the documented form if it is a string or an object,
unless one of its ranges is an array. -/
theorem clauseForm_of_readGroupItem? {value : Value} {written : WrittenClause}
    (h : Spec.readGroupItem? (.ofValue value) = some written) (hform : value.StringOrObject)
    (hranges : ∀ clause ranges, value = .object clause → ("ranges", .array ranges) ∈ clause →
      ∀ bounds, .array bounds ∉ ranges) : ClauseForm value := by
  rcases hform with ⟨text, rfl⟩ | ⟨members, rfl⟩
  · exact .field text
  · exact clauseForm_of_readClause? h fun ranges => hranges members ranges rfl

/-- What is read as a grouping has the documented form, unless one of its items is neither a string
nor an object or one of its ranges is an array. -/
theorem groupByForm_of_readGroupBy? {value : Value} {written : List WrittenClause}
    (h : Spec.readGroupBy? (.ofValue value) = some written)
    (hitems : ∀ items, value = .array items → ∀ item ∈ items, item.StringOrObject)
    (hranges : ∀ clause ranges,
      (value = .object clause ∨ ∃ items, value = .array items ∧ .object clause ∈ items) →
      ("ranges", .array ranges) ∈ clause → ∀ bounds, .array bounds ∉ ranges) :
    GroupByForm value := by
  rw [Spec.readGroupBy?] at h
  split at h
  · next clause hclause =>
    cases value with
    | array items =>
      obtain ⟨text, rfl, -⟩ := readGroupItem?_array (hitems items rfl) hclause
      exact .list (List.forall_mem_singleton.mpr (.field text))
    | string text => exact .clause (.field text)
    | object members =>
      refine .clause (clauseForm_of_readGroupItem? hclause (Or.inr ⟨_, rfl⟩) ?_)
      intro clause ranges heq
      exact hranges clause ranges (Or.inl heq)
    | _ => cases hclause
  · rw [Option.bind_eq_bind, Option.bind_eq_some_iff] at h
    obtain ⟨terms, hterms, h⟩ := h
    cases value with
    | array items =>
      cases hterms
      rw [Term.ofItems_eq_map] at h
      refine .list fun item hitem => ?_
      obtain ⟨_, -, hread⟩ := exists_of_mapM_eq_some h _ (List.mem_map_of_mem hitem)
      refine clauseForm_of_readGroupItem? hread (hitems items rfl item hitem) ?_
      rintro clause ranges rfl
      exact hranges clause ranges (Or.inr ⟨items, rfl, hitem⟩)
    | _ => cases hterms

/-- Names that are read as statistics are names of statistics. -/
theorem isStatName_of_statsOfNames {field : String} {names : List String} {set : StatSet}
    (h : Spec.statsOfNames field names = .ok set) : ∀ name ∈ names, IsStatName name := by
  intro name hname
  obtain ⟨stat, -, hspelled⟩ := (Spec.statsOfNames_eq_ok_iff.mp h).known name hname
  exact ⟨stat, Stat.spelledBy_iff.mp hspelled⟩

/-- What is written for a field are names of statistics, if those that are read are and so are the
names of the flags that are not raised. -/
theorem isStatName_of_readStatNames? {value : Value} {names : List String}
    (h : Spec.readStatNames? (.ofValue value) = some names)
    (hnames : ∀ name ∈ names, IsStatName name)
    (hnodup : ∀ flags, value = .object flags → (flags.map Prod.fst).Nodup)
    (hidle : ∀ flags, value = .object flags → ∀ name, (name, .bool false) ∈ flags →
      IsStatName name) :
    ∀ name ∈ writtenNames value, IsStatName name := by
  cases value with
  | object members =>
    obtain ⟨flags, hflags, hraised⟩ := Option.bind_eq_some_iff.mp h
    cases hraised
    obtain rfl := mapM_readFlag?_eq_some_iff.mp hflags
    have hkeys := hnodup _ rfl
    rw [List.map_map] at hkeys
    intro name hname
    rw [writtenNames, List.map_map] at hname
    obtain ⟨⟨_, flag⟩, hflag, rfl⟩ := List.mem_map.mp hname
    cases flag with
    | true => exact hnames _ (mem_raisedNames.mpr ((mem_sortEntries_iff hkeys).mpr hflag))
    | false => exact hidle _ rfl _ (List.mem_map.mpr ⟨_, hflag, rfl⟩)
  | array items =>
    obtain rfl := mapM_toText?_eq_some_iff.mp h
    intro name hname
    rw [writtenNames, List.mem_filterMap] at hname
    obtain ⟨item, hitem, hname'⟩ := hname
    obtain ⟨text, htext, rfl⟩ := List.mem_map.mp hitem
    cases hname'
    exact hnames _ htext
  | string text =>
    cases h
    exact hnames
  | _ => cases h

/-- The sections of an object have their known keys, a grouping that is read and statistics of which
the names are read. -/
theorem exists_of_sectionsOfTerm? {members : List (String × Value)} {sections : Spec.Sections}
    (h : Spec.sectionsOfTerm? (.ofValue (.object members)) = some sections) :
    KeysAmong sectionNames members ∧
      Spec.optional? Spec.readGroupBy? ((members.lookup "groupBy").map .ofValue) =
        some sections.groupBy ∧
      ∃ fields entries, Spec.statsMembers? ((members.lookup "stats").map .ofValue) = some fields ∧
        fields.mapM (fun (field, term) =>
          (Spec.readStatNames? term).map fun names => (field, names)) = some entries ∧
        sections.stats = .ofList entries := by
  rw [Spec.sectionsOfTerm?, Option.bind_eq_bind, Option.bind_eq_some_iff] at h
  obtain ⟨slots, hslots, h⟩ := h
  obtain ⟨hkeys, rfl⟩ := (Term.slots?_object_eq_some_iff (by decide)).mp hslots
  simp only [sectionNames, List.map_cons, List.map_nil] at h
  obtain ⟨fields, hfields, h⟩ := Option.bind_eq_some_iff.mp h
  obtain ⟨total, htotal, h⟩ := Option.bind_eq_some_iff.mp h
  obtain ⟨groupBy, hgroupBy, h⟩ := Option.bind_eq_some_iff.mp h
  obtain ⟨entries, hentries, h⟩ := Option.bind_eq_some_iff.mp h
  cases h
  exact ⟨hkeys, hgroupBy, fields, entries, hfields, hentries, rfl⟩

/-- Where sections are read as a spec, the statistics are read. -/
theorem exists_readStats_of_toSpec {sections : Spec.Sections} {spec : Spec}
    (h : sections.toSpec = .ok spec) : ∃ sets, Spec.readStats sections.stats = .ok sets := by
  obtain ⟨_, -, h⟩ := bind_eq_ok_iff.mp h
  obtain ⟨sets, hsets, -⟩ := bind_eq_ok_iff.mp h
  exact ⟨sets, hsets⟩

/-- What is written of the statistics of fields are names of statistics, if they are read and so are
the names of the flags that are not raised. -/
theorem isStatName_of_readStats {fields : List (String × Value)} {terms : List (String × Term)}
    {entries : List (String × List String)} {sets : SortedMap StatSet}
    (hterms : Spec.statsMembers? (some (.ofValue (.object fields))) = some terms)
    (hentries : terms.mapM (fun (field, term) =>
      (Spec.readStatNames? term).map fun names => (field, names)) = some entries)
    (hsets : Spec.readStats (.ofList entries) = .ok sets)
    (hwell : (Value.object fields).WellFormed)
    (hidle : ∀ field flags, (field, .object flags) ∈ fields → ∀ name, (name, .bool false) ∈ flags →
      IsStatName name) :
    ∀ entry ∈ fields, ∀ name ∈ writtenNames entry.2, IsStatName name := by
  obtain ⟨hsorted, hvalues⟩ := hwell
  obtain ⟨hkeys, hlookup⟩ := lookup_of_statsMembers? hterms
  have hnodup : (terms.map Prod.fst).Nodup := hkeys ▸ hsorted.nodup_keys
  rintro ⟨field, value⟩ hentry
  have hnames := rel_find?_of_readStatNames? hnodup hentries field
  have hset := readStats_eq_ok_iff.mp hsets field
  rw [hlookup, (lookup_eq_some_iff_mem hsorted.nodup_keys).mpr hentry, Option.map_some] at hnames
  generalize (SortedMap.ofList entries).find? field = names at hnames hset
  generalize sets.find? field = set at hset
  cases hnames with
  | some hnames =>
    cases hset with
    | some hset =>
      refine isStatName_of_readStatNames? hnames (isStatName_of_statsOfNames hset) ?_ ?_
      · rintro flags rfl
        exact (Value.wellFormed_of_mem_members hvalues _ hentry).1.nodup_keys
      · rintro flags rfl
        exact hidle field flags hentry

end Acceptance

/-- What is accepted as a spec has the documented form, unless an array stands for an object or a
flag that is not raised has a name that is not that of a statistic. -/
theorem Spec.documented_iff_of_ofJsonValue {value : Value} {spec : Spec} (hwell : value.WellFormed)
    (h : ofJsonValue value = .ok spec) :
    Documented value ↔ ¬(Positional value ∨ IdleName value) := by
  constructor
  · rintro hdocumented (hpositional | hidle)
    · exact hdocumented.not_positional hpositional
    · exact hdocumented.not_idleName hidle
  · intro hexcept
    rw [ofJsonValue] at h
    cases hsections : sectionsOfTerm? (.ofValue value) with
    | none =>
      rw [hsections] at h
      cases h
    | some sections =>
      rw [hsections, ofSections] at h
      cases value with
      | array items => exact absurd (Or.inl (.spec items)) hexcept
      | object members =>
        obtain ⟨hkeys, hgroup, terms, entries, hterms, hentries, hstats⟩ :=
          exists_of_sectionsOfTerm? hsections
        refine .object hkeys.among ?_ ?_
        · intro value hmem
          rw [(lookup_eq_some_iff_mem hkeys.nodup).mpr hmem, Option.map_some] at hgroup
          by_cases hnull : value = .null
          · rw [hnull]
            exact .null
          · rw [optional?_ofValue hnull, Option.map_eq_some_iff] at hgroup
            obtain ⟨written, hread, -⟩ := hgroup
            refine groupByForm_of_readGroupBy? hread ?_ ?_
            · rintro items rfl item hitem
              by_contra hform
              exact hexcept (Or.inl (.clause hmem hitem hform))
            · intro clause ranges hclause hranges bounds hrange
              exact hexcept (Or.inl (.range hmem hclause hranges hrange))
        · intro fields hmem
          rw [(lookup_eq_some_iff_mem hkeys.nodup).mpr hmem, Option.map_some] at hterms
          obtain ⟨sets, hsets⟩ := exists_readStats_of_toSpec h
          rw [hstats] at hsets
          have hfields := Value.wellFormed_of_mem_members hwell.2 _ hmem
          refine isStatName_of_readStats hterms hentries hsets hfields ?_
          intro field flags hfield name hflag
          by_contra hname
          exact hexcept (Or.inr (.flag hmem hfield hflag hname))
      | _ => cases hsections

/-- A grouping in which a field, a null for the ranges and a width stand in a row. -/
def positionalClause : Value :=
  .object [("groupBy", .array [.string "age", .null, .int 10])]

/-- Such a grouping is taken for one clause with an interval, although it is no list of clauses. -/
theorem Spec.ofJsonValue_positionalClause_not_documented :
    positionalClause.WellFormed ∧
    ofJsonValue positionalClause =
      .ok { groupBy := some [⟨"age", .interval (Binary64.ofInt 10) .zero⟩] } ∧
    ¬Documented positionalClause := by
  refine ⟨?_, by decide +kernel, fun hdocumented => hdocumented.not_positional ?_⟩
  · simp [positionalClause, Value.WellFormed, Value.WellFormedMembers, Value.WellFormedItems,
      KeySorted, Value.int, Number.InRange]
  · refine .clause List.mem_cons_self (List.mem_cons_of_mem _ List.mem_cons_self) ?_
    rintro (⟨_, h⟩ | ⟨_, h⟩) <;> cases h

/-- Flags for the ages, the only one of which has an unknown name and is not raised. -/
def idleFlag : Value :=
  .object [("stats", .object [("age", .object [("median", .bool false)])])]

/-- Such a flag is accepted, and it is the only thing that is not documented about the value. -/
theorem Spec.ofJsonValue_idleFlag_not_documented :
    idleFlag.WellFormed ∧
    ofJsonValue idleFlag = .ok { stats := SortedMap.empty.insert "age" .empty } ∧
    IdleName idleFlag ∧ ¬Documented idleFlag := by
  have hwell : idleFlag.WellFormed := by
    simp [idleFlag, Value.WellFormed, Value.WellFormedMembers, KeySorted]
  have hread : ofJsonValue idleFlag = .ok { stats := SortedMap.empty.insert "age" .empty } := by
    decide +kernel
  have hidle : IdleName idleFlag := by
    refine .flag List.mem_cons_self List.mem_cons_self List.mem_cons_self ?_
    rintro ⟨stat, hstat⟩
    cases stat <;> exact absurd hstat (by decide)
  exact ⟨hwell, hread, hidle, fun hdocumented =>
    (documented_iff_of_ofJsonValue hwell hread).mp hdocumented (Or.inr hidle)⟩

end Rollup
