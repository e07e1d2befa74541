import Rollup.Proofs.Spec.Reading

/-!
# Specs whose members come in any order

A text of a spec is read as it is written, and a value of a spec in normal form, with the members of
its objects in the order of their keys. No reader of a part of a spec notices this as long as no
object has a key twice: it looks members up by their names, or it sorts them itself.
-/

namespace Rollup

/-- No object inside a value has a key twice. -/
inductive Value.KeysDistinct : Value → Prop where
  /-- Null has no keys. -/
  | null : KeysDistinct null
  /-- A truth value has no keys. -/
  | bool (flag : Bool) : KeysDistinct (bool flag)
  /-- A number has no keys. -/
  | number (n : Number) : KeysDistinct (number n)
  /-- A text has no keys. -/
  | string (text : String) : KeysDistinct (string text)
  /-- No object inside an item has a key twice. -/
  | array {items : List Value} (hitems : ∀ item ∈ items, KeysDistinct item) :
      KeysDistinct (array items)
  /-- The keys of an object are distinct, and so are those inside its values. -/
  | object {members : List (String × Value)} (hkeys : (members.map Prod.fst).Nodup)
      (hvalues : ∀ member ∈ members, KeysDistinct member.2) : KeysDistinct (object members)

namespace Spec

section Readers

variable {α : Type} {term other : Term} {read : Term → Option α}

/-- Two terms are those of a value without repeated keys and of its normal form. -/
def Term.Reordered (term other : Term) : Prop :=
  ∃ value : Value, value.KeysDistinct ∧ term = ofValue value ∧ other = ofValue value.normalize

/-- A reader takes the term of a value and that of its normal form for the same. -/
def IgnoresOrder (read : Term → Option α) : Prop :=
  ∀ term other, Term.Reordered term other → read term = read other

theorem ignoresOrder_toValue? : IgnoresOrder Term.toValue? := by
  rintro _ _ ⟨value, -, rfl, rfl⟩
  rw [Term.toValue?_ofValue, Term.toValue?_ofValue, Value.normalize_normalize]

/-- A reader of scalars has no order to notice. -/
theorem ignoresOrder_of_scalars (hlist : ∀ items, read (.list items) = none)
    (hrecord : ∀ members, read (.record members) = none) : IgnoresOrder read := by
  rintro _ _ ⟨value, -, rfl, rfl⟩
  cases value with
  | array items => exact (hlist _).trans (hlist _).symm
  | object members => exact (hrecord _).trans (hrecord _).symm
  | _ => rfl

theorem ignoresOrder_toBool? : IgnoresOrder Term.toBool? :=
  ignoresOrder_of_scalars (fun _ => rfl) fun _ => rfl

theorem ignoresOrder_toText? : IgnoresOrder Term.toText? :=
  ignoresOrder_of_scalars (fun _ => rfl) fun _ => rfl

theorem ignoresOrder_toBinary64? : IgnoresOrder Term.toBinary64? :=
  ignoresOrder_of_scalars (fun _ => rfl) fun _ => rfl

/-- A reader of what may be missing ignores the order if one of what is there does. -/
theorem IgnoresOrder.optional?_eq (hread : IgnoresOrder read) {slot place : Option Term}
    (h : Option.Rel Term.Reordered slot place) : optional? read slot = optional? read place := by
  cases h with
  | none => rfl
  | some h =>
    have hsame := hread _ _ h
    obtain ⟨value, -, rfl, rfl⟩ := h
    cases value with
    | null => rfl
    | _ => exact congrArg (Option.map some) hsame

/-- The terms of a list correspond. -/
theorem Term.Reordered.toList? (h : term.Reordered other) :
    Option.Rel (List.Forall₂ Term.Reordered) term.toList? other.toList? := by
  obtain ⟨value, hkeys, rfl, rfl⟩ := h
  cases hkeys with
  | @array items hitems =>
    refine .some ?_
    rw [ofItems_eq_map, ofItems_eq_map, Value.normalizeItems_eq_map, List.map_map,
      List.forall₂_map_left_iff, List.forall₂_map_right_iff, List.forall₂_same]
    exact fun item hitem => ⟨item, hitems item hitem, rfl, rfl⟩
  | _ => exact .none

/-- A reader of a list ignores the order if one of its items does. -/
theorem IgnoresOrder.list (hread : IgnoresOrder read) :
    IgnoresOrder fun term => term.toList?.bind fun items => items.mapM read := by
  intro term other h
  exact bind_eq_of_rel h.toList? fun items others hitems => mapM_eq_of_forall₂ hitems hread

/-- The terms of an object and of its sorted normal form are in corresponding slots. -/
theorem rel_slots?_object {names : List String} (hnames : names.Nodup)
    {members : List (String × Value)} (hnodup : (members.map Prod.fst).Nodup)
    (hvalues : ∀ member ∈ members, member.2.KeysDistinct) :
    Option.Rel (List.Forall₂ (Option.Rel Term.Reordered))
      ((Term.ofValue (.object members)).slots? names)
      ((Term.ofValue (.object (sortEntries (Value.normalizeMembers members)))).slots? names) := by
  have hsorted : KeysAmong names (sortEntries (Value.normalizeMembers members)) ↔
      KeysAmong names members := by
    rw [keysAmong_sortEntries_iff (by rwa [Value.map_fst_normalizeMembers]),
      Value.normalizeMembers_eq_map, keysAmong_map_iff fun _ => Value.normalize]
  by_cases hamong : KeysAmong names members
  · rw [(Term.slots?_object_eq_some_iff hnames).mpr ⟨hamong, rfl⟩,
      (Term.slots?_object_eq_some_iff hnames).mpr ⟨hsorted.mpr hamong, rfl⟩]
    refine .some ?_
    rw [List.forall₂_map_left_iff, List.forall₂_map_right_iff, List.forall₂_same]
    intro name _
    rw [Value.lookup_sortEntries_normalizeMembers hnodup]
    cases hfound : members.lookup name with
    | none => exact .none
    | some value =>
      have hmember := (lookup_eq_some_iff_mem hnodup).mp hfound
      exact .some ⟨value, hvalues _ hmember, rfl, rfl⟩
  · rw [(Term.slots?_object_eq_none_iff hnames).mpr hamong,
      (Term.slots?_object_eq_none_iff hnames).mpr (mt hsorted.mp hamong)]
    exact .none

/-- Corresponding terms are in corresponding slots if they are those of lists. -/
theorem rel_slots?_list (names : List String) {items others : List Term}
    (h : List.Forall₂ Term.Reordered items others) :
    Option.Rel (List.Forall₂ (Option.Rel Term.Reordered)) ((Term.list items).slots? names)
      ((Term.list others).slots? names) := by
  rw [Term.slots?, Term.slots?, h.length_eq]
  split
  · refine .some (List.rel_append ?_ (List.forall₂_same.mpr ?_))
    · rw [List.forall₂_map_left_iff, List.forall₂_map_right_iff]
      exact h.imp fun _ _ hterm => .some hterm
    · intro slot hslot
      rw [List.eq_of_mem_replicate hslot]
      exact .none
  · exact .none

/-- Corresponding terms are in corresponding slots. -/
theorem Term.Reordered.slots? (h : term.Reordered other) {names : List String}
    (hnames : names.Nodup) :
    Option.Rel (List.Forall₂ (Option.Rel Term.Reordered)) (term.slots? names)
      (other.slots? names) := by
  have hlist := h.toList?
  obtain ⟨value, hkeys, rfl, rfl⟩ := h
  cases hkeys with
  | array hitems => exact rel_slots?_list names (Option.rel_some_some.mp hlist)
  | object hnodup hvalues => exact rel_slots?_object hnames hnodup hvalues
  | _ => exact .none

theorem ignoresOrder_readRange? : IgnoresOrder readRange? := by
  intro term other h
  refine bind_eq_of_rel (h.slots? (by decide)) ?_
  intro slots places hslots
  rcases hslots with _ | ⟨hstart, _ | ⟨hstop, _ | ⟨_, _⟩⟩⟩
  · rfl
  · rfl
  · simp only [ignoresOrder_toValue?.optional?_eq hstart, ignoresOrder_toValue?.optional?_eq hstop]
  · rfl

theorem ignoresOrder_readRanges? : IgnoresOrder readRanges? :=
  ignoresOrder_readRange?.list

theorem ignoresOrder_readClause? : IgnoresOrder readClause? := by
  intro term other h
  refine bind_eq_of_rel (h.slots? (by decide)) ?_
  intro slots places hslots
  rcases hslots with _ | ⟨hfield | _, _ | ⟨hranges, _ | ⟨hinterval, _ | ⟨hbase, _ |
    ⟨hcomponent, _ | ⟨_, _⟩⟩⟩⟩⟩⟩
  case cons.some.cons.cons.cons.cons.nil =>
    simp only [ignoresOrder_toText? _ _ hfield, ignoresOrder_readRanges?.optional?_eq hranges,
      ignoresOrder_toBinary64?.optional?_eq hinterval,
      ignoresOrder_toBinary64?.optional?_eq hbase, ignoresOrder_toText?.optional?_eq hcomponent]
  all_goals rfl

theorem ignoresOrder_readGroupItem? : IgnoresOrder readGroupItem? := by
  intro term other h
  have hclause := ignoresOrder_readClause? _ _ h
  obtain ⟨value, -, rfl, rfl⟩ := h
  cases value with
  | string text => rfl
  | _ => exact hclause

theorem ignoresOrder_readGroupBy? : IgnoresOrder readGroupBy? := by
  intro term other h
  rw [readGroupBy?, readGroupBy?, ignoresOrder_readGroupItem? _ _ h]
  split
  · rfl
  · exact ignoresOrder_readGroupItem?.list _ _ h

end Readers

section Members

variable {α : Type} {read : Term → Option α} {members : List (String × Value)}

/-- Reads the values of an object under their keys. -/
def readMembers? (read : Term → Option α) (members : List (String × Value)) :
    Option (List (String × α)) :=
  members.mapM fun (key, value) => (read (.ofValue value)).map fun result => (key, result)

/-- What is read from the sorted normal form of an object is what is read from it, sorted. -/
theorem IgnoresOrder.readMembers?_eq (hread : IgnoresOrder read)
    (hnodup : (members.map Prod.fst).Nodup)
    (hvalues : ∀ member ∈ members, member.2.KeysDistinct) :
    readMembers? read (sortEntries (Value.normalizeMembers members)) =
      (readMembers? read members).map sortEntries := by
  have hkeys : ((Value.normalizeMembers members).map Prod.fst).Nodup := by
    rwa [Value.map_fst_normalizeMembers]
  have hmembers : readMembers? read (Value.normalizeMembers members) =
      readMembers? read members := by
    rw [readMembers?, readMembers?, Value.normalizeMembers_eq_map, List.mapM_map]
    refine mapM_congr ?_
    rintro ⟨key, value⟩ hmember
    dsimp only [Function.comp_apply]
    rw [hread _ _ ⟨value, hvalues _ hmember, rfl, rfl⟩]
  rw [← hmembers]
  exact mapM_values_sortEntries (f := fun _ value => read (.ofValue value)) hkeys

/-- Members are read as flags if their values are truth values. -/
theorem mapM_readFlag?_ofMembers (members : List (String × Value)) :
    (Term.ofMembers members).mapM readFlag? = readMembers? Term.toBool? members := by
  rw [Term.ofMembers_eq_map, List.mapM_map, readMembers?]
  refine mapM_congr ?_
  rintro ⟨key, value⟩ -
  cases value <;> rfl

/-- The raised flags come in the order of their names in any case. -/
theorem ignoresOrder_readStatNames? : IgnoresOrder readStatNames? := by
  intro term other h
  have hlist := ignoresOrder_toText?.list _ _ h
  obtain ⟨value, hkeys, rfl, rfl⟩ := h
  cases hkeys with
  | array hitems => exact hlist
  | @object members hnodup hvalues =>
    rw [Value.normalize, Term.ofValue, Term.ofValue, readStatNames?, readStatNames?,
      mapM_readFlag?_ofMembers, mapM_readFlag?_ofMembers,
      ignoresOrder_toBool?.readMembers?_eq hnodup hvalues]
    cases readMembers? Term.toBool? members with
    | none => rfl
    | some flags =>
      simp only [Option.map_some, Option.bind_eq_bind, Option.bind_some,
        sortEntries_eq_self (keySorted_sortEntries flags)]
  | _ => rfl

end Members

section Sections

variable {slot place : Option Term}

/-- Of the statistics of fields sections have the names in the order of the fields. -/
theorem readSections?_fields (groupBy : Option Term) (fields : List (String × Value))
    (total : Bool) :
    readSections? groupBy (fields.map fun (field, value) => (field, .ofValue value)) total =
      (optional? readGroupBy? groupBy).bind fun clauses =>
        (readMembers? readStatNames? fields).bind fun names =>
          some { groupBy := clauses, stats := .ofList names, total } := by
  rw [readSections?, List.mapM_map]
  rfl

/-- Corresponding statistics of fields make the same sections. -/
theorem rel_statsMembers? (h : Option.Rel Term.Reordered slot place) :
    Option.Rel (fun fields others => ∀ groupBy total,
      readSections? groupBy fields total = readSections? groupBy others total)
      (statsMembers? slot) (statsMembers? place) := by
  cases h with
  | none => exact .some fun _ _ => rfl
  | some h =>
    obtain ⟨value, hkeys, rfl, rfl⟩ := h
    cases hkeys with
    | @object fields hnodup hvalues =>
      rw [Value.normalize, statsMembers?_ofValue, statsMembers?_ofValue]
      refine .some fun groupBy total => ?_
      rw [readSections?_fields, readSections?_fields,
        ignoresOrder_readStatNames?.readMembers?_eq hnodup hvalues]
      cases readMembers? readStatNames? fields with
      | none => rfl
      | some names =>
        simp only [Option.map_some, Option.bind_some, SortedMap.ofList_sortEntries]
    | _ => exact .none

theorem readTotal?_eq (h : Option.Rel Term.Reordered slot place) :
    readTotal? slot = readTotal? place := by
  cases h with
  | none => rfl
  | some h => exact ignoresOrder_toBool? _ _ h

theorem ignoresOrder_sectionsOfTerm? : IgnoresOrder sectionsOfTerm? := by
  intro term other h
  refine bind_eq_of_rel (h.slots? (by decide)) ?_
  intro slots places hslots
  rcases hslots with _ | ⟨hgroupBy, _ | ⟨hstats, _ | ⟨htotal, _ | ⟨_, _⟩⟩⟩⟩
  case cons.cons.cons.nil groupBy place _ _ _ _ =>
    have hsame : ∀ fields total, readSections? groupBy fields total =
        readSections? place fields total := by
      intro fields total
      rw [readSections?, readSections?, ignoresOrder_readGroupBy?.optional?_eq hgroupBy]
    refine bind_eq_of_rel (rel_statsMembers? hstats) fun fields others hfields => ?_
    rw [readTotal?_eq htotal]
    exact congrArg _ (funext fun total => (hfields _ total).trans (hsame others total))
  all_goals rfl

end Sections

/-- A value without repeated keys and its normal form are read as the same spec. -/
theorem ofJsonValue_normalize {value : Value} (h : value.KeysDistinct) :
    ofJsonValue value.normalize = ofJsonValue value := by
  rw [ofJsonValue, ofJsonValue, ignoresOrder_sectionsOfTerm? _ _ ⟨value, h, rfl, rfl⟩]

/-- Two outcomes of reading a spec are the same, what they say of a text without the form of a spec
aside. -/
inductive SameReading : Except SpecError Spec → Except SpecError Spec → Prop where
  /-- Both are the same spec or the same error. -/
  | same (outcome : Except SpecError Spec) : SameReading outcome outcome
  /-- Neither text nor value has the form of a spec. -/
  | malformed (detail other : String) :
      SameReading (.error (.malformed detail)) (.error (.malformed other))

/-- The spec that the value of a text spells; a text that is not JSON has not the form of a spec. -/
def ofReadValue (detail text : String) : Except SpecError Spec :=
  match Json.readNormal? text with
  | some value => ofJsonValue value
  | none => .error (.malformed detail)

/-- A text in which no object has a key twice and the value of that text are read as the same
spec. -/
theorem ofJsonText_sameReading {text : String}
    (hkeys : ∀ value, Json.read? text = some value → value.KeysDistinct) (detail : String) :
    SameReading (ofJsonText text) (ofReadValue detail text) := by
  rw [ofJsonText, ofReadValue, Json.readNormal?]
  cases hread : Json.read? text with
  | none => exact .malformed _ detail
  | some value =>
    rw [Option.map_some]
    dsimp only
    rw [ofJsonValue_normalize (hkeys value hread)]
    exact .same _

/-- A text of a spec with its members against the order of their keys. -/
def shuffledText : String :=
  "\x7b\"total\": true, \"groupBy\": \x7b\"interval\": 10, \"field\": \"age\"\x7d\x7d"

/-- The value of that text is not in normal form, but it is read as the same spec. -/
theorem ofJsonText_shuffledText :
    Json.read? shuffledText ≠ Json.readNormal? shuffledText ∧
    (∀ value, Json.read? shuffledText = some value → value.KeysDistinct) ∧
    SameReading (ofJsonText shuffledText) (ofReadValue "no JSON" shuffledText) := by
  have hread : Json.read? shuffledText = some (.object [("total", .bool true),
      ("groupBy", .object [("interval", .int 10), ("field", .string "age")])]) := by
    decide +kernel
  have hkeys : ∀ value, Json.read? shuffledText = some value → value.KeysDistinct := by
    intro value hvalue
    cases hread.symm.trans hvalue
    have hclause : (Value.object [("interval", .int 10), ("field", .string "age")]).KeysDistinct :=
      .object (by decide) (List.forall_mem_cons.mpr
        ⟨.number _, List.forall_mem_singleton.mpr (.string "age")⟩)
    exact .object (by decide) (List.forall_mem_cons.mpr
      ⟨.bool true, List.forall_mem_singleton.mpr hclause⟩)
  exact ⟨by decide +kernel, hkeys, ofJsonText_sameReading hkeys "no JSON"⟩

end Spec

end Rollup
