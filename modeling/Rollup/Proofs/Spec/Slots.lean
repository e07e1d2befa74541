import Mathlib.Data.List.Forall2
import Rollup.Proofs.DistinctItems
import Rollup.Proofs.Entries
import Rollup.Spec.Term

/-!
# The slots of a record

The members of an object of a written spec are put into named slots. That succeeds exactly if the
keys are distinct and all of them are known; a slot then holds the value of its name
(`arrange?_eq_some_iff`).
-/

namespace Rollup.Spec

variable {α : Type}

/-- The keys of some members are distinct and among given names. -/
@[mk_iff]
structure KeysAmong (names : List String) (members : List (String × α)) : Prop where
  /-- No key comes twice. -/
  nodup : (members.map Prod.fst).Nodup
  /-- Every key is one of the names. -/
  among : ∀ key ∈ members.map Prod.fst, key ∈ names

/-- Changing the values keeps the keys. -/
theorem keysAmong_map_iff {β : Type} {names : List String} {members : List (String × α)}
    (f : String → α → β) :
    KeysAmong names (members.map fun (key, value) => (key, f key value)) ↔
      KeysAmong names members := by
  rw [keysAmong_iff, keysAmong_iff, map_fst_map_entries]

theorem keysAmong_concat {names : List String} {members : List (String × α)} {key : String}
    {value : α} : KeysAmong names (members ++ [(key, value)]) ↔
      KeysAmong names members ∧ key ∈ names ∧ members.lookup key = none := by
  have hnodup : ((members ++ [(key, value)]).map Prod.fst).Nodup ↔
      key ∉ members.map Prod.fst ∧ (members.map Prod.fst).Nodup := by
    rw [List.map_append, List.map_singleton, ← List.concat_eq_append, List.nodup_concat]
  have hamong : (∀ k ∈ (members ++ [(key, value)]).map Prod.fst, k ∈ names) ↔
      (∀ k ∈ members.map Prod.fst, k ∈ names) ∧ key ∈ names := by
    rw [List.map_append, List.forall_mem_append, List.map_singleton, List.forall_mem_singleton]
  rw [lookup_eq_none_iff_notMem]
  constructor
  · rintro ⟨hnodup', hamong'⟩
    obtain ⟨hnew, hold⟩ := hnodup.mp hnodup'
    obtain ⟨hnames, hkey⟩ := hamong.mp hamong'
    exact ⟨⟨hold, hnames⟩, hkey, hnew⟩
  · rintro ⟨⟨hold, hnames⟩, hkey, hnew⟩
    exact ⟨hnodup.mpr ⟨hnew, hold⟩, hamong.mpr ⟨hnames, hkey⟩⟩

/-- Sorting members without repeated keys keeps their keys. -/
theorem keysAmong_sortEntries_iff {names : List String} {members : List (String × α)}
    (h : (members.map Prod.fst).Nodup) :
    KeysAmong names (sortEntries members) ↔ KeysAmong names members := by
  simp only [keysAmong_iff, (keySorted_sortEntries members).nodup_keys, h,
    mem_map_fst_sortEntries]

section Slots

variable {names : List String}

/-- The label of a key chooses the slot at the position of its name. -/
theorem Label.slot?_name (key : String) : (Label.name key).slot? names = names.idxOf? key :=
  rfl

variable (hnames : names.Nodup)
include hnames

/-- A member fills the slot of its key if there is one and it is empty. -/
theorem fillSlot?_eq_some_iff {seen : List (String × α)} {key : String} {value : α}
    {slots : List (Option α)} :
    fillSlot? names (names.map (seen.lookup ·)) (.name key, value) = some slots ↔
      (key ∈ names ∧ seen.lookup key = none) ∧
        slots = names.map ((seen ++ [(key, value)]).lookup ·) := by
  rw [fillSlot?, Label.slot?_name]
  cases hindex : names.idxOf? key with
  | none =>
    have hkey := List.idxOf?_eq_none_iff.mp hindex
    simp [hkey]
  | some index =>
    obtain ⟨hlt, hat, _⟩ := List.idxOf?_eq_some_iff.mp hindex
    have hkey : key ∈ names := hat ▸ List.getElem_mem hlt
    have hslot : (names.map (seen.lookup ·))[index]? = some (seen.lookup key) := by
      rw [List.getElem?_map, List.getElem?_eq_getElem hlt, hat, Option.map_some]
    rw [Option.bind_eq_bind, Option.bind_some, hslot]
    cases hseen : seen.lookup key with
    | some old => simp
    | none =>
      have hset : (names.map (seen.lookup ·)).set index (some value) =
          names.map ((seen ++ [(key, value)]).lookup ·) := by
        rw [List.set_eq_modify, modify_map_of_idxOf? hnames _ _ hindex]
        apply List.map_congr_left
        intro name _
        rw [List.lookup_append, lookup_cons, List.lookup_nil]
        by_cases hname : name = key
        · rw [if_pos hname, if_pos hname, hname, hseen, Option.none_or]
        · rw [if_neg hname, if_neg hname, Option.or_none]
      rw [hset, Option.some.injEq]
      simp [hkey, eq_comm]

/-- Members are put into the slots of their keys exactly if the keys are distinct and known. -/
theorem arrange?_eq_some_iff {members : List (String × α)} {slots : List (Option α)} :
    arrange? names (members.map fun (key, value) => (.name key, value)) = some slots ↔
      KeysAmong names members ∧ slots = names.map (members.lookup ·) := by
  induction members using List.reverseRecOn generalizing slots with
  | nil =>
    have hkeys : KeysAmong names ([] : List (String × α)) := ⟨List.nodup_nil, by simp⟩
    have hempty : arrange? names ([] : List (Label × α)) = some (names.map fun _ => none) := rfl
    rw [List.map_nil, hempty, Option.some.injEq, eq_comm]
    simp [hkeys]
  | append_singleton members member ih =>
    obtain ⟨key, value⟩ := member
    rw [arrange?, List.map_append, List.foldlM_append, List.map_singleton, ← arrange?]
    simp only [List.foldlM_cons, List.foldlM_nil, Option.bind_eq_bind, bind_pure]
    rw [Option.bind_eq_some_iff, keysAmong_concat]
    constructor
    · rintro ⟨seen, hseen, hslots⟩
      obtain ⟨hkeys, rfl⟩ := ih.mp hseen
      obtain ⟨hnew, rfl⟩ := (fillSlot?_eq_some_iff hnames).mp hslots
      exact ⟨⟨hkeys, hnew⟩, rfl⟩
    · rintro ⟨⟨hkeys, hnew⟩, rfl⟩
      exact ⟨_, ih.mpr ⟨hkeys, rfl⟩, (fillSlot?_eq_some_iff hnames).mpr ⟨hnew, rfl⟩⟩

end Slots

namespace Term

theorem ofItems_eq_map (items : List Value) : ofItems items = items.map ofValue := by
  induction items with
  | nil => rfl
  | cons item items ih => rw [ofItems, ih, List.map_cons]

theorem ofMembers_eq_map (members : List (String × Value)) :
    ofMembers members = members.map fun (key, value) => (.name key, ofValue value) := by
  induction members with
  | nil => rfl
  | cons member members ih => rw [ofMembers, ih, List.map_cons]

/-- The terms of an object are put into the slots of their keys. -/
theorem slots?_object (names : List String) (members : List (String × Value)) :
    (ofValue (.object members)).slots? names =
      arrange? names ((members.map fun (key, value) => (key, ofValue value)).map
        fun (key, term) => (.name key, term)) := by
  rw [ofValue, slots?, ofMembers_eq_map, List.map_map]
  rfl

/-- An object has slots exactly if its keys are distinct and known. -/
theorem slots?_object_eq_some_iff {names : List String} (hnames : names.Nodup)
    {members : List (String × Value)} {slots : List (Option Term)} :
    (ofValue (.object members)).slots? names = some slots ↔
      KeysAmong names members ∧
        slots = names.map fun name => (members.lookup name).map ofValue := by
  rw [slots?_object, arrange?_eq_some_iff hnames, keysAmong_map_iff fun _ => ofValue]
  simp only [lookup_map_entries _ fun _ => ofValue]

/-- An object has no slots exactly if a key is unknown or comes twice. -/
theorem slots?_object_eq_none_iff {names : List String} (hnames : names.Nodup)
    {members : List (String × Value)} :
    (ofValue (.object members)).slots? names = none ↔ ¬KeysAmong names members := by
  simp [Option.eq_none_iff_forall_ne_some, slots?_object_eq_some_iff hnames]

end Term

end Rollup.Spec
