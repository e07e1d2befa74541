/-!
# Maps in key order

Entries are pairs of a key and a value. A list of entries is `KeySorted` when its keys ascend
strictly, and `insertEntry` keeps it so; a `SortedMap` is such a list together with the proof. Two
maps with the same look-ups are equal (`SortedMap.ext_find?`).
-/

namespace Rollup

universe u v

variable {α : Type u} {β : Type v}

/-- Sets the value of a key in a list of entries in ascending key order. -/
def insertEntry (key : String) (value : α) : List (String × α) → List (String × α)
  | [] => [(key, value)]
  | (k, v) :: rest =>
    if key < k then (key, value) :: (k, v) :: rest
    else if key = k then (key, value) :: rest
    else (k, v) :: insertEntry key value rest

/-- The entries in ascending key order; of several entries with one key the last stays. -/
def sortEntries (entries : List (String × α)) : List (String × α) :=
  entries.foldl (fun sorted entry => insertEntry entry.1 entry.2 sorted) []

/-- The keys of the entries ascend strictly. -/
def KeySorted (entries : List (String × α)) : Prop :=
  (entries.map Prod.fst).Pairwise (· < ·)

theorem keySorted_nil : KeySorted ([] : List (String × α)) := by
  simp [KeySorted]

theorem keySorted_cons {entry : String × α} {rest : List (String × α)} :
    KeySorted (entry :: rest) ↔ (∀ other ∈ rest, entry.1 < other.1) ∧ KeySorted rest := by
  simp [KeySorted]

/-- The entries after an insertion are the inserted one and old ones. -/
theorem mem_insertEntry {key : String} {value : α} {entries : List (String × α)}
    {entry : String × α} (h : entry ∈ insertEntry key value entries) :
    entry = (key, value) ∨ entry ∈ entries := by
  induction entries with
  | nil => simpa [insertEntry] using h
  | cons first rest ih =>
    obtain ⟨k, v⟩ := first
    simp only [insertEntry] at h
    split at h
    · simpa using h
    · split at h
      · rcases List.mem_cons.1 h with h | h
        · exact .inl h
        · exact .inr (List.mem_cons_of_mem _ h)
      · rcases List.mem_cons.1 h with h | h
        · exact .inr (h ▸ List.mem_cons_self)
        · exact (ih h).imp_right (List.mem_cons_of_mem _)

/-- Insertion keeps the key order. -/
theorem KeySorted.insertEntry {entries : List (String × α)} (h : KeySorted entries)
    (key : String) (value : α) : KeySorted (insertEntry key value entries) := by
  induction entries with
  | nil => simp [Rollup.insertEntry, KeySorted]
  | cons first rest ih =>
    obtain ⟨k, v⟩ := first
    obtain ⟨hlt, hrest⟩ := keySorted_cons.1 h
    simp only [Rollup.insertEntry]
    split
    · next hk =>
      refine keySorted_cons.2 ⟨fun other hother => ?_, h⟩
      rcases List.mem_cons.1 hother with rfl | hother
      · exact hk
      · exact String.lt_trans hk (hlt other hother)
    · next hk =>
      split
      · next heq => exact keySorted_cons.2 ⟨fun other hother => heq ▸ hlt other hother, hrest⟩
      · next hne =>
        refine keySorted_cons.2 ⟨fun other hother => ?_, ih hrest⟩
        rcases mem_insertEntry hother with rfl | hother
        · rcases String.le_total k key with hle | hle
          · exact String.not_le.1 fun hge => hne (String.le_antisymm hge hle)
          · exact absurd (String.le_antisymm hle (String.not_lt.1 hk)) hne
        · exact hlt other hother

private theorem KeySorted.foldl_insertEntry (entries : List (String × α)) :
    ∀ {sorted : List (String × α)}, KeySorted sorted →
      KeySorted
        (entries.foldl (fun sorted entry => Rollup.insertEntry entry.1 entry.2 sorted) sorted) := by
  induction entries with
  | nil => exact fun h => h
  | cons entry rest ih => exact fun h => ih (h.insertEntry entry.1 entry.2)

/-- Sorted entries are in key order. -/
theorem keySorted_sortEntries (entries : List (String × α)) : KeySorted (sortEntries entries) :=
  KeySorted.foldl_insertEntry entries keySorted_nil

/-- Looking a name up goes from the first entry to the rest. -/
theorem lookup_cons (name key : String) (value : α) (rest : List (String × α)) :
    ((key, value) :: rest).lookup name = if name = key then some value else rest.lookup name := by
  rw [List.lookup_cons]
  by_cases h : name = key
  · rw [if_pos h, beq_iff_eq.mpr h]
  · rw [if_neg h, beq_eq_false_iff_ne.mpr h]

/-- Looking up what was inserted, and anything else. -/
theorem lookup_insertEntry (key : String) (value : α) (entries : List (String × α))
    (name : String) :
    (insertEntry key value entries).lookup name =
      if name = key then some value else entries.lookup name := by
  induction entries with
  | nil => simp [insertEntry, lookup_cons]
  | cons first rest ih =>
    obtain ⟨k, v⟩ := first
    simp only [insertEntry]
    split
    · simp only [lookup_cons]
    · split
      · next heq => by_cases h : name = k <;> simp [lookup_cons, h, heq]
      · next hne =>
        by_cases h : name = k
        · simp [h, Ne.symm hne]
        · simp [lookup_cons, h, ih]

/-- A key below all keys of some entries is not among them. -/
theorem lookup_eq_none_of_lt {key : String} {entries : List (String × α)}
    (h : ∀ entry ∈ entries, key < entry.1) : entries.lookup key = none := by
  induction entries with
  | nil => rfl
  | cons entry rest ih =>
    obtain ⟨k, v⟩ := entry
    have hk : key ≠ k := fun heq => String.lt_irrefl k (heq ▸ h (k, v) List.mem_cons_self)
    rw [lookup_cons, if_neg hk]
    exact ih fun other hother => h other (List.mem_cons_of_mem _ hother)

/-- Entries in key order that know the same names start with the same key. -/
theorem KeySorted.first_key_eq {j k : String} {v : α} {w : β} {xs : List (String × α)}
    {ys : List (String × β)} (hx : KeySorted ((j, v) :: xs)) (hy : KeySorted ((k, w) :: ys))
    (h : ∀ name, (((j, v) :: xs).lookup name).isSome = (((k, w) :: ys).lookup name).isSome) :
    j = k := by
  obtain ⟨hj, _⟩ := keySorted_cons.1 hx
  obtain ⟨hk, _⟩ := keySorted_cons.1 hy
  by_cases hle : j ≤ k
  · by_cases hge : k ≤ j
    · exact String.le_antisymm hle hge
    · have hlt : j < k := String.not_le.1 hge
      have hne : j ≠ k := fun heq => hge (heq ▸ String.le_refl _)
      have hnone : ys.lookup j = none :=
        lookup_eq_none_of_lt fun y hy => String.lt_trans hlt (hk y hy)
      simpa [lookup_cons, hne, hnone] using h j
  · have hlt : k < j := String.not_le.1 hle
    have hne : k ≠ j := fun heq => hle (heq ▸ String.le_refl _)
    have hnone : xs.lookup k = none :=
      lookup_eq_none_of_lt fun x hx => String.lt_trans hlt (hj x hx)
    simpa [lookup_cons, hne, hnone] using h k

/-- Entries in key order with the same look-ups are the same. -/
theorem KeySorted.eq_of_lookup {xs ys : List (String × α)} (hx : KeySorted xs) (hy : KeySorted ys)
    (h : ∀ name, xs.lookup name = ys.lookup name) : xs = ys := by
  induction xs generalizing ys with
  | nil =>
    cases ys with
    | nil => rfl
    | cons y ys =>
      obtain ⟨j, w⟩ := y
      simpa [lookup_cons] using h j
  | cons x xs ih =>
    obtain ⟨k, v⟩ := x
    cases ys with
    | nil => simpa [lookup_cons] using h k
    | cons y ys =>
      obtain ⟨j, w⟩ := y
      obtain rfl : k = j := hx.first_key_eq hy fun name => congrArg Option.isSome (h name)
      obtain ⟨hk, hxs⟩ := keySorted_cons.1 hx
      obtain ⟨hj, hys⟩ := keySorted_cons.1 hy
      have hvalue : v = w := by simpa [lookup_cons] using h k
      subst hvalue
      refine congrArg _ (ih hxs hys fun name => ?_)
      by_cases hname : name = k
      · rw [hname, lookup_eq_none_of_lt hk, lookup_eq_none_of_lt hj]
      · simpa [lookup_cons, hname] using h name

/-- A map from strings to values, listed in ascending order of its keys. -/
structure SortedMap (α : Type u) where
  /-- The keys with their values. -/
  entries : List (String × α)
  /-- The keys ascend strictly. -/
  sorted : KeySorted entries := by exact keySorted_nil

instance [DecidableEq α] : DecidableEq (SortedMap α) := fun a b =>
  decidable_of_iff (a.entries = b.entries) <| by
    cases a
    cases b
    simp

namespace SortedMap

/-- The map without keys. -/
def empty : SortedMap α where
  entries := []

instance : Inhabited (SortedMap α) := ⟨empty⟩

/-- The value of a key. -/
def find? (map : SortedMap α) (key : String) : Option α :=
  map.entries.lookup key

/-- Sets the value of a key. -/
def insert (map : SortedMap α) (key : String) (value : α) : SortedMap α where
  entries := insertEntry key value map.entries
  sorted := map.sorted.insertEntry key value

/-- The map with the given entries; of several entries with one key the last stays. -/
def ofList (entries : List (String × α)) : SortedMap α where
  entries := sortEntries entries
  sorted := keySorted_sortEntries entries

/-- The keys in ascending order. -/
def keys (map : SortedMap α) : List String :=
  map.entries.map Prod.fst

/-- Whether the map has no keys. -/
def isEmpty (map : SortedMap α) : Bool :=
  map.entries.isEmpty

@[simp] theorem find?_empty (name : String) : (empty : SortedMap α).find? name = none := rfl

theorem find?_insert (map : SortedMap α) (key : String) (value : α) (name : String) :
    (map.insert key value).find? name = if name = key then some value else map.find? name :=
  lookup_insertEntry key value map.entries name

/-- Maps with the same look-ups are equal. -/
theorem ext_find? {a b : SortedMap α} (h : ∀ name, a.find? name = b.find? name) : a = b := by
  obtain ⟨xs, hx⟩ := a
  obtain ⟨ys, hy⟩ := b
  obtain rfl : xs = ys := hx.eq_of_lookup hy h
  rfl

end SortedMap

end Rollup
