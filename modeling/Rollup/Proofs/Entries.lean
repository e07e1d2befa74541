import Mathlib.Data.List.Induction
import Mathlib.Data.List.Nodup
import Mathlib.Data.List.Perm.Subperm
import Rollup.Proofs.Traversal
import Rollup.SortedMap

/-!
# Looking up entries

What looking up a name gives among entries that were changed, filtered or sorted, and among the
entries of a map. Among entries with distinct keys looking up finds all of them.
-/

namespace Rollup

section Lookup

variable {α β : Type}

/-- Changing the values keeps the keys. -/
theorem map_fst_map_entries (f : String → α → β) (entries : List (String × α)) :
    (entries.map fun (key, value) => (key, f key value)).map Prod.fst = entries.map Prod.fst := by
  rw [List.map_map]
  rfl

variable (name : String)

/-- Looking up a changed value is changing the value looked up. -/
theorem lookup_map_entries (f : String → α → β) (entries : List (String × α)) :
    (entries.map fun (key, value) => (key, f key value)).lookup name =
      (entries.lookup name).map (f name) := by
  induction entries with
  | nil => rfl
  | cons entry entries ih =>
    obtain ⟨key, value⟩ := entry
    rw [List.map_cons, lookup_cons, lookup_cons, ih]
    split
    · next heq => rw [heq, Option.map_some]
    · rfl

/-- Looking up among the entries with certain keys. -/
theorem lookup_filter_key (keeps : String → Bool) (entries : List (String × α)) :
    (entries.filter fun (key, _) => keeps key).lookup name =
      if keeps name then entries.lookup name else none := by
  induction entries with
  | nil => simp
  | cons entry entries ih =>
    obtain ⟨key, value⟩ := entry
    rw [List.filter_cons, lookup_cons]
    by_cases hname : name = key
    · subst hname
      by_cases hkeeps : keeps name <;> simp [hkeeps, ih]
    · by_cases hkeeps : keeps key <;> simp [hkeeps, ih, lookup_cons, hname]

/-- Sorted entries know the last value of every key. -/
theorem lookup_sortEntries (entries : List (String × α)) :
    (sortEntries entries).lookup name = entries.reverse.lookup name := by
  induction entries using List.reverseRecOn with
  | nil => rfl
  | append_singleton entries entry ih =>
    obtain ⟨key, value⟩ := entry
    rw [sortEntries, List.foldl_append, List.foldl_cons, List.foldl_nil, lookup_insertEntry,
      List.reverse_append, List.reverse_singleton, List.singleton_append, lookup_cons, ← ih,
      sortEntries]

end Lookup

section Corresponding

variable {ε α β : Type}

/-- Entries with the same keys in the same order and related values have related values under every
key. -/
theorem rel_lookup_of_forall₂ {r : String → α → β → Prop} {as : List (String × α)}
    {bs : List (String × β)} (h : List.Forall₂ (fun a b => a.1 = b.1 ∧ r a.1 a.2 b.2) as bs)
    (name : String) : Option.Rel (r name) (as.lookup name) (bs.lookup name) := by
  induction h with
  | nil => exact Option.Rel.none
  | @cons a b as bs hab _ ih =>
    obtain ⟨j, a⟩ := a
    obtain ⟨k, b⟩ := b
    obtain ⟨rfl, hr⟩ := hab
    rw [lookup_cons, lookup_cons]
    split
    · next hname => exact Option.Rel.some (hname ▸ hr)
    · exact ih

/-- Of two related options both hold something or none does. -/
theorem isSome_eq_of_rel {r : α → β → Prop} {a : Option α} {b : Option β} (h : Option.Rel r a b) :
    a.isSome = b.isSome := by
  cases h <;> rfl

/-- Entries in key order with related values under every key have the same keys in this order. -/
theorem KeySorted.forall₂_of_rel_lookup {r : String → α → β → Prop} {as : List (String × α)}
    {bs : List (String × β)} (ha : KeySorted as) (hb : KeySorted bs)
    (h : ∀ name, Option.Rel (r name) (as.lookup name) (bs.lookup name)) :
    List.Forall₂ (fun a b => a.1 = b.1 ∧ r a.1 a.2 b.2) as bs := by
  induction as generalizing bs with
  | nil =>
    cases bs with
    | nil => exact .nil
    | cons b bs => simpa using isSome_eq_of_rel (h b.1)
  | cons a as ih =>
    cases bs with
    | nil => simpa using isSome_eq_of_rel (h a.1)
    | cons b bs =>
      obtain ⟨j, a⟩ := a
      obtain ⟨k, b⟩ := b
      obtain rfl : j = k := ha.first_key_eq hb fun name => isSome_eq_of_rel (h name)
      obtain ⟨hj, has⟩ := keySorted_cons.mp ha
      obtain ⟨hk, hbs⟩ := keySorted_cons.mp hb
      have hfirst : r j a b := by simpa [lookup_cons] using h j
      have hrest : ∀ name, Option.Rel (r name) (as.lookup name) (bs.lookup name) := by
        intro name
        by_cases hname : name = j
        · rw [hname, lookup_eq_none_of_lt hj, lookup_eq_none_of_lt hk]
          exact .none
        · simpa [lookup_cons, hname] using h name
      exact .cons ⟨rfl, hfirst⟩ (ih has hbs hrest)

/-- Entries with the same keys in the same order have the same keys. -/
theorem map_fst_eq_of_forall₂ {r : String × α → String × β → Prop} {as : List (String × α)}
    {bs : List (String × β)} (h : List.Forall₂ (fun a b => a.1 = b.1 ∧ r a b) as bs) :
    as.map Prod.fst = bs.map Prod.fst := by
  rw [← List.forall₂_eq_eq_eq, List.forall₂_map_left_iff, List.forall₂_map_right_iff]
  exact h.imp fun _ _ hab => hab.1

/-- A traversal of the values of entries gives entries with the same keys and the results of its
steps. -/
theorem mapM_values_eq_some_iff {f : String → α → Option β} {entries : List (String × α)}
    {results : List (String × β)} :
    (entries.mapM fun (key, value) => (f key value).map fun result => (key, result)) =
        some results ↔
      List.Forall₂ (fun entry result => entry.1 = result.1 ∧ f entry.1 entry.2 = some result.2)
        entries results := by
  rw [mapM_eq_some_iff]
  constructor <;> refine fun h => h.imp ?_
  · rintro ⟨key, value⟩ _ hstep
    obtain ⟨result, hresult, rfl⟩ := Option.map_eq_some_iff.mp hstep
    exact ⟨rfl, hresult⟩
  · rintro ⟨key, value⟩ ⟨_, result⟩ ⟨rfl, hresult⟩
    exact Option.map_eq_some_iff.mpr ⟨result, hresult, rfl⟩

/-- A traversal of the values of entries gives results exactly if every step gives one. -/
theorem exists_mapM_values_eq_some_iff {f : String → α → Option β} {entries : List (String × α)} :
    (∃ results, (entries.mapM fun (key, value) =>
        (f key value).map fun result => (key, result)) = some results) ↔
      ∀ entry ∈ entries, ∃ result, f entry.1 entry.2 = some result := by
  rw [exists_mapM_eq_some_iff]
  refine forall₂_congr fun entry _ => ?_
  simp only [Option.map_eq_some_iff]
  constructor
  · rintro ⟨_, result, hresult, -⟩
    exact ⟨result, hresult⟩
  · rintro ⟨result, hresult⟩
    exact ⟨_, result, hresult, rfl⟩

/-- A traversal of the values of entries that succeeds gives entries with the same keys and the
results of its steps. -/
theorem mapM_values_eq_ok_iff {f : String → α → Except ε β} {entries : List (String × α)}
    {results : List (String × β)} :
    (entries.mapM fun (key, value) => (f key value).map fun result => (key, result)) =
        .ok results ↔
      List.Forall₂ (fun entry result => entry.1 = result.1 ∧ f entry.1 entry.2 = .ok result.2)
        entries results := by
  rw [mapM_eq_ok_iff]
  constructor <;> refine fun h => h.imp ?_
  · rintro ⟨key, value⟩ _ hstep
    obtain ⟨result, hresult, rfl⟩ := map_eq_ok_iff.mp hstep
    exact ⟨rfl, hresult⟩
  · rintro ⟨key, value⟩ ⟨_, result⟩ ⟨rfl, hresult⟩
    exact map_eq_ok_iff.mpr ⟨result, hresult, rfl⟩

end Corresponding

section Keys

variable {α : Type} {entries : List (String × α)}

/-- Nothing is found under what is not a key. -/
theorem lookup_eq_none_iff_notMem {name : String} :
    entries.lookup name = none ↔ name ∉ entries.map Prod.fst := by
  induction entries with
  | nil => simp
  | cons entry entries ih =>
    obtain ⟨key, value⟩ := entry
    rw [lookup_cons, List.map_cons, List.mem_cons, not_or, ← ih]
    by_cases h : name = key <;> simp [h]

/-- The keys of sorted entries are distinct. -/
theorem KeySorted.nodup_keys (h : KeySorted entries) : (entries.map Prod.fst).Nodup := by
  refine List.Pairwise.imp ?_ h
  rintro a _ hlt rfl
  exact String.lt_irrefl a hlt

/-- Among entries with distinct keys looking up finds all of them. -/
theorem lookup_eq_some_iff_mem (h : (entries.map Prod.fst).Nodup) {name : String} {value : α} :
    entries.lookup name = some value ↔ (name, value) ∈ entries := by
  induction entries with
  | nil => simp
  | cons entry entries ih =>
    obtain ⟨key, first⟩ := entry
    obtain ⟨hkey, hrest⟩ := List.nodup_cons.mp h
    rw [lookup_cons, List.mem_cons, Prod.mk.injEq, ← ih hrest]
    by_cases hname : name = key
    · have hnone : entries.lookup name = none := by
        rw [lookup_eq_none_iff_notMem, hname]
        exact hkey
      rw [if_pos hname, hnone, Option.some.injEq]
      simp [hname, eq_comm]
    · simp [hname]

/-- Among entries with distinct keys looking up finds the same after sorting. -/
theorem lookup_sortEntries_of_nodup (h : (entries.map Prod.fst).Nodup) (name : String) :
    (sortEntries entries).lookup name = entries.lookup name := by
  have hreverse : (entries.reverse.map Prod.fst).Nodup := by
    rwa [List.map_reverse, List.nodup_reverse]
  apply Option.ext
  intro value
  rw [lookup_sortEntries, lookup_eq_some_iff_mem hreverse, List.mem_reverse,
    lookup_eq_some_iff_mem h]

/-- Sorting entries with distinct keys keeps them all. -/
theorem mem_sortEntries_iff (h : (entries.map Prod.fst).Nodup) {entry : String × α} :
    entry ∈ sortEntries entries ↔ entry ∈ entries := by
  obtain ⟨name, value⟩ := entry
  rw [← lookup_eq_some_iff_mem (keySorted_sortEntries entries).nodup_keys,
    lookup_sortEntries_of_nodup h, lookup_eq_some_iff_mem h]

/-- Sorting entries keeps their keys. -/
theorem mem_map_fst_sortEntries (entries : List (String × α)) (name : String) :
    name ∈ (sortEntries entries).map Prod.fst ↔ name ∈ entries.map Prod.fst := by
  rw [← not_iff_not, ← lookup_eq_none_iff_notMem, lookup_sortEntries, lookup_eq_none_iff_notMem,
    List.map_reverse, List.mem_reverse]

/-- Sorting entries keeps all of them exactly if their keys are distinct. -/
theorem length_sortEntries_eq_iff (entries : List (String × α)) :
    (sortEntries entries).length = entries.length ↔ (entries.map Prod.fst).Nodup := by
  have hsorted := (keySorted_sortEntries entries).nodup_keys
  constructor
  · intro hlength
    have hsubperm : ((sortEntries entries).map Prod.fst).Subperm (entries.map Prod.fst) :=
      List.subperm_of_subset hsorted fun name => (mem_map_fst_sortEntries entries name).mp
    have hperm := hsubperm.perm_of_length_le (by simp [hlength])
    exact hperm.nodup_iff.mp hsorted
  · intro hnodup
    have hperm := (List.perm_ext_iff_of_nodup hsorted hnodup).mpr (mem_map_fst_sortEntries entries)
    simpa using hperm.length_eq

/-- Sorted entries are among the entries. -/
theorem mem_of_mem_sortEntries {entry : String × α} (h : entry ∈ sortEntries entries) :
    entry ∈ entries := by
  induction entries using List.reverseRecOn with
  | nil => exact h
  | append_singleton entries last ih =>
    rw [sortEntries, List.foldl_concat] at h
    rw [List.mem_append, List.mem_singleton]
    exact (mem_insertEntry h).symm.imp_left ih

/-- Entries in key order stay as they are. -/
theorem sortEntries_eq_self (h : KeySorted entries) : sortEntries entries = entries :=
  (keySorted_sortEntries entries).eq_of_lookup h (lookup_sortEntries_of_nodup h.nodup_keys)

end Keys

section Sorting

variable {α β : Type}

/-- Sorting keeps entries related that have the same keys in the same order. -/
theorem forall₂_sortEntries {r : String → α → β → Prop} {as : List (String × α)}
    {bs : List (String × β)} (h : List.Forall₂ (fun a b => a.1 = b.1 ∧ r a.1 a.2 b.2) as bs) :
    List.Forall₂ (fun a b => a.1 = b.1 ∧ r a.1 a.2 b.2) (sortEntries as) (sortEntries bs) := by
  refine (keySorted_sortEntries as).forall₂_of_rel_lookup (keySorted_sortEntries bs) ?_
  intro name
  rw [lookup_sortEntries, lookup_sortEntries]
  exact rel_lookup_of_forall₂ (List.rel_reverse h) name

/-- A traversal of the values of entries with distinct keys may as well come after sorting them. -/
theorem mapM_values_sortEntries {f : String → α → Option β} {entries : List (String × α)}
    (h : (entries.map Prod.fst).Nodup) :
    ((sortEntries entries).mapM fun (key, value) =>
        (f key value).map fun result => (key, result)) =
      (entries.mapM fun (key, value) => (f key value).map fun result => (key, result)).map
        sortEntries := by
  cases hread : entries.mapM fun (key, value) => (f key value).map fun result => (key, result) with
  | some results =>
    have hsteps := mapM_values_eq_some_iff.mp hread
    exact mapM_values_eq_some_iff.mpr
      (forall₂_sortEntries (r := fun key value result => f key value = some result) hsteps)
  | none =>
    rw [Option.map_none, Option.eq_none_iff_forall_ne_some]
    intro results hresults
    have hall := exists_mapM_values_eq_some_iff.mp ⟨results, hresults⟩
    simp only [mem_sortEntries_iff h] at hall
    obtain ⟨_, hsome⟩ := exists_mapM_values_eq_some_iff.mpr hall
    exact absurd (hread.symm.trans hsome) (by simp)

end Sorting

namespace SortedMap

variable {α : Type} (map : SortedMap α)

/-- The keys of a map are distinct. -/
theorem nodup_keys : map.keys.Nodup :=
  map.sorted.nodup_keys

/-- The map of listed entries with distinct keys finds what looking up among them does. -/
theorem find?_ofList {entries : List (String × α)} (h : (entries.map Prod.fst).Nodup)
    (name : String) : (ofList entries).find? name = entries.lookup name :=
  lookup_sortEntries_of_nodup h name

/-- The map of listed entries has all of them exactly if their keys are distinct. -/
theorem length_entries_ofList_eq_iff (entries : List (String × α)) :
    (ofList entries).entries.length = entries.length ↔ (entries.map Prod.fst).Nodup :=
  length_sortEntries_eq_iff entries

/-- The entries of a map make up the map. -/
theorem ofList_entries : ofList map.entries = map :=
  ext_find? (find?_ofList map.nodup_keys)

/-- Listed entries may be sorted before they make up a map. -/
theorem ofList_sortEntries (entries : List (String × α)) :
    ofList (sortEntries entries) = ofList entries :=
  (ofList entries).ofList_entries

/-- What is found under a key is the entry of that key. -/
theorem find?_eq_some_iff_mem {key : String} {value : α} :
    map.find? key = some value ↔ (key, value) ∈ map.entries :=
  lookup_eq_some_iff_mem map.nodup_keys

/-- A key is among the keys of a map exactly if it is found. -/
theorem mem_keys_iff (key : String) : key ∈ map.keys ↔ (map.find? key).isSome = true := by
  rw [← Option.ne_none_iff_isSome, find?, Ne, lookup_eq_none_iff_notMem, not_not]
  rfl

/-- A map is empty exactly if it has no keys. -/
theorem isEmpty_eq : map.isEmpty = map.keys.isEmpty :=
  List.isEmpty_map.symm

end SortedMap

end Rollup
