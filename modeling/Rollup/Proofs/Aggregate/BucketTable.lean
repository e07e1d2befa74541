import Rollup.Aggregate.BucketTable
import Rollup.Proofs.DistinctItems

/-!
# What a bucket table holds

A table is filled by accesses, each of which names a key and changes the tally of its bucket.
Whatever the order of the accesses, the table holds one bucket for every canonical key among them,
in the order of first access, and each bucket has the key of the first access and the changes of all
accesses to it (`BucketTable.Reflects`).
-/

namespace Rollup

/-- The canonical form of the key of a bucket, if it has one. -/
def Bucket.group? (bucket : Bucket) : Option String :=
  bucket.key.map Value.canonicalKey

/-- One access to a table: a key and what is done to the tally of its bucket. -/
structure Access where
  /-- The key of the bucket. -/
  key : List Value
  /-- What is done to its tally. -/
  change : Tally → Tally

namespace Access

/-- The canonical key of the bucket that is accessed. -/
def canonical (access : Access) : String :=
  Value.canonicalKey access.key

/-- The canonical keys of accesses, each once, in the order of first access. -/
def canonicals (accesses : List Access) : List String :=
  (accesses.map canonical).eraseDups

/-- The bucket that accesses make for a canonical key: it has the key of the first access to it, and
all its accesses change its tally one after another. -/
def bucketOf (accesses : List Access) (name : String) : Bucket where
  key := (accesses.find? fun access => access.canonical = name).map key
  tally := (accesses.filter fun access => access.canonical = name).foldl
    (fun tally access => access.change tally) .empty

variable (accesses : List Access) (access : Access)

theorem mem_canonicals {name : String} :
    name ∈ canonicals accesses ↔ ∃ access ∈ accesses, access.canonical = name := by
  rw [canonicals, List.mem_eraseDups, List.mem_map]

/-- There is a first access to every canonical key. -/
theorem exists_first_of_mem_canonicals {accesses : List Access} {name : String}
    (h : name ∈ canonicals accesses) :
    ∃ first, accesses.find? (fun access => access.canonical = name) = some first := by
  obtain ⟨access, hmem, hcanonical⟩ := (mem_canonicals accesses).mp h
  rw [← Option.isSome_iff_exists, List.find?_isSome]
  exact ⟨access, hmem, decide_eq_true hcanonical⟩

theorem canonicals_concat :
    canonicals (accesses ++ [access]) =
      if access.canonical ∈ canonicals accesses then canonicals accesses
      else canonicals accesses ++ [access.canonical] := by
  simp only [canonicals, List.map_append, List.map_cons, List.map_nil, eraseDups_concat,
    List.mem_eraseDups]

/-- An access to a bucket that exists changes its tally. -/
theorem bucketOf_concat_self (h : access.canonical ∈ canonicals accesses) :
    bucketOf (accesses ++ [access]) access.canonical =
      { bucketOf accesses access.canonical with
        tally := access.change (bucketOf accesses access.canonical).tally } := by
  obtain ⟨first, hfirst⟩ := exists_first_of_mem_canonicals h
  simp [bucketOf, List.find?_append, hfirst, List.filter_append]

/-- The first access to a bucket gives it its key. -/
theorem bucketOf_concat_new (h : access.canonical ∉ canonicals accesses) :
    bucketOf (accesses ++ [access]) access.canonical =
      { Bucket.keyed access.key with tally := access.change .empty } := by
  have hnone : ∀ other ∈ accesses, other.canonical ≠ access.canonical := by
    intro other hother heq
    exact h ((mem_canonicals accesses).mpr ⟨other, hother, heq⟩)
  have hfind : (accesses.find? fun other => other.canonical = access.canonical) = none := by
    rw [List.find?_eq_none]
    intro other hother
    simpa using hnone other hother
  have hfilter : (accesses.filter fun other => other.canonical = access.canonical) = [] := by
    rw [List.filter_eq_nil_iff]
    intro other hother
    simpa using hnone other hother
  simp [bucketOf, Bucket.keyed, List.find?_append, hfind, List.filter_append, hfilter]

/-- An access leaves the other buckets as they are. -/
theorem bucketOf_concat_of_ne {name : String} (h : name ≠ access.canonical) :
    bucketOf (accesses ++ [access]) name = bucketOf accesses name := by
  have hne : access.canonical ≠ name := h.symm
  simp [bucketOf, List.find?_append, List.filter_append, hne]

/-- A bucket that accesses make has a key of the canonical form that it is stored under. -/
theorem group?_bucketOf {accesses : List Access} {name : String}
    (h : name ∈ canonicals accesses) : (bucketOf accesses name).group? = some name := by
  obtain ⟨first, hfirst⟩ := exists_first_of_mem_canonicals h
  have hname : first.canonical = name := by simpa using List.find?_some hfirst
  rw [Bucket.group?, bucketOf, hfirst, Option.map_some, Option.map_some, ← hname]
  rfl

end Access

namespace BucketTable

/-- The table that accesses make. -/
def run (accesses : List Access) : BucketTable :=
  accesses.foldl (fun table access => table.modify access.key access.change) .empty

/-- The table holds exactly what the accesses make, and finds it. -/
structure Reflects (table : BucketTable) (accesses : List Access) : Prop where
  /-- There is one bucket for each canonical key, in the order of first access. -/
  buckets : table.toList = (Access.canonicals accesses).map (Access.bucketOf accesses)
  /-- The index knows the position of each bucket, and no other keys. -/
  index : ∀ name, table.index[name]? = (Access.canonicals accesses).idxOf? name

theorem reflects_empty : Reflects .empty [] where
  buckets := rfl
  index _ := Std.TreeMap.getElem?_emptyc

variable {table : BucketTable} {accesses : List Access}

/-- There are as many buckets as canonical keys. -/
theorem Reflects.size_eq (h : table.Reflects accesses) :
    table.size = (Access.canonicals accesses).length := by
  rw [size, ← Array.length_toList]
  exact (congrArg List.length h.buckets).trans (List.length_map _)

/-- Changing the bucket of a key in a table that knows the key leaves all but that tally. -/
theorem Reflects.modify_known (h : table.Reflects accesses) (access : Access)
    (hknown : access.canonical ∈ Access.canonicals accesses) :
    (table.modify access.key access.change).Reflects (accesses ++ [access]) := by
  obtain ⟨position, hposition⟩ :=
    Option.isSome_iff_exists.mp (List.isSome_idxOf?.mpr hknown)
  have hindex : table.index[Value.canonicalKey access.key]? = some position :=
    (h.index access.canonical).trans hposition
  have hcanonicals : Access.canonicals (accesses ++ [access]) = Access.canonicals accesses := by
    rw [Access.canonicals_concat, if_pos hknown]
  constructor
  · rw [hcanonicals]
    have hlist : (table.modify access.key access.change).toList =
        table.toList.modify position fun bucket =>
          { bucket with tally := access.change bucket.tally } := by
      simp only [BucketTable.modify, touch, hindex, toList, Array.toList_modify]
    have hnodup : (Access.canonicals accesses).Nodup := nodup_eraseDups _
    rw [hlist, h.buckets, modify_map_of_idxOf? hnodup _ _ hposition]
    apply List.map_congr_left
    intro name _
    by_cases hname : name = access.canonical
    · rw [if_pos hname, hname, Access.bucketOf_concat_self accesses access hknown]
    · rw [if_neg hname, Access.bucketOf_concat_of_ne accesses access hname]
  · intro name
    rw [hcanonicals, ← h.index]
    simp only [BucketTable.modify, touch, hindex]

/-- Changing the bucket of a key in a table that does not know the key adds a bucket at the end. -/
theorem Reflects.modify_new (h : table.Reflects accesses) (access : Access)
    (hnew : access.canonical ∉ Access.canonicals accesses) :
    (table.modify access.key access.change).Reflects (accesses ++ [access]) := by
  have hindex : table.index[Value.canonicalKey access.key]? = none :=
    (h.index access.canonical).trans (List.idxOf?_eq_none_iff.mpr hnew)
  have hcanonicals : Access.canonicals (accesses ++ [access]) =
      Access.canonicals accesses ++ [access.canonical] := by
    rw [Access.canonicals_concat, if_neg hnew]
  constructor
  · have hlist : (table.modify access.key access.change).toList =
        table.toList ++ [{ Bucket.keyed access.key with tally := access.change .empty }] := by
      simp only [BucketTable.modify, touch, hindex, toList, Array.toList_modify, Array.toList_push,
        ← Array.length_toList, modify_concat, Bucket.keyed]
    rw [hlist, h.buckets, hcanonicals, List.map_append, List.map_singleton,
      Access.bucketOf_concat_new accesses access hnew]
    congr 1
    apply List.map_congr_left
    intro name hname
    have hne : name ≠ access.canonical := fun heq => hnew (heq ▸ hname)
    rw [Access.bucketOf_concat_of_ne accesses access hne]
  · intro name
    have hinsert : (table.modify access.key access.change).index[name]? =
        if access.canonical = name then some table.buckets.size else table.index[name]? := by
      simp only [BucketTable.modify, touch, hindex, Std.TreeMap.getElem?_insert]
      exact if_congr Std.LawfulEqCmp.compare_eq_iff_eq rfl rfl
    rw [hinsert, hcanonicals, idxOf?_concat, h.index, ← h.size_eq]
    by_cases hname : access.canonical = name
    · have hout : name ∉ Access.canonicals accesses := hname ▸ hnew
      rw [if_pos hname, if_neg hout, if_pos hname, size]
    · by_cases hmem : name ∈ Access.canonicals accesses
      · rw [if_neg hname, if_pos hmem]
      · rw [if_neg hname, if_neg hmem, if_neg hname, List.idxOf?_eq_none_iff.mpr hmem]

/-- One more access keeps the table true to the accesses. -/
theorem Reflects.modify (h : table.Reflects accesses) (access : Access) :
    (table.modify access.key access.change).Reflects (accesses ++ [access]) := by
  by_cases hknown : access.canonical ∈ Access.canonicals accesses
  · exact h.modify_known access hknown
  · exact h.modify_new access hknown

/-- A table that accesses make is true to them. -/
theorem reflects_run (accesses : List Access) : (run accesses).Reflects accesses := by
  induction accesses using List.reverseRecOn with
  | nil => exact reflects_empty
  | append_singleton accesses access ih =>
    rw [run, List.foldl_append, List.foldl_cons, List.foldl_nil]
    exact ih.modify access

end BucketTable

end Rollup
