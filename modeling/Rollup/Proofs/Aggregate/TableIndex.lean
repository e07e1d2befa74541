import Mathlib.Data.List.Forall2
import Rollup.Proofs.Aggregate.BucketTable

/-!
# The index of a bucket table

A bucket table keeps its buckets in a list and their positions in an index. Whatever keys were
accessed, the two are in step (`BucketTable.Sound`): the index has every bucket under its canonical
key, with its position, and nothing else. So the next key that is entered is given its own bucket,
and no other bucket changes (`BucketTable.Enters`).
-/

namespace Rollup

/-- The access at a position made a bucket: the bucket has its key, and no access before it has the
same canonical key. -/
def Access.Makes (accesses : List Access) (position : Nat) (bucket : Bucket) : Prop :=
  ∃ access, accesses[position]? = some access ∧ bucket.key = some access.key ∧
    ∀ earlier ∈ accesses.take position, earlier.canonical ≠ access.canonical

/-- The bucket of a canonical key is made where the canonical key first comes up. -/
theorem Access.makes_bucketOf {accesses : List Access} {name : String}
    (h : name ∈ canonicals accesses) :
    Makes accesses ((accesses.map canonical).idxOf name) (bucketOf accesses name) := by
  obtain ⟨first, hfirst⟩ := exists_first_of_mem_canonicals h
  obtain ⟨hname, before, after, haccesses, hbefore⟩ := List.find?_eq_some_iff_append.mp hfirst
  obtain rfl := of_decide_eq_true hname
  have hbefore : ∀ earlier ∈ before, earlier.canonical ≠ first.canonical := by
    intro earlier hearlier
    simpa using hbefore earlier hearlier
  have hnotMem : first.canonical ∉ before.map canonical := by
    intro hin
    obtain ⟨earlier, hearlier, heq⟩ := List.mem_map.mp hin
    exact hbefore earlier hearlier heq
  have hposition : (accesses.map canonical).idxOf first.canonical = before.length := by
    rw [haccesses, List.map_append, List.idxOf_append_of_notMem hnotMem, List.map_cons,
      List.idxOf_cons_self, List.length_map, Nat.add_zero]
  refine ⟨first, ?_, ?_, ?_⟩
  · rw [hposition, haccesses, List.getElem?_append_right (Nat.le_refl _), Nat.sub_self]
    rfl
  · rw [bucketOf, hfirst, Option.map_some]
  · rw [hposition, haccesses, List.take_left' rfl]
    exact hbefore

namespace BucketTable

/-- The buckets and the index of a table are in step with each other and with the accesses that
filled the table. -/
structure Sound (table : BucketTable) (accesses : List Access) : Prop where
  /-- The index has the canonical keys of the buckets, each with the position of its bucket, and no
  other keys. -/
  index : ∀ (name : String) (position : Nat), table.index[name]? = some position ↔
    ∃ bucket : Bucket, table.buckets[position]? = some bucket ∧ bucket.group? = some name
  /-- No look-up leads outside the buckets. -/
  inside : ∀ (name : String) (position : Nat), table.index[name]? = some position →
    position < table.size
  /-- The canonical keys of the buckets are distinct. -/
  distinct : (table.toList.map Bucket.group?).Nodup
  /-- Each bucket was made by the first access to its canonical key, whose key it has, and the
  buckets stand in the order of these accesses. -/
  made : ∃ firsts : List Nat, firsts.Pairwise (· < ·) ∧
    List.Forall₂ (Access.Makes accesses) firsts table.toList
  /-- There is a bucket for every access. -/
  reached : ∀ access ∈ accesses, ∃ bucket ∈ table.toList, bucket.group? = some access.canonical
  /-- All accesses to a bucket changed its tally, in their order, and no others did. -/
  tally : ∀ bucket ∈ table.toList, bucket.tally =
    (accesses.filter fun access => bucket.group? = some access.canonical).foldl
      (fun tally access => access.change tally) .empty

/-- No bucket of the table has the canonical key of a key. -/
def IsNew (table : BucketTable) (key : List Value) : Prop :=
  ∀ bucket ∈ table.toList, bucket.group? ≠ some (Value.canonicalKey key)

/-- What entering a key into a table does, and then changing the tally of the bucket that is handed
out. -/
structure Enters (table : BucketTable) (key : List Value) : Prop where
  /-- The bucket that is handed out has the canonical key of the key. -/
  own : ∃ bucket : Bucket, (table.touch key).1.buckets[(table.touch key).2]? = some bucket ∧
    bucket.group? = some (Value.canonicalKey key)
  /-- All buckets that there are keep their places and stay as they are. -/
  kept : ∀ position < table.size,
    (table.touch key).1.buckets[position]? = table.buckets[position]?
  /-- There is one bucket more exactly if the canonical key is new. -/
  grows : (table.touch key).1.size = table.size + 1 ↔ table.IsNew key
  /-- If it is new, the new bucket comes last, has the key and is empty. -/
  fresh : table.IsNew key → (table.touch key).1.toList = table.toList ++ [.keyed key]
  /-- If it is not new, the table stays as it is. -/
  known : ¬ table.IsNew key → (table.touch key).1 = table
  /-- The change affects the bucket that is handed out and no other. -/
  changes : ∀ change position, (table.modify key change).buckets[position]? =
    if position = (table.touch key).2 then
      (table.touch key).1.buckets[position]?.map fun bucket =>
        { bucket with tally := change bucket.tally }
    else (table.touch key).1.buckets[position]?

variable {table : BucketTable} {accesses : List Access}

theorem getElem?_toList (table : BucketTable) (position : Nat) :
    table.toList[position]? = table.buckets[position]? :=
  Array.getElem?_toList

/-- The buckets of a table have the canonical keys of the accesses. -/
theorem Reflects.map_group?_toList (h : table.Reflects accesses) :
    table.toList.map Bucket.group? = (Access.canonicals accesses).map some := by
  rw [h.buckets, List.map_map]
  exact List.map_congr_left fun name hname => Access.group?_bucketOf hname

/-- A table that is true to accesses has an index that is in step with its buckets. -/
theorem Reflects.index_iff (h : table.Reflects accesses) (name : String) (position : Nat) :
    table.index[name]? = some position ↔
      ∃ bucket : Bucket, table.buckets[position]? = some bucket ∧ bucket.group? = some name := by
  have hnodup : (Access.canonicals accesses).Nodup := nodup_eraseDups _
  have hgroup : (table.buckets[position]?).map Bucket.group? =
      (Access.canonicals accesses)[position]?.map some := by
    rw [← getElem?_toList, ← List.getElem?_map, h.map_group?_toList, List.getElem?_map]
  rw [h.index, idxOf?_eq_some_iff_of_nodup hnodup, ← Option.map_eq_some_iff (f := Bucket.group?),
    hgroup, Option.map_eq_some_iff]
  simp

/-- A table that is true to accesses is in step with them. -/
theorem Reflects.sound (h : table.Reflects accesses) : table.Sound accesses where
  index := h.index_iff
  inside name position hposition := by
    obtain ⟨_, hbucket, -⟩ := (h.index_iff name position).mp hposition
    exact (Array.getElem?_eq_some_iff.mp hbucket).1
  distinct := by
    rw [h.map_group?_toList]
    exact (nodup_eraseDups _).map fun _ _ => Option.some.inj
  made := by
    refine ⟨(Access.canonicals accesses).map (accesses.map Access.canonical).idxOf, ?_, ?_⟩
    · rw [List.pairwise_map]
      exact pairwise_idxOf_eraseDups _
    · rw [h.buckets, List.forall₂_map_left_iff, List.forall₂_map_right_iff, List.forall₂_same]
      exact fun name hname => Access.makes_bucketOf hname
  reached access haccess := by
    have hmem : access.canonical ∈ Access.canonicals accesses :=
      (Access.mem_canonicals accesses).mpr ⟨access, haccess, rfl⟩
    rw [h.buckets]
    exact ⟨_, List.mem_map_of_mem hmem, Access.group?_bucketOf hmem⟩
  tally bucket hbucket := by
    rw [h.buckets, List.mem_map] at hbucket
    obtain ⟨name, hname, rfl⟩ := hbucket
    rw [Access.group?_bucketOf hname]
    simp only [Access.bucketOf, Option.some.injEq, eq_comm]

/-- A key that the index knows is handed the position of its bucket, and the table stays. -/
theorem touch_of_known {key : List Value} {position : Nat}
    (h : table.index[Value.canonicalKey key]? = some position) :
    table.touch key = (table, position) := by
  simp only [touch, h]

/-- A key that the index does not know is handed the position of a new bucket at the end. -/
theorem touch_of_new {key : List Value} (h : table.index[Value.canonicalKey key]? = none) :
    (table.touch key).1.buckets = table.buckets.push (.keyed key) ∧
      (table.touch key).2 = table.size := by
  simp only [touch, h, size, and_self]

/-- A key is new exactly if the index does not know it. -/
theorem Sound.isNew_iff (h : table.Sound accesses) (key : List Value) :
    table.IsNew key ↔ table.index[Value.canonicalKey key]? = none := by
  rw [Option.eq_none_iff_forall_ne_some]
  constructor
  · intro hnew position hposition
    obtain ⟨bucket, hbucket, hgroup⟩ := (h.index _ position).mp hposition
    rw [← getElem?_toList] at hbucket
    exact hnew bucket (List.mem_of_getElem? hbucket) hgroup
  · intro hnone bucket hbucket hgroup
    obtain ⟨position, hposition⟩ := List.mem_iff_getElem?.mp hbucket
    rw [getElem?_toList] at hposition
    exact hnone position ((h.index _ position).mpr ⟨bucket, hposition, hgroup⟩)

/-- Changing the tally of the bucket of a key affects the bucket that is handed out for it. -/
theorem getElem?_modify (table : BucketTable) (key : List Value) (change : Tally → Tally)
    (position : Nat) :
    (table.modify key change).buckets[position]? =
      if position = (table.touch key).2 then
        (table.touch key).1.buckets[position]?.map fun bucket =>
          { bucket with tally := change bucket.tally }
      else (table.touch key).1.buckets[position]? := by
  rw [modify, Array.getElem?_modify]
  exact if_congr eq_comm rfl rfl

/-- Entering a key that the index knows hands out the bucket at its position. -/
theorem Sound.enters_of_known (h : table.Sound accesses) {key : List Value} {position : Nat}
    (hindex : table.index[Value.canonicalKey key]? = some position) : table.Enters key := by
  have htouch := touch_of_known hindex
  have hknown : ¬ table.IsNew key := by
    rw [h.isNew_iff, hindex]
    exact Option.some_ne_none position
  exact {
    own := by
      rw [htouch]
      exact (h.index _ position).mp hindex
    kept := fun _ _ => by rw [htouch]
    grows := by
      rw [htouch]
      exact iff_of_false (Nat.ne_of_lt (Nat.lt_succ_self _)) hknown
    fresh := fun hnew => absurd hnew hknown
    known := fun _ => by rw [htouch]
    changes := table.getElem?_modify key }

/-- Entering a key that the index does not know hands out a new bucket. -/
theorem Sound.enters_of_new (h : table.Sound accesses) {key : List Value}
    (hindex : table.index[Value.canonicalKey key]? = none) : table.Enters key := by
  obtain ⟨hbuckets, hposition⟩ := touch_of_new hindex
  have hnew : table.IsNew key := (h.isNew_iff key).mpr hindex
  exact {
    own := by
      rw [hbuckets, hposition, size, Array.getElem?_push_size]
      exact ⟨_, rfl, rfl⟩
    kept := by
      intro position hlt
      have hne : position ≠ table.buckets.size := Nat.ne_of_lt hlt
      rw [hbuckets, Array.getElem?_push, if_neg hne]
    grows := by
      rw [size, hbuckets, Array.size_push]
      exact iff_of_true rfl hnew
    fresh := by
      intro _
      rw [toList, hbuckets, Array.toList_push]
      rfl
    known := fun hknown => absurd hnew hknown
    changes := table.getElem?_modify key }

/-- Into a table that is in step a key is entered at its own bucket. -/
theorem Sound.enters (h : table.Sound accesses) (key : List Value) : table.Enters key := by
  cases hindex : table.index[Value.canonicalKey key]? with
  | some position => exact h.enters_of_known hindex
  | none => exact h.enters_of_new hindex

/-- Whatever was accessed, the index of a table is in step with its buckets and these with the
accesses, and the next key is entered at its own bucket. -/
theorem sound_run_and_enters (accesses : List Access) :
    (run accesses).Sound accesses ∧ ∀ key, (run accesses).Enters key := by
  have hsound := (reflects_run accesses).sound
  exact ⟨hsound, hsound.enters⟩

example :
    let count : Tally → Tally := fun tally => { tally with total := tally.total + 1 }
    let keys : List Value := [.string "dog", .string "1", .string "dog", .int 1, .null]
    (run (keys.map fun key => ⟨[key], count⟩)).toList.map
        (fun bucket => (bucket.key, bucket.tally.total)) =
      [(some [.string "dog"], 2), (some [.string "1"], 1), (some [.int 1], 1),
        (some [.null], 1)] := by
  decide +kernel

end BucketTable

end Rollup
