import Rollup.Aggregate.Record

/-!
# Records with and without a key

The record of a bucket with a key is that of the bucket without one, with the key added; pruning
respects this, since it treats every member on its own and keeps its name.
-/

namespace Rollup

/-- An entry whose key is below all others goes to the front. -/
theorem insertEntry_of_lt {α : Type} {key : String} {entries : List (String × α)}
    (h : ∀ entry ∈ entries, key < entry.1) (value : α) :
    insertEntry key value entries = (key, value) :: entries := by
  cases entries with
  | nil => rfl
  | cons entry entries =>
    obtain ⟨k, v⟩ := entry
    have hlt : key < k := h (k, v) List.mem_cons_self
    rw [insertEntry, if_pos hlt]

/-- The members of a record that tell what was accumulated. -/
def Tally.members (spec : Spec) (tally : Tally) : List (String × Value) :=
  List.filterMap id [
    if spec.stats.isEmpty then none
    else some ("stats",
      .object (tally.stats.entries.map fun (field, stats) => (field, stats.toValue))),
    if spec.total then some ("total", .nat tally.total) else none]

variable (spec : Spec)

/-- The members of a tally have one of two names. -/
theorem Tally.name_of_mem_members {tally : Tally} {member : String × Value}
    (h : member ∈ tally.members spec) : member.1 = "stats" ∨ member.1 = "total" := by
  rw [members, List.mem_filterMap] at h
  obtain ⟨choice, hchoice, hmember⟩ := h
  rw [id_eq] at hmember
  subst hmember
  rcases List.mem_cons.mp hchoice with hstats | htotal
  · split at hstats
    · cases hstats
    · cases hstats
      exact Or.inl rfl
  · rw [List.mem_singleton] at htotal
    split at htotal
    · cases htotal
      exact Or.inr rfl
    · cases htotal

/-- The members of a record: the key if there is one, and what the tally tells. -/
def Bucket.members (bucket : Bucket) : List (String × Value) :=
  (bucket.key.map fun key => ("key", .array key)).toList ++ bucket.tally.members spec

theorem Bucket.toRecord_eq (bucket : Bucket) :
    bucket.toRecord spec = .object (bucket.members spec) := by
  obtain ⟨key, tally⟩ := bucket
  cases key <;> rfl

/-- Pruning keeps the name of a member. -/
theorem Spec.name_of_pruneMember? {member pruned : String × Value}
    (h : spec.pruneMember? member = some pruned) : pruned.1 = member.1 := by
  obtain ⟨name, value⟩ := member
  simp only [pruneMember?] at h
  split at h
  · obtain ⟨stats, _, rfl⟩ := Option.map_eq_some_iff.mp h
    rfl
  · split at h
    · split at h
      · cases h
        rfl
      · cases h
    · cases h
      rfl

/-- A statistic is requested exactly if it is in the set of its field. -/
theorem Spec.requests_eq_true_iff {field name : String} :
    spec.requests field name = true ↔
      ∃ stat set, Stat.ofName? name = some stat ∧ spec.stats.find? field = some set ∧
        set.contains stat = true := by
  rw [requests]
  constructor
  · intro h
    split at h
    · next stat set hstat hset => exact ⟨stat, set, hstat, hset, h⟩
    · cases h
  · rintro ⟨stat, set, hstat, hset, hcontains⟩
    rw [hstat, hset]
    exact hcontains

/-- Pruning keeps the key. -/
theorem Spec.pruneMember?_key (value : Value) :
    spec.pruneMember? ("key", value) = some ("key", value) := rfl

/-- A bucket with a key has the pruned record of the bucket without one, with the key added. -/
theorem Spec.prune_toRecord_keyed (key : List Value) (tally : Tally) :
    ∃ members, spec.prune (Bucket.toRecord spec ⟨none, tally⟩) = .object members ∧
      spec.prune (Bucket.toRecord spec ⟨some key, tally⟩) =
        .object (insertEntry "key" (.array key) members) := by
  have hlt : ∀ member ∈ (tally.members spec).filterMap spec.pruneMember?, "key" < member.1 := by
    intro pruned hpruned
    obtain ⟨member, hmember, hprune⟩ := List.mem_filterMap.mp hpruned
    rw [spec.name_of_pruneMember? hprune]
    rcases Tally.name_of_mem_members spec hmember with hname | hname
    · rw [hname]
      decide
    · rw [hname]
      decide
  refine ⟨(tally.members spec).filterMap spec.pruneMember?, ?_, ?_⟩
  · rw [Bucket.toRecord_eq, prune]
    rfl
  · have hmembers : Bucket.members spec ⟨some key, tally⟩ =
        ("key", .array key) :: tally.members spec := rfl
    rw [Bucket.toRecord_eq, prune, hmembers,
      List.filterMap_cons_some (spec.pruneMember?_key _), insertEntry_of_lt hlt]

end Rollup
