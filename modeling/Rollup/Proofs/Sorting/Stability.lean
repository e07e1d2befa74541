import Mathlib.Order.Defs.Unbundled
import Mathlib.Tactic.Choose
import Rollup.Proofs.Sorting.SortKey

/-!
# Stable sorting

Where being less is a strict weak order on the items to be sorted, merging their runs gives the one
arrangement in which no item is less than an earlier one and equal items keep their order. Items may
occur several times, so an arrangement is a list of items with the positions that they had.
-/

namespace Rollup

universe u v

variable {α : Type u} {β : Type v}

/-- The items with their old positions in a new order: none is less than an earlier one, and those
that compare as equal are in their old order. -/
structure IsStableOrder (compare : α → α → Ordering) (items : List α) (order : List (α × Nat)) :
    Prop where
  /-- Every item occurs once, with its position. -/
  perm : order.Perm items.zipIdx
  /-- No item is less than an earlier one. -/
  sorted : order.Pairwise fun first second => compare second.1 first.1 ≠ .lt
  /-- Items that compare as equal are in their old order. -/
  stable : order.Pairwise fun first second => compare first.1 second.1 = .eq → first.2 < second.2

/-- There is one stable order at most: of two items that both may come before the other, neither is
less, so both would have been before the other. -/
theorem IsStableOrder.unique {compare : α → α → Ordering}
    (hswap : ∀ a b, (compare a b).swap = compare b a) {items : List α}
    {order other : List (α × Nat)} (horder : IsStableOrder compare items order)
    (hother : IsStableOrder compare items other) : other = order := by
  refine List.Perm.eq_of_pairwise ?_ (hother.sorted.and hother.stable)
    (horder.sorted.and horder.stable) (hother.perm.trans horder.perm.symm)
  rintro a b - - ⟨hba, hab⟩ ⟨hab', hba'⟩
  have heq : compare a.1 b.1 = .eq := by
    rw [← hswap] at hba
    cases h : compare a.1 b.1 <;> simp_all
  have heq' : compare b.1 a.1 = .eq := by
    rw [← hswap, heq]
    rfl
  exact absurd (hab heq) (Nat.lt_asymm (hba' heq'))

section Change

variable {r : α → α → Bool} {s : β → β → Bool} {f : α → β}

/-- Merging runs in pairs and changing their items is changing the items first, if both ways ask the
same of them. -/
theorem map_mergePairs (h : ∀ a b, r a b = s (f a) (f b)) (runs : List (List α)) :
    (mergePairs r runs).map (List.map f) = mergePairs s (runs.map (List.map f)) := by
  fun_induction mergePairs r runs with
  | case1 left right runs ih =>
    rw [List.map_cons, List.map_merge fun a _ b _ => h a b, ih]
    rfl
  | case2 runs hshort =>
    rcases runs with _ | ⟨a, _ | ⟨b, rest⟩⟩
    · rfl
    · rfl
    · exact absurd rfl (hshort a b rest)

/-- Merging runs down to one and changing their items is changing the items first. -/
theorem map_mergeRuns (h : ∀ a b, r a b = s (f a) (f b)) (runs : List (List α)) :
    (mergeRuns r runs).map f = mergeRuns s (runs.map (List.map f)) := by
  fun_induction mergeRuns r runs with
  | case1 => simp [mergeRuns]
  | case2 run => simp [mergeRuns]
  | case3 left right runs ih =>
    rw [ih, map_mergePairs h]
    simp [mergeRuns]

/-- Sorting and changing the items is changing the items first. -/
theorem map_stableSort {compare : α → α → Ordering} (other : β → β → Ordering)
    (h : ∀ a b, compare a b = other (f a) (f b)) (items : List α) :
    (stableSort compare items).map f = stableSort other (items.map f) := by
  have hkeeps : ∀ a b, (compare b a != .lt) = (fun c d => other d c != .lt) (f a) (f b) := by
    intro a b
    rw [h]
  rw [stableSort, map_mergeRuns (s := fun c d => other d c != .lt) hkeeps, List.map_map, stableSort,
    List.map_map]
  rfl

end Change

section Positions

variable (keeps : α → α → Bool)

/-- The items of every run come from before those of the runs behind it. -/
def InOrder (runs : List (List (α × Nat))) : Prop :=
  runs.Pairwise fun left right => ∀ a ∈ left, ∀ b ∈ right, a.2 < b.2

/-- Where the items of one run come from before those of another, merging them by comparison alone
is merging them by comparison and position. -/
theorem merge_eq_merge_zipIdxLE {left right : List (α × Nat)}
    (h : ∀ a ∈ left, ∀ b ∈ right, a.2 < b.2) :
    (left.merge right fun a b => keeps a.1 b.1) = left.merge right (List.zipIdxLE keeps) := by
  have hsame : ∀ a ∈ left, ∀ b ∈ right, keeps a.1 b.1 = List.zipIdxLE keeps a b := by
    intro a ha b hb
    have hle : a.2 ≤ b.2 := Nat.le_of_lt (h a ha b hb)
    simp [List.zipIdxLE, hle]
  simpa using List.map_merge (f := id) hsame

/-- Runs that are merged in pairs stay in order. -/
theorem InOrder.mergePairs (le : α × Nat → α × Nat → Bool) {runs : List (List (α × Nat))}
    (h : InOrder runs) : InOrder (mergePairs le runs) := by
  fun_induction Rollup.mergePairs le runs with
  | case1 left right runs ih =>
    obtain ⟨hleft, hrest⟩ := List.pairwise_cons.mp h
    obtain ⟨hright, hruns⟩ := List.pairwise_cons.mp hrest
    refine List.pairwise_cons.mpr ⟨?_, ih hruns⟩
    apply forall_mem_mergePairs
    · intro xs ys hxs hys a ha b hb
      exact (List.mem_merge.mp hb).elim (hxs a ha b) (hys a ha b)
    · intro run hrun a ha b hb
      rcases List.mem_merge.mp ha with ha | ha
      · exact hleft run (List.mem_cons_of_mem _ hrun) a ha b hb
      · exact hright run hrun a ha b hb
  | case2 runs _ => exact h

/-- Merging runs in order in pairs by comparison alone is merging them by comparison and
position. -/
theorem InOrder.mergePairs_eq {runs : List (List (α × Nat))} (h : InOrder runs) :
    Rollup.mergePairs (fun a b => keeps a.1 b.1) runs =
      Rollup.mergePairs (List.zipIdxLE keeps) runs := by
  fun_induction Rollup.mergePairs (List.zipIdxLE keeps) runs with
  | case1 left right runs ih =>
    obtain ⟨hleft, hrest⟩ := List.pairwise_cons.mp h
    rw [Rollup.mergePairs, merge_eq_merge_zipIdxLE keeps (hleft right List.mem_cons_self),
      ih (List.pairwise_cons.mp hrest).2]
  | case2 runs hshort =>
    rcases runs with _ | ⟨a, _ | ⟨b, rest⟩⟩
    · rfl
    · rfl
    · exact absurd rfl (hshort a b rest)

/-- Merging runs in order down to one by comparison alone is merging them by comparison and
position. -/
theorem InOrder.mergeRuns_eq {runs : List (List (α × Nat))} (h : InOrder runs) :
    mergeRuns (fun a b => keeps a.1 b.1) runs = mergeRuns (List.zipIdxLE keeps) runs := by
  fun_induction mergeRuns (List.zipIdxLE keeps) runs with
  | case1 => rw [mergeRuns]
  | case2 run => rw [mergeRuns]
  | case3 left right runs ih => rw [mergeRuns, h.mergePairs_eq keeps, ih (h.mergePairs _)]

/-- The items of a list, each a run of its own, are in order. -/
theorem inOrder_singletons (items : List α) : InOrder (items.zipIdx.map fun item => [item]) := by
  have hpositions : (items.zipIdx.map Prod.snd).Pairwise (· < ·) := by
    rw [List.zipIdx_map_snd]
    exact List.pairwise_lt_range'
  rw [InOrder, List.pairwise_map]
  rw [List.pairwise_map] at hpositions
  refine hpositions.imp ?_
  simp

/-- Merging runs by a total and transitive comparison sorts them. -/
theorem pairwise_mergeRuns {le : α → α → Bool} (htrans : ∀ a b c, le a b → le b c → le a c)
    (htotal : ∀ a b, le a b || le b a) (runs : List (List α))
    (hruns : ∀ run ∈ runs, run.Pairwise fun a b => le a b = true) :
    (mergeRuns le runs).Pairwise fun a b => le a b = true :=
  mergeRuns_induction .nil (List.pairwise_merge htrans htotal) runs hruns

end Positions

section StrictWeakOrder

/-- In a strict weak order not being less is transitive. -/
theorem not_less_trans (less : α → α → Prop) [IsStrictWeakOrder α less] {a b c : α}
    (hba : ¬ less b a) (hcb : ¬ less c b) : ¬ less c a := by
  intro hca
  have hab : ¬ less a b := fun hab => hcb (IsTrans.trans c a b hca hab)
  have hbc : ¬ less b c := fun hbc => hba (IsTrans.trans b c a hbc hca)
  exact (IsStrictWeakOrder.incomp_trans a b c ⟨hab, hba⟩ ⟨hbc, hcb⟩).2 hca

variable (compare : α → α → Ordering) [IsStrictWeakOrder α fun a b => compare a b = .lt]

/-- If being less is a strict weak order, sorting items with their positions orders them by
comparison and position. -/
theorem pairwise_stableSort_zipIdx (items : List α) :
    (stableSort (fun a b => compare a.1 b.1) items.zipIdx).Pairwise fun a b =>
      List.zipIdxLE (fun a b => compare b a != .lt) a b = true := by
  have htrans : ∀ a b c, (compare b a != .lt) = true → (compare c b != .lt) = true →
      (compare c a != .lt) = true := by
    intro a b c hab hbc
    rw [bne_iff_ne] at hab hbc ⊢
    exact not_less_trans (fun a b => compare a b = .lt) hab hbc
  have htotal : ∀ a b, (compare b a != .lt || compare a b != .lt) = true := by
    intro a b
    by_cases hab : compare a b = .lt
    · have hba : compare b a ≠ .lt := asymm (r := fun a b => compare a b = .lt) hab
      simp [hba]
    · simp [hab]
  have hsingle : ∀ run ∈ items.zipIdx.map fun item => [item], run.Pairwise fun a b =>
      List.zipIdxLE (fun a b => compare b a != .lt) a b = true := by
    intro run hrun
    obtain ⟨item, _, rfl⟩ := List.mem_map.mp hrun
    exact List.pairwise_singleton _ item
  rw [stableSort, (inOrder_singletons items).mergeRuns_eq fun a b => compare b a != .lt]
  exact pairwise_mergeRuns (List.zipIdxLE_trans htrans) (List.zipIdxLE_total htotal) _ hsingle

/-- If being less is a strict weak order, sorting gives a stable order. -/
theorem exists_isStableOrder (items : List α) :
    ∃ order, IsStableOrder compare items order ∧ order.map Prod.fst = stableSort compare items := by
  have hperm := stableSort_perm (fun a b : α × Nat => compare a.1 b.1) items.zipIdx
  have horder := pairwise_stableSort_zipIdx compare items
  have hdistinct : ((stableSort (fun a b : α × Nat => compare a.1 b.1) items.zipIdx).map
      Prod.snd).Nodup := by
    rw [(hperm.map Prod.snd).nodup_iff, List.zipIdx_map_snd]
    exact List.nodup_range'
  rw [List.Nodup, List.pairwise_map] at hdistinct
  refine ⟨stableSort (fun a b => compare a.1 b.1) items.zipIdx, ⟨hperm, ?_, ?_⟩, ?_⟩
  · refine horder.imp ?_
    intro a b hab
    simp only [List.zipIdxLE] at hab
    split at hab
    · next hkeeps => exact bne_iff_ne.mp hkeeps
    · cases hab
  · refine (horder.and hdistinct).imp ?_
    rintro a b ⟨hab, hne⟩ heq
    -- Both may stay in front of the other, so only their positions tell them apart.
    have hkeeps : (compare a.1 b.1 != .lt) = true := by simp [heq]
    simp only [List.zipIdxLE, hkeeps, if_true] at hab
    split at hab
    · exact Nat.lt_of_le_of_ne (of_decide_eq_true hab) hne
    · cases hab
  · rw [map_stableSort compare (fun _ _ => rfl), List.zipIdx_map_fst]

end StrictWeakOrder

section Restricted

variable {compare : α → α → Ordering}

/-- A stable order of items gives one of the items that they stand for. -/
theorem IsStableOrder.map {f : β → α} {items : List β} {order : List (β × Nat)}
    (h : IsStableOrder (fun a b => compare (f a) (f b)) items order) :
    IsStableOrder compare (items.map f) (order.map (Prod.map f id)) where
  perm := by
    rw [List.zipIdx_map]
    exact h.perm.map _
  sorted := List.pairwise_map.mpr h.sorted
  stable := List.pairwise_map.mpr h.stable

/-- If being less is a strict weak order on the items, sorting them gives a stable order. -/
theorem exists_isStableOrder_of_mem {items : List α}
    (hweak : IsStrictWeakOrder {item // item ∈ items} fun a b => compare a.1 b.1 = .lt) :
    ∃ order, IsStableOrder compare items order ∧ order.map Prod.fst = stableSort compare items := by
  obtain ⟨order, hstable, hsorted⟩ := exists_isStableOrder
    (fun a b : {item // item ∈ items} => compare a.1 b.1) items.attach
  refine ⟨order.map (Prod.map Subtype.val id), ?_, ?_⟩
  · have hmap := hstable.map
    rwa [List.attach_map_subtype_val] at hmap
  · have hfst : (order.map (Prod.map Subtype.val id)).map Prod.fst =
        (order.map Prod.fst).map Subtype.val := by
      rw [List.map_map, List.map_map]
      rfl
    rw [hfst, hsorted, map_stableSort compare fun _ _ => rfl,
      List.attach_map_subtype_val]

end Restricted

section Records

/-- All of some records have integers at a path, or all have strings, or all have booleans. -/
def OneKindAt (path : String) (records : List Value) : Prop :=
  (∀ record ∈ records, ∃ n, record.resolve? path = some (.int n)) ∨
    (∀ record ∈ records, ∃ text, record.resolve? path = some (.string text)) ∨
    ∀ record ∈ records, ∃ flag, record.resolve? path = some (.bool flag)

variable {records : List Value}

/-- Under an ascending key records compare as what they have at its path. -/
theorem SortKey.transCmp_ascending {γ : Type} [Ord γ] [Std.TransOrd γ] {value : γ → Value}
    (hvalue : ∀ x y, (value x).compare? (value y) = some (Ord.compare x y)) {path : String}
    (h : ∀ record ∈ records, ∃ x, record.resolve? path = some (value x)) :
    Std.TransCmp fun a b : {record // record ∈ records} =>
      SortKey.compare ⟨path, .ascending⟩ a.1 b.1 := by
  choose part hpart using h
  have hcompare : (fun a b : {record // record ∈ records} =>
      SortKey.compare ⟨path, .ascending⟩ a.1 b.1) =
        compareOn fun record : {record // record ∈ records} => part record.1 record.2 := by
    funext a b
    simp only [SortKey.compare, hpart a.1 a.2, hpart b.1 b.2, hvalue, compareOn,
      Option.getD_some]
  rw [hcompare]
  infer_instance

/-- Records of one kind at the path of a key are ordered by it. -/
theorem SortKey.transCmp_of_oneKindAt {key : SortKey} (h : OneKindAt key.path records) :
    Std.TransCmp fun a b : {record // record ∈ records} => key.compare a.1 b.1 := by
  obtain ⟨path, direction⟩ := key
  have hascending : Std.TransCmp fun a b : {record // record ∈ records} =>
      SortKey.compare ⟨path, .ascending⟩ a.1 b.1 := by
    rcases h with h | h | h
    · exact transCmp_ascending (fun _ _ => rfl) h
    · exact transCmp_ascending (fun _ _ => rfl) h
    · exact transCmp_ascending (fun _ _ => rfl) h
  cases direction with
  | ascending => exact hascending
  | descending =>
    have hswap : (fun a b : {record // record ∈ records} =>
        SortKey.compare ⟨path, .descending⟩ a.1 b.1) =
          fun a b => SortKey.compare ⟨path, .ascending⟩ b.1 a.1 := by
      funext a b
      exact SortKey.compare_swap ⟨path, .ascending⟩ a.1 b.1
    rw [hswap]
    exact .opposite

/-- Records of one kind at the path of every key are ordered by the keys. -/
theorem transCmp_compareRecords {keys : List SortKey}
    (h : ∀ key ∈ keys, OneKindAt key.path records) :
    Std.TransCmp fun a b : {record // record ∈ records} => compareRecords keys a.1 b.1 := by
  induction keys with
  | nil => exact { eq_swap := rfl, isLE_trans := fun _ _ => rfl }
  | cons key keys ih =>
    obtain ⟨hkey, hkeys⟩ := List.forall_mem_cons.mp h
    have hfirst := SortKey.transCmp_of_oneKindAt hkey
    have hrest := ih hkeys
    have hlex : (fun a b : {record // record ∈ records} => compareRecords (key :: keys) a.1 b.1) =
        compareLex (fun a b => key.compare a.1 b.1) fun a b => compareRecords keys a.1 b.1 := by
      funext a b
      exact compareRecords_cons key keys a.1 b.1
    rw [hlex]
    infer_instance

/-- A transitive comparison makes being less a strict weak order. -/
theorem isStrictWeakOrder_of_transCmp {cmp : α → α → Ordering} (h : Std.TransCmp cmp) :
    IsStrictWeakOrder α fun a b => cmp a b = .lt where
  irrefl a := by simp [Std.ReflCmp.compare_self]
  trans _ _ _ := Std.TransCmp.lt_trans
  incomp_trans a b c hab hbc := by
    have heq : ∀ x y, ¬ cmp x y = .lt ∧ ¬ cmp y x = .lt → cmp x y = .eq := by
      rintro x y ⟨hxy, hyx⟩
      have hswap : cmp y x = (cmp x y).swap := Std.OrientedCmp.eq_swap
      rw [hswap] at hyx
      cases hcmp : cmp x y <;> simp_all
    have hac := Std.TransCmp.eq_trans (heq a b hab) (heq b c hbc)
    have hca := Std.OrientedCmp.eq_symm hac
    simp [hac, hca]

end Records

/-- Sorting records is the stable sort wherever there is one. If being less under the keys is a
strict weak order on the records, which it is if at the path of every key they have integers only,
or strings only, or booleans only, then the sorted records are the one arrangement in which no
record is less than an earlier one and records that compare as equal keep their order. -/
theorem sortRecords_isStableOrder (keys : List SortKey) (records : List Value) :
    ((∀ key ∈ keys, OneKindAt key.path records) →
      IsStrictWeakOrder {record // record ∈ records} fun a b =>
        compareRecords keys a.1 b.1 = .lt) ∧
    ((IsStrictWeakOrder {record // record ∈ records} fun a b =>
        compareRecords keys a.1 b.1 = .lt) →
      ∃ order, IsStableOrder (compareRecords keys) records order ∧
        order.map Prod.fst = sortRecords keys records ∧
        ∀ other, IsStableOrder (compareRecords keys) records other → other = order) := by
  constructor
  · intro hkinds
    exact isStrictWeakOrder_of_transCmp (transCmp_compareRecords hkinds)
  · intro hweak
    obtain ⟨order, hstable, hsorted⟩ := exists_isStableOrder_of_mem hweak
    refine ⟨order, hstable, hsorted, ?_⟩
    intro other hother
    exact hstable.unique (compareRecords_swap keys) hother

/-- A record with a name, a rank and a group. -/
def rankedRecord (name : String) (rank : Int) (group : String) : Value :=
  .object [("group", .string group), ("name", .string name), ("rank", .int rank)]

/-- Records of two ranks and two groups, two of which have both in common. -/
def rankedRecords : List Value := [
  rankedRecord "gamma" 2 "x", rankedRecord "beta" 1 "x", rankedRecord "delta" 1 "y",
  rankedRecord "alpha" 1 "x"]

/-- By rank, then by group with the last one first. -/
def byRankThenGroup : List SortKey := [⟨"rank", .ascending⟩, ⟨"group", .descending⟩]

/-- The ranked records are sorted by rank and by group; the two that have both in common keep their
order. -/
theorem sortRecords_rankedRecords :
    (∀ key ∈ byRankThenGroup, OneKindAt key.path rankedRecords) ∧
    sortRecords byRankThenGroup rankedRecords = [
      rankedRecord "delta" 1 "y", rankedRecord "beta" 1 "x", rankedRecord "alpha" 1 "x",
      rankedRecord "gamma" 2 "x"] := by
  have hkinds : ∀ key ∈ byRankThenGroup, OneKindAt key.path rankedRecords := by
    have hrank : OneKindAt "rank" rankedRecords := by
      refine Or.inl ?_
      simp only [rankedRecords, List.forall_mem_cons]
      exact ⟨⟨2, rfl⟩, ⟨1, rfl⟩, ⟨1, rfl⟩, ⟨1, rfl⟩, List.forall_mem_nil _⟩
    have hgroup : OneKindAt "group" rankedRecords := by
      refine Or.inr (Or.inl ?_)
      simp only [rankedRecords, List.forall_mem_cons]
      exact ⟨⟨"x", rfl⟩, ⟨"x", rfl⟩, ⟨"y", rfl⟩, ⟨"x", rfl⟩, List.forall_mem_nil _⟩
    exact List.forall_mem_cons.mpr ⟨hrank, List.forall_mem_cons.mpr ⟨hgroup, List.forall_mem_nil _⟩⟩
  have h := sortRecords_isStableOrder byRankThenGroup rankedRecords
  obtain ⟨order, -, hsorted, hunique⟩ := h.2 (h.1 hkinds)
  have hstable : IsStableOrder (compareRecords byRankThenGroup) rankedRecords [
      (rankedRecord "delta" 1 "y", 2), (rankedRecord "beta" 1 "x", 1),
      (rankedRecord "alpha" 1 "x", 3), (rankedRecord "gamma" 2 "x", 0)] :=
    ⟨by decide +kernel, by decide +kernel, by decide +kernel⟩
  refine ⟨hkinds, ?_⟩
  rw [← hsorted, ← hunique _ hstable]
  rfl

end Rollup
