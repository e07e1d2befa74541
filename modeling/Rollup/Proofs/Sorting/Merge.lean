import Mathlib.Data.List.Chain
import Rollup.Sorting.Merge

/-!
# Merging without an order

Merging keeps every item, whatever is asked of the items. If of two items at least one may stay in
front of the other, merging also keeps runs ordered from neighbour to neighbour. Nothing here needs
a transitive comparison.
-/

namespace Rollup

universe u

variable {α : Type u} {keeps : α → α → Bool}

/-- Every two neighbours of a run may stay as they are. -/
def Ordered (keeps : α → α → Bool) (run : List α) : Prop :=
  run.IsChain fun left right => keeps left right = true

theorem ordered_cons {item : α} {run : List α} :
    Ordered keeps (item :: run) ↔
      (∀ next ∈ run.head?, keeps item next = true) ∧ Ordered keeps run :=
  List.isChain_cons

theorem ordered_singleton (item : α) : Ordered keeps [item] :=
  List.isChain_singleton item

/-- A merged list starts with the start of one of the two lists. -/
theorem head?_merge_subset (xs ys : List α) {item : α} (h : item ∈ (xs.merge ys keeps).head?) :
    item ∈ xs.head? ∨ item ∈ ys.head? := by
  cases xs with
  | nil =>
    rw [List.nil_merge] at h
    exact Or.inr h
  | cons x xs =>
    cases ys with
    | nil =>
      rw [List.merge_right] at h
      exact Or.inl h
    | cons y ys =>
      rw [List.cons_merge_cons] at h
      split at h
      · exact Or.inl h
      · exact Or.inr h

/-- Merging two ordered runs gives an ordered run: an item that goes in front of the other run may
stay in front of its head, either because that was asked or because the head may not stay in front
of it. -/
theorem Ordered.merge (htotal : ∀ a b, keeps a b = true ∨ keeps b a = true) {xs ys : List α}
    (hx : Ordered keeps xs) (hy : Ordered keeps ys) : Ordered keeps (xs.merge ys keeps) := by
  induction xs generalizing ys with
  | nil =>
    rw [List.nil_merge]
    exact hy
  | cons x xs ihx =>
    induction ys with
    | nil =>
      rw [List.merge_right]
      exact hx
    | cons y ys ihy =>
      obtain ⟨hxhead, hxs⟩ := ordered_cons.mp hx
      obtain ⟨hyhead, hys⟩ := ordered_cons.mp hy
      by_cases h : keeps x y = true
      · rw [List.cons_merge_cons_pos keeps xs ys h]
        refine ordered_cons.mpr ⟨?_, ihx hxs hy⟩
        intro next hnext
        rcases head?_merge_subset xs (y :: ys) hnext with hnext | hnext
        · exact hxhead next hnext
        · rw [List.head?_cons, Option.mem_some_iff] at hnext
          exact hnext ▸ h
      · rw [List.cons_merge_cons_neg keeps xs ys h]
        refine ordered_cons.mpr ⟨?_, ihy hys⟩
        intro next hnext
        rcases head?_merge_subset (x :: xs) ys hnext with hnext | hnext
        · rw [List.head?_cons, Option.mem_some_iff] at hnext
          exact hnext ▸ (htotal x y).resolve_left h
        · exact hyhead next hnext

/-- Merging runs in pairs loses and doubles nothing. -/
theorem flatten_mergePairs_perm (runs : List (List α)) :
    (mergePairs keeps runs).flatten.Perm runs.flatten := by
  fun_induction mergePairs keeps runs with
  | case1 left right runs ih =>
    simp only [List.flatten_cons, ← List.append_assoc]
    exact (List.merge_perm_append keeps).append ih
  | case2 runs h => exact List.Perm.refl _

/-- Merging runs in pairs keeps what any two runs pass on to their merged run. -/
theorem forall_mem_mergePairs {p : List α → Prop}
    (hmerge : ∀ xs ys, p xs → p ys → p (xs.merge ys keeps)) (runs : List (List α))
    (hruns : ∀ run ∈ runs, p run) : ∀ run ∈ mergePairs keeps runs, p run := by
  fun_induction mergePairs keeps runs with
  | case1 left right runs ih =>
    have hleft := hruns left List.mem_cons_self
    have hright := hruns right (List.mem_cons_of_mem _ List.mem_cons_self)
    have hrest := ih fun run hrun =>
      hruns run (List.mem_cons_of_mem _ (List.mem_cons_of_mem _ hrun))
    intro run hrun
    rcases List.mem_cons.mp hrun with rfl | hrun
    · exact hmerge left right hleft hright
    · exact hrest run hrun
  | case2 runs h => exact hruns

/-- Merging runs down to one loses and doubles nothing. -/
theorem mergeRuns_perm (runs : List (List α)) : (mergeRuns keeps runs).Perm runs.flatten := by
  fun_induction mergeRuns keeps runs with
  | case1 => exact List.Perm.refl _
  | case2 run => simp
  | case3 left right runs ih => exact ih.trans (flatten_mergePairs_perm _)

/-- Merging runs down to one keeps what any two runs pass on to their merged run. -/
theorem mergeRuns_induction {p : List α → Prop} (hnil : p [])
    (hmerge : ∀ xs ys, p xs → p ys → p (xs.merge ys keeps)) (runs : List (List α))
    (hruns : ∀ run ∈ runs, p run) : p (mergeRuns keeps runs) := by
  fun_induction mergeRuns keeps runs with
  | case1 => exact hnil
  | case2 run => exact hruns run List.mem_cons_self
  | case3 left right runs ih => exact ih (forall_mem_mergePairs hmerge _ hruns)

/-- Merging ordered runs down to one gives an ordered run. -/
theorem ordered_mergeRuns (htotal : ∀ a b, keeps a b = true ∨ keeps b a = true)
    (runs : List (List α)) (hruns : ∀ run ∈ runs, Ordered keeps run) :
    Ordered keeps (mergeRuns keeps runs) :=
  mergeRuns_induction List.isChain_nil (fun _ _ => Ordered.merge htotal) runs hruns

/-- Merging runs in pairs, if no two of their items ever change places, only joins them. -/
theorem flatten_mergePairs_of_keeps (runs : List (List α))
    (hkeeps : ∀ a ∈ runs.flatten, ∀ b ∈ runs.flatten, keeps a b = true) :
    (mergePairs keeps runs).flatten = runs.flatten := by
  fun_induction mergePairs keeps runs with
  | case1 left right runs ih =>
    have hmerge : left.merge right keeps = left ++ right := by
      apply List.merge_of_le
      intro a b ha hb
      exact hkeeps a (by simp [ha]) b (by simp [hb])
    have hrest := ih fun a ha b hb =>
      hkeeps a (by simp [List.mem_flatten.mp ha]) b (by simp [List.mem_flatten.mp hb])
    simp only [List.flatten_cons, hmerge, hrest, List.append_assoc]
  | case2 runs h => rfl

/-- Merging runs, if no two of their items ever change places, only joins them. -/
theorem mergeRuns_of_keeps (runs : List (List α))
    (hkeeps : ∀ a ∈ runs.flatten, ∀ b ∈ runs.flatten, keeps a b = true) :
    mergeRuns keeps runs = runs.flatten := by
  fun_induction mergeRuns keeps runs with
  | case1 => rfl
  | case2 run => simp
  | case3 left right runs ih =>
    have hjoin := flatten_mergePairs_of_keeps _ hkeeps
    rw [ih (hjoin.symm ▸ hkeeps), hjoin]

section StableSort

variable (compare : α → α → Ordering) (items : List α)

private theorem flatten_map_singleton : (items.map fun item => [item]).flatten = items := by
  rw [← List.flatMap_def, List.flatMap_singleton']

/-- A sorted list holds the same items as before, each as often. -/
theorem stableSort_perm : (stableSort compare items).Perm items := by
  have h : (stableSort compare items).Perm (items.map fun item => [item]).flatten :=
    mergeRuns_perm _
  rwa [flatten_map_singleton] at h

/-- In a sorted list no item is less than its left neighbour, if of two items at most one is
less. -/
theorem isChain_stableSort (hasymm : ∀ a b, compare a b = .lt → compare b a ≠ .lt) :
    (stableSort compare items).IsChain fun left right => compare right left ≠ .lt := by
  have htotal : ∀ a b, (compare b a != .lt) = true ∨ (compare a b != .lt) = true := by
    intro a b
    by_cases h : compare b a = .lt
    · exact Or.inr (bne_iff_ne.mpr (hasymm b a h))
    · exact Or.inl (bne_iff_ne.mpr h)
  have hsingle : ∀ run ∈ items.map fun item => [item],
      Ordered (fun left right => compare right left != .lt) run := by
    intro run hrun
    obtain ⟨item, _, rfl⟩ := List.mem_map.mp hrun
    exact ordered_singleton item
  refine (ordered_mergeRuns htotal _ hsingle).imp ?_
  intro left right h
  exact bne_iff_ne.mp h

/-- A list in which no item is less than another stays as it is. -/
theorem stableSort_eq_self (h : ∀ a ∈ items, ∀ b ∈ items, compare a b ≠ .lt) :
    stableSort compare items = items := by
  have hjoin := flatten_map_singleton items
  rw [stableSort, mergeRuns_of_keeps, hjoin]
  rw [hjoin]
  intro a ha b hb
  exact bne_iff_ne.mpr (h b hb a ha)

/-- Of two items the second comes first if it is less. -/
theorem stableSort_pair (a b : α) :
    stableSort compare [a, b] = if compare b a = .lt then [b, a] else [a, b] := by
  by_cases h : compare b a = .lt <;> simp [stableSort, mergeRuns, mergePairs, h]

end StableSort

end Rollup
