import Mathlib.Data.List.Induction
import Mathlib.Data.List.Nodup

/-!
# Distinct items and their positions

The distinct items of a list stand in the order in which they first come up, and the position of one
of them is where it stands. Changing a list at the position of an item changes that item and no
other.
-/

namespace Rollup

section Concat

variable {α : Type} (seen : List α) (item : α)

/-- Changing a list at the position of an item that was added changes that item. -/
theorem modify_concat (change : α → α) :
    (seen ++ [item]).modify seen.length change = seen ++ [change item] := by
  induction seen with
  | nil => rfl
  | cons first seen ih =>
    rw [List.cons_append, List.length_cons, List.modify_succ_cons, ih, List.cons_append]

variable [DecidableEq α]

/-- One more item changes the list of distinct items only if it is new, and then comes last. -/
theorem eraseDups_concat :
    (seen ++ [item]).eraseDups =
      if item ∈ seen then seen.eraseDups else seen.eraseDups ++ [item] := by
  rw [List.eraseDups_append]
  by_cases h : item ∈ seen <;> simp [List.removeAll, List.eraseDups_cons, h]

/-- The position of an item among more items is the old one, or the end for the item that was
added. -/
theorem idxOf?_concat (other : α) :
    (seen ++ [item]).idxOf? other =
      if other ∈ seen then seen.idxOf? other
      else if item = other then some seen.length else none := by
  induction seen with
  | nil => simp [List.idxOf?_cons]
  | cons first seen ih =>
    rw [List.cons_append, List.idxOf?_cons, List.idxOf?_cons, ih]
    by_cases hfirst : first = other
    · simp [hfirst]
    · by_cases hmem : other ∈ seen
      · simp [hmem]
      · have hne : other ≠ first := fun h => hfirst h.symm
        by_cases hitem : item = other <;> simp [hfirst, hne, hmem, hitem]

end Concat

variable {α : Type} [DecidableEq α]

/-- The distinct items are distinct. -/
theorem nodup_eraseDups (items : List α) : items.eraseDups.Nodup := by
  induction items using List.reverseRecOn with
  | nil => exact List.nodup_nil
  | append_singleton items item ih =>
    rw [eraseDups_concat]
    by_cases h : item ∈ items
    · rw [if_pos h]
      exact ih
    · rw [if_neg h, ← List.concat_eq_append]
      exact ih.concat fun hmem => h (List.mem_eraseDups.mp hmem)

/-- The distinct items of a list stand in the order in which they first come up. -/
theorem pairwise_idxOf_eraseDups (items : List α) :
    items.eraseDups.Pairwise fun a b => items.idxOf a < items.idxOf b := by
  induction items using List.reverseRecOn with
  | nil => exact List.Pairwise.nil
  | append_singleton items item ih =>
    have hold : items.eraseDups.Pairwise fun a b =>
        (items ++ [item]).idxOf a < (items ++ [item]).idxOf b := by
      refine ih.imp_of_mem ?_
      intro a b ha hb hlt
      rw [List.idxOf_append_of_mem (List.mem_eraseDups.mp ha),
        List.idxOf_append_of_mem (List.mem_eraseDups.mp hb)]
      exact hlt
    rw [eraseDups_concat]
    split
    · exact hold
    · next hnew =>
      rw [List.pairwise_append]
      refine ⟨hold, List.pairwise_singleton _ _, fun a ha b hb => ?_⟩
      rw [List.mem_singleton.mp hb, List.idxOf_append_of_mem (List.mem_eraseDups.mp ha),
        List.idxOf_append_of_notMem hnew]
      exact Nat.lt_add_right _ (List.idxOf_lt_length_iff.mpr (List.mem_eraseDups.mp ha))

section Position

variable {items : List α} {position : Nat} (hnodup : items.Nodup)
include hnodup

/-- The position of one of several distinct items is where it stands. -/
theorem idxOf?_eq_some_iff_of_nodup {item : α} :
    items.idxOf? item = some position ↔ items[position]? = some item := by
  rw [List.idxOf?_eq_some_iff, List.getElem?_eq_some_iff]
  constructor
  · rintro ⟨hlt, hat, -⟩
    exact ⟨hlt, hat⟩
  · rintro ⟨hlt, hat⟩
    refine ⟨hlt, hat, fun earlier hearlier heq => ?_⟩
    have hsame := (hnodup.getElem_inj_iff).mp (heq.trans hat.symm)
    omega

/-- Changing a mapped list at the position of one of several distinct items changes the image of
that item. -/
theorem modify_map_of_idxOf? {β : Type} (f : α → β) (change : β → β) {item : α}
    (hposition : items.idxOf? item = some position) :
    (items.map f).modify position change =
      items.map fun other => if other = item then change (f other) else f other := by
  obtain ⟨hlt, hat, _⟩ := List.idxOf?_eq_some_iff.mp hposition
  apply List.ext_getElem
  · simp
  · intro i hi _
    have hil : i < items.length := by simpa using hi
    rw [List.getElem_modify, List.getElem_map, List.getElem_map]
    by_cases hi : position = i
    · subst hi
      rw [if_pos rfl, if_pos hat]
    · have hne : items[i] ≠ item := by
        intro heq
        exact hi ((hnodup.getElem_inj_iff).mp (hat.trans heq.symm))
      rw [if_neg hi, if_neg hne]

end Position

end Rollup
