import Rollup.Proofs.Entries
import Rollup.Value.Basic

/-!
# Normal forms of values

Bringing a value into normal form once is enough. What is looked up in the normal form of an object
is the normal form of what is looked up in the object, if no key comes twice.
-/

namespace Rollup.Value

theorem normalizeItems_eq_map (items : List Value) :
    normalizeItems items = items.map normalize := by
  induction items with
  | nil => rfl
  | cons item items ih => rw [normalizeItems, ih, List.map_cons]

theorem normalizeMembers_eq_map (members : List (String × Value)) :
    normalizeMembers members = members.map fun (key, value) => (key, value.normalize) := by
  induction members with
  | nil => rfl
  | cons member members ih => rw [normalizeMembers, ih, List.map_cons]

/-- A scalar is in normal form. -/
theorem normalize_of_isScalar {value : Value} (h : value.isScalar = true) :
    value.normalize = value := by
  cases value with
  | array items => cases h
  | object members => cases h
  | _ => rfl

/-- Normal forms have the same keys. -/
theorem map_fst_normalizeMembers (members : List (String × Value)) :
    (normalizeMembers members).map Prod.fst = members.map Prod.fst := by
  rw [normalizeMembers_eq_map, map_fst_map_entries fun _ => normalize]

/-- What is looked up in the normal form of an object without repeated keys. -/
theorem lookup_sortEntries_normalizeMembers {members : List (String × Value)}
    (h : (members.map Prod.fst).Nodup) (name : String) :
    (sortEntries (normalizeMembers members)).lookup name =
      (members.lookup name).map normalize := by
  rw [lookup_sortEntries_of_nodup (by rwa [map_fst_normalizeMembers]), normalizeMembers_eq_map,
    lookup_map_entries name fun _ => normalize]

mutual

/-- The normal form of a normal form is this one. -/
@[simp]
theorem normalize_normalize : ∀ value : Value, value.normalize.normalize = value.normalize
  | .null => rfl
  | .bool _ => rfl
  | .number _ => rfl
  | .string _ => rfl
  | .array items => by rw [normalize, normalize, normalizeItems_normalizeItems items]
  | .object members => by
    have hmembers : normalizeMembers (sortEntries (normalizeMembers members)) =
        sortEntries (normalizeMembers members) := by
      rw [normalizeMembers_eq_map]
      refine (List.map_congr_left ?_).trans (List.map_id _)
      rintro ⟨key, value⟩ hmember
      exact congrArg (key, ·)
        (normalize_of_mem_normalizeMembers members _ (mem_of_mem_sortEntries hmember))
    rw [normalize, normalize, hmembers, sortEntries_eq_self (keySorted_sortEntries _)]

theorem normalizeItems_normalizeItems :
    ∀ items : List Value, normalizeItems (normalizeItems items) = normalizeItems items
  | [] => rfl
  | item :: items => by
    rw [normalizeItems, normalizeItems, normalize_normalize item,
      normalizeItems_normalizeItems items]

/-- The values of the normal form of an object are in normal form. -/
theorem normalize_of_mem_normalizeMembers :
    ∀ members : List (String × Value), ∀ member ∈ normalizeMembers members,
      member.2.normalize = member.2
  | [] => List.forall_mem_nil _
  | (_, value) :: members =>
    List.forall_mem_cons.mpr ⟨normalize_normalize value, normalize_of_mem_normalizeMembers members⟩

end

end Rollup.Value
