import Rollup.Proofs.Text.Marks
import Rollup.Value.Path

/-!
# Paths and their segments

Two paths with a point between them have the segments of both, and a path without a point is one
segment. No path leads on from a leaf.
-/

namespace Rollup

/-- Two paths with a point between them have the segments of the one, then those of the other. -/
theorem pathSegments_append_point (first last : String) :
    pathSegments (first ++ "." ++ last) = pathSegments first ++ pathSegments last :=
  Text.pieces_append (by simp)

/-- A path without a point is one segment. -/
theorem pathSegments_of_point_notMem {path : String} (h : '.' ∉ path.toList) :
    pathSegments path = [path] := by
  have hpieces := Text.pieces_of_notMem h
  rwa [String.ofList_toList] at hpieces

/-- A path has a segment. -/
theorem pathSegments_ne_nil (path : String) : pathSegments path ≠ [] := by
  intro h
  exact List.splitOn_ne_nil '.' path.toList (List.map_eq_nil_iff.mp h)

/-- A path with a point has two segments at least. -/
theorem pathSegments_of_point_mem {path : String} (h : '.' ∈ path.toList) :
    ∃ first second rest, pathSegments path = first :: second :: rest := by
  obtain ⟨before, after, hpath⟩ := List.append_of_mem h
  have hjoin : path = String.ofList before ++ "." ++ String.ofList after := by
    apply String.toList_injective
    simp [hpath]
  obtain ⟨first, firsts, hfirst⟩ :=
    List.exists_cons_of_ne_nil (pathSegments_ne_nil (String.ofList before))
  obtain ⟨last, lasts, hlast⟩ :=
    List.exists_cons_of_ne_nil (pathSegments_ne_nil (String.ofList after))
  rw [hjoin, pathSegments_append_point, hfirst, hlast]
  cases firsts with
  | nil => exact ⟨first, last, lasts, rfl⟩
  | cons second rest => exact ⟨first, second, rest ++ last :: lasts, rfl⟩

namespace Value

variable (value : Value) (members : List (String × Value)) (segment : String)

theorem child?_object : (object members).child? segment = members.lookup segment := rfl

theorem descend?_cons (segments : List String) :
    value.descend? (segment :: segments) =
      (value.child? segment).bind fun part => part.descend? segments :=
  List.foldlM_cons

theorem descend?_singleton : value.descend? [segment] = value.child? segment := by
  rw [descend?_cons]
  exact Option.bind_fun_some _

theorem descend?_pair (next : String) :
    value.descend? [segment, next] = (value.child? segment).bind fun part => part.child? next := by
  rw [descend?_cons]
  simp only [descend?_singleton]

/-- No segment leads on from a value. -/
def IsLeaf (value : Value) : Prop :=
  ∀ segment, value.child? segment = none

theorem isLeaf_number (n : Number) : (number n).IsLeaf := fun _ => rfl

/-- A scalar is a leaf. -/
theorem isLeaf_of_isScalar {value : Value} (h : value.isScalar = true) : value.IsLeaf := by
  intro segment
  cases value with
  | bool _ | number _ | string _ => rfl
  | _ => cases h

/-- A computed number is a leaf, also where it is null. -/
theorem isLeaf_ofBinary64 (x : Binary64) : (ofBinary64 x).IsLeaf := by
  intro segment
  rw [ofBinary64]
  split <;> rfl

end Value

end Rollup
