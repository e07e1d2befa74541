import Mathlib.Data.Set.Function
import Rollup.Proofs.Value.Flatten

/-!
# Leaves and the paths to them

A leaf stands in a value under a list of segments (`Value.LeafAt`). If no key of an object has a
point in it, the text of these segments is cut into them again: so flattening files every leaf below
the root exactly once, and resolving the path that a leaf is filed under leads back to it.
-/

namespace Rollup

/-- Segments without points are what their path is cut into. -/
theorem pathSegments_joinPath {path : List String} (hne : path ≠ [])
    (hpoint : ∀ segment ∈ path, '.' ∉ segment.toList) :
    pathSegments (Value.joinPath path) = path := by
  induction path with
  | nil => exact absurd rfl hne
  | cons segment rest ih =>
    obtain ⟨hfirst, hothers⟩ := List.forall_mem_cons.mp hpoint
    by_cases hrest : rest = []
    · rw [hrest, Value.joinPath_singleton, pathSegments_of_point_notMem hfirst]
    · rw [Value.joinPath_cons segment hrest, pathSegments_append_point,
        pathSegments_of_point_notMem hfirst, ih hrest hothers, List.singleton_append]

namespace Value

/-- No key of an object has a point in it, at any depth of a value. -/
inductive KeysWithoutPoint : Value → Prop where
  /-- Null has no keys. -/
  | null : KeysWithoutPoint null
  /-- A truth value has no keys. -/
  | bool (flag : Bool) : KeysWithoutPoint (bool flag)
  /-- A number has no keys. -/
  | number (n : Number) : KeysWithoutPoint (number n)
  /-- A text has no keys. -/
  | string (text : String) : KeysWithoutPoint (string text)
  /-- The items of an array have no such keys. -/
  | array {items : List Value} (hitems : ∀ item ∈ items, KeysWithoutPoint item) :
      KeysWithoutPoint (array items)
  /-- The keys of an object have no point, and its values have no such keys. -/
  | object {members : List (String × Value)}
      (hkeys : ∀ member ∈ members, '.' ∉ member.1.toList)
      (hvalues : ∀ member ∈ members, KeysWithoutPoint member.2) :
      KeysWithoutPoint (object members)

/-- The values without children are the scalars, null, the empty array and the empty object. -/
theorem children_eq_nil_iff {value : Value} :
    value.children = [] ↔
      value.isScalar = true ∨ value = null ∨ value = array [] ∨ value = object [] := by
  cases value with
  | array items => cases items <;> simp [children, isScalar]
  | object members => cases members <;> simp [children, isScalar]
  | _ => simp [children, isScalar]

/-- A leaf stands in a value under the segments that lead to it. -/
inductive LeafAt : Value → List String → Value → Prop where
  /-- A scalar, null or an empty container is a leaf of itself. -/
  | here {leaf : Value} (h : leaf.isScalar = true ∨ leaf = .null ∨ leaf = .array [] ∨
      leaf = .object []) : LeafAt leaf [] leaf
  /-- A leaf of a child is a leaf of the value, one segment further down. -/
  | through {value child leaf : Value} {segment : String} {path : List String}
      (hchild : (segment, child) ∈ value.children) (h : LeafAt child path leaf) :
      LeafAt value (segment :: path) leaf

section Leaves

variable {value leaf : Value} {path : List String}

/-- The leaves of a value are those that stand in it. -/
theorem mem_leaves_iff : (path, leaf) ∈ value.leaves ↔ value.LeafAt path leaf := by
  induction path generalizing value with
  | nil =>
    rw [leaves_eq, leavesOfMembers_eq_flatMap]
    constructor
    · split
      · next hnone =>
        intro h
        obtain ⟨-, rfl⟩ := Prod.mk.inj (List.mem_singleton.mp h)
        exact .here (children_eq_nil_iff.mp hnone)
      · simp
    · rintro ⟨hleaf⟩
      rw [if_pos (children_eq_nil_iff.mpr hleaf)]
      exact List.mem_singleton_self _
  | cons segment path ih =>
    rw [leaves_eq, leavesOfMembers_eq_flatMap]
    constructor
    · split
      · simp
      · intro h
        obtain ⟨⟨key, child⟩, hchild, h⟩ := List.mem_flatMap.mp h
        obtain ⟨⟨rest, other⟩, hother, h⟩ := List.mem_map.mp h
        cases h
        exact .through hchild (ih.mp hother)
    · rintro (_ | ⟨hchild, h⟩)
      rw [if_neg (List.ne_nil_of_mem hchild)]
      exact List.mem_flatMap.mpr ⟨_, hchild, List.mem_map_of_mem (ih.mpr h)⟩

/-- The leaves below a value are those that stand under a segment at least. -/
theorem mem_leavesBelow_iff :
    (path, leaf) ∈ value.leavesBelow ↔ path ≠ [] ∧ value.LeafAt path leaf := by
  rw [leavesBelow, List.mem_filter, mem_leaves_iff, and_comm]
  simp

end Leaves

section Children

variable {value : Value}

/-- The children of a value without points in its keys have none in their keys, and their segments
have none. -/
theorem KeysWithoutPoint.of_mem_children (h : value.KeysWithoutPoint) :
    ∀ child ∈ value.children, '.' ∉ child.1.toList ∧ child.2.KeysWithoutPoint := by
  intro child hchild
  cases h with
  | @array items hitems =>
    refine ⟨point_notMem_of_mem_children_array child hchild, hitems child.2 ?_⟩
    rw [← map_snd_children_array items]
    exact List.mem_map_of_mem hchild
  | object hkeys hvalues => exact ⟨hkeys child hchild, hvalues child hchild⟩
  | _ => cases hchild

/-- The children of a well-formed value are well-formed. -/
theorem WellFormed.of_mem_children (h : value.WellFormed) :
    ∀ child ∈ value.children, child.2.WellFormed := by
  intro child hchild
  cases value with
  | array items =>
    refine wellFormed_of_mem_items h child.2 ?_
    rw [← map_snd_children_array items]
    exact List.mem_map_of_mem hchild
  | object members => exact wellFormed_of_mem_members h.2 child hchild
  | _ => cases hchild

/-- The segment of a child leads to it. -/
theorem WellFormed.child?_of_mem_children (h : value.WellFormed) {segment : String} {child : Value}
    (hchild : (segment, child) ∈ value.children) : value.child? segment = some child := by
  cases value with
  | array items =>
    obtain ⟨⟨item, index⟩, hitem, heq⟩ := List.mem_map.mp hchild
    cases heq
    rw [List.mem_zipIdx_iff_getElem?] at hitem
    rw [child?, segmentIndex?, String.toList_ofList, Text.readNat?_natDigits, Option.bind_some]
    exact hitem
  | object members => exact (lookup_eq_some_iff_mem h.1.nodup_keys).mpr hchild
  | _ => cases hchild

end Children

section Paths

variable {value leaf : Value} {path : List String}

/-- The segments that lead to a leaf have no points if no key has one. -/
theorem LeafAt.point_notMem (h : value.LeafAt path leaf) (hkeys : value.KeysWithoutPoint) :
    ∀ segment ∈ path, '.' ∉ segment.toList := by
  induction h with
  | here => exact List.forall_mem_nil _
  | through hchild _ ih =>
    obtain ⟨hsegment, hbelow⟩ := hkeys.of_mem_children _ hchild
    exact List.forall_mem_cons.mpr ⟨hsegment, ih hbelow⟩

/-- The segments under which a leaf stands lead to it. -/
theorem LeafAt.descend?_eq (h : value.LeafAt path leaf) (hwell : value.WellFormed) :
    value.descend? path = some leaf := by
  induction h with
  | here => rfl
  | through hchild _ ih =>
    rw [descend?_cons, hwell.child?_of_mem_children hchild, Option.bind_some]
    exact ih (hwell.of_mem_children _ hchild)

/-- A well-formed value without points in its keys has its leaves apart. -/
theorem KeysWithoutPoint.leavesApart (hkeys : value.KeysWithoutPoint) (hwell : value.WellFormed) :
    value.LeavesApart := by
  induction hkeys with
  | array hitems ih =>
    refine (leavesApart_array _).mpr fun item hitem => ?_
    exact ih item hitem (wellFormed_of_mem_items hwell item hitem)
  | object hpoint _ ih =>
    refine (leavesApart_iff_of_point_notMem (.object _) hwell.1.nodup_keys hpoint).mpr ?_
    exact fun member hmember =>
      ih member hmember (wellFormed_of_mem_members hwell.2 member hmember)
  | _ => exact leavesApart_of_children_eq_nil rfl

/-- What is filed of leaves with different paths stands below the root, under that path. -/
theorem LeavesApart.mem_entries_flatten (h : value.LeavesApart) (entry : String × Value) :
    entry ∈ value.flatten.entries ↔
      ∃ path leaf, path ≠ [] ∧ value.LeafAt path leaf ∧ (joinPath path, leaf) = entry := by
  rw [h.mem_entries_flatten_iff, leafEntries, List.mem_map]
  simp only [Prod.exists, mem_leavesBelow_iff, and_assoc]

end Paths

/-- If no key has a point in it, flattening a value files every leaf below the root exactly once,
and the path that something is filed under leads to it. -/
theorem flatten_bijOn_and_resolve? {root : Value} (hwell : root.WellFormed)
    (hkeys : root.KeysWithoutPoint) :
    Set.BijOn (fun place : List String × Value => (joinPath place.1, place.2))
        {place | place.1 ≠ [] ∧ root.LeafAt place.1 place.2}
        {entry | entry ∈ root.flatten.entries} ∧
      ∀ entry ∈ root.flatten.entries, root.resolve? entry.1 = some entry.2 := by
  have hentries := (hkeys.leavesApart hwell).mem_entries_flatten
  have hsegments : ∀ {path leaf}, path ≠ [] → root.LeafAt path leaf →
      pathSegments (joinPath path) = path :=
    fun hne hleaf => pathSegments_joinPath hne (hleaf.point_notMem hkeys)
  refine ⟨⟨?_, ?_, ?_⟩, ?_⟩
  · rintro ⟨path, leaf⟩ ⟨hne, hleaf⟩
    exact (hentries _).mpr ⟨path, leaf, hne, hleaf, rfl⟩
  · rintro ⟨path, leaf⟩ ⟨hne, hleaf⟩ ⟨other, leaf'⟩ ⟨hne', hleaf'⟩ heq
    obtain ⟨hpath, hsame⟩ := Prod.mk.inj heq
    have hcut := congrArg pathSegments hpath
    rw [hsegments hne hleaf, hsegments hne' hleaf'] at hcut
    exact Prod.ext hcut hsame
  · intro entry hentry
    obtain ⟨path, leaf, hne, hleaf, heq⟩ := (hentries entry).mp hentry
    exact ⟨(path, leaf), ⟨hne, hleaf⟩, heq⟩
  · intro entry hentry
    obtain ⟨path, leaf, hne, hleaf, rfl⟩ := (hentries entry).mp hentry
    rw [resolve?, hsegments hne hleaf]
    exact hleaf.descend?_eq hwell

/-- A value with empty keys, keys that look like numbers and empty containers. -/
def oddlyKeyed : Value := object [
  ("", object [("", int 1)]),
  ("-1", array []),
  ("0", array [null, object [("00", bool true), ("1e3", object [])]])]

/-- The leaves of the oddly keyed value are filed under paths that lead to them, and the number
stands under two empty segments and nowhere else. -/
theorem flatten_oddlyKeyed :
    oddlyKeyed.WellFormed ∧ oddlyKeyed.KeysWithoutPoint ∧
    oddlyKeyed.flatten.entries = [("-1", array []), (".", int 1), ("0.0", null),
      ("0.1.00", bool true), ("0.1.1e3", object [])] ∧
    (∀ entry ∈ oddlyKeyed.flatten.entries, oddlyKeyed.resolve? entry.1 = some entry.2) ∧
    ∀ path leaf, path ≠ [] → oddlyKeyed.LeafAt path leaf →
      (joinPath path, leaf) = (".", int 1) → path = ["", ""] := by
  have hwell : oddlyKeyed.WellFormed := by
    simp only [oddlyKeyed, int, WellFormed, WellFormedItems, WellFormedMembers, KeySorted,
      Number.InRange]
    decide
  have hempty : KeysWithoutPoint (object []) :=
    .object (List.forall_mem_nil _) (List.forall_mem_nil _)
  have hfirst : KeysWithoutPoint (object [("", int 1)]) :=
    .object (by decide) (List.forall_mem_singleton.mpr (.number _))
  have hlast : KeysWithoutPoint (array [null, object [("00", bool true), ("1e3", object [])]]) := by
    refine .array (List.forall_mem_cons.mpr ⟨.null, List.forall_mem_singleton.mpr ?_⟩)
    exact .object (by decide)
      (List.forall_mem_cons.mpr ⟨.bool true, List.forall_mem_singleton.mpr hempty⟩)
  have hkeys : oddlyKeyed.KeysWithoutPoint := by
    refine .object (by decide) (List.forall_mem_cons.mpr ⟨hfirst, ?_⟩)
    refine List.forall_mem_cons.mpr ⟨.array (List.forall_mem_nil _), ?_⟩
    exact List.forall_mem_singleton.mpr hlast
  obtain ⟨⟨-, hinj, -⟩, hresolve⟩ := flatten_bijOn_and_resolve? hwell hkeys
  refine ⟨hwell, hkeys, by decide +kernel, hresolve, ?_⟩
  intro path leaf hne hleaf heq
  have hchild : ("", object [("", int 1)]) ∈ oddlyKeyed.children := List.mem_cons_self
  have hnumber : ("", int 1) ∈ (object [("", int 1)]).children := List.mem_cons_self
  have hplace : oddlyKeyed.LeafAt ["", ""] (int 1) :=
    .through hchild (.through hnumber (.here (.inl rfl)))
  have hsame : (path, leaf) = (["", ""], int 1) :=
    hinj ⟨hne, hleaf⟩ ⟨List.cons_ne_nil _ _, hplace⟩ heq
  exact congrArg Prod.fst hsame

end Value

end Rollup
