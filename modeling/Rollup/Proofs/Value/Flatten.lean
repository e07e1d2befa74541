import Mathlib.Data.List.Nodup
import Mathlib.Data.List.Pairwise
import Rollup.Proofs.Entries
import Rollup.Proofs.Text.Digits
import Rollup.Proofs.Value.Path
import Rollup.Value.Flatten

/-!
# Leaves and their paths

Flattening a value files every leaf below the root under the text of its path. It keeps all leaves
exactly if these texts are distinct (`Value.LeavesApart`). They are put together child by child: as
long as no segment has a point in it, leaves of different children have different paths.
-/

namespace Rollup

namespace Value

theorem joinPath_singleton (segment : String) : joinPath [segment] = segment :=
  String.intercalate_singleton

theorem joinPath_cons (segment : String) {rest : List String} (h : rest ≠ []) :
    joinPath (segment :: rest) = segment ++ "." ++ joinPath rest :=
  String.intercalate_cons_of_ne_nil h

/-- The segments of a path make up the path. -/
theorem joinPath_pathSegments (path : String) : joinPath (pathSegments path) = path := by
  apply String.toList_injective
  have hparts : (pathSegments path).map String.toList = path.toList.splitOn '.' := by
    rw [pathSegments, Text.pieces, List.map_map]
    exact (List.map_congr_left fun _ _ => String.toList_ofList).trans (List.map_id _)
  rw [joinPath, String.toList_intercalate, hparts]
  exact List.intercalate_splitOn '.'

/-- Two paths that end with segments without a point can be cut there. -/
theorem append_point_inj {before after first last : String} (hfirst : '.' ∉ first.toList)
    (hlast : '.' ∉ last.toList) (h : before ++ "." ++ first = after ++ "." ++ last) :
    before = after ∧ first = last := by
  have hsegments := congrArg pathSegments h
  rw [pathSegments_append_point, pathSegments_append_point, pathSegments_of_point_notMem hfirst,
    pathSegments_of_point_notMem hlast] at hsegments
  obtain ⟨hbefore, hend⟩ := List.append_inj' hsegments rfl
  rw [← joinPath_pathSegments before, hbefore, joinPath_pathSegments]
  exact ⟨rfl, List.singleton_inj.mp hend⟩

/-- The parts of a value that one segment leads to, with their segments: the members of an object,
or the items of an array with their indices. -/
def children : Value → List (String × Value)
  | array items =>
    items.zipIdx.map fun (item, index) => (String.ofList (Text.natDigits index), item)
  | object members => members
  | _ => []

theorem leavesOfMembers_eq_flatMap (members : List (String × Value)) :
    leavesOfMembers members =
      members.flatMap fun (key, value) =>
        (leaves value).map fun (path, leaf) => (key :: path, leaf) := by
  induction members with
  | nil => rfl
  | cons member members ih =>
    obtain ⟨key, value⟩ := member
    rw [leavesOfMembers, ih, List.flatMap_cons]

theorem leavesOfItems_eq_leavesOfMembers (items : List Value) (index : Nat) :
    leavesOfItems index items =
      leavesOfMembers ((items.zipIdx index).map fun (item, index) =>
        (String.ofList (Text.natDigits index), item)) := by
  induction items generalizing index with
  | nil => rfl
  | cons item items ih => rw [leavesOfItems, ih, List.zipIdx_cons, List.map_cons, leavesOfMembers]

variable (value : Value)

/-- A value without children is its only leaf, and another one has the leaves of its children. -/
theorem leaves_eq :
    value.leaves =
      if value.children = [] then [([], value)] else leavesOfMembers value.children := by
  cases value with
  | array items => cases items <;> simp [leaves, children, leavesOfItems_eq_leavesOfMembers]
  | object members => cases members <;> simp [leaves, children]
  | _ => rw [leaves, children, if_pos rfl] <;> simp

/-- The leaves of a value below the value itself. -/
def leavesBelow (value : Value) : List (List String × Value) :=
  value.leaves.filter fun (path, _) => !path.isEmpty

/-- The texts of the paths to the leaves of a value below the value itself. -/
def leafPaths (value : Value) : List String :=
  value.leavesBelow.map fun (path, _) => joinPath path

/-- The leaves below a value are those of its children. -/
theorem leavesBelow_eq : value.leavesBelow = leavesOfMembers value.children := by
  rw [leavesBelow, leaves_eq]
  split
  · next hnone => rw [hnone]; rfl
  · rw [leavesOfMembers_eq_flatMap]
    apply List.filter_eq_self.mpr
    intro entry hentry
    obtain ⟨_, -, hleaf⟩ := List.mem_flatMap.mp hentry
    obtain ⟨_, -, rfl⟩ := List.mem_map.mp hleaf
    rfl

/-- The paths to the leaves that a segment leads to: the segment alone if it leads to a leaf. -/
def pathsThrough (segment : String) (child : Value) : List String :=
  if child.children = [] then [segment]
  else child.leafPaths.map fun path => segment ++ "." ++ path

/-- The paths to the leaves of a value lead through its children. -/
theorem leafPaths_eq :
    value.leafPaths = value.children.flatMap fun child => pathsThrough child.1 child.2 := by
  rw [leafPaths, leavesBelow_eq, leavesOfMembers_eq_flatMap, List.map_flatMap]
  congr 1
  funext entry
  obtain ⟨segment, child⟩ := entry
  rw [List.map_map, leaves_eq, pathsThrough]
  split
  · exact congrArg (fun path => [path]) (joinPath_singleton segment)
  · rw [leafPaths, leavesBelow_eq, List.map_map]
    apply List.map_congr_left
    rintro ⟨path, leaf⟩ hentry
    rw [← leavesBelow_eq, leavesBelow, List.mem_filter] at hentry
    exact joinPath_cons segment (by simpa using hentry.2)

/-- The leaves of a value below the value itself have different paths. -/
def LeavesApart (value : Value) : Prop :=
  value.leafPaths.Nodup

/-- A value without children has no leaves below itself that could share a path. -/
theorem leavesApart_of_children_eq_nil {value : Value} (h : value.children = []) :
    value.LeavesApart := by
  rw [LeavesApart, leafPaths_eq, h]
  exact List.nodup_nil

/-- Paths through a segment are different if they are different behind the segment. -/
theorem nodup_pathsThrough (segment : String) (child : Value) :
    (pathsThrough segment child).Nodup ↔ child.LeavesApart := by
  rw [pathsThrough, LeavesApart]
  split
  · next hnone => simp [leafPaths_eq, hnone]
  · exact List.nodup_map_iff fun _ _ h => String.append_right_inj _ |>.mp h

/-- A value with different segments has its leaves apart if every child has and no path leads
through two of them. -/
theorem leavesApart_iff (hnodup : (value.children.map Prod.fst).Nodup) :
    value.LeavesApart ↔
      (∀ child ∈ value.children, child.2.LeavesApart) ∧
        ∀ a ∈ value.children, ∀ b ∈ value.children, a.1 ≠ b.1 →
          List.Disjoint (pathsThrough a.1 a.2) (pathsThrough b.1 b.2) := by
  rw [LeavesApart, leafPaths_eq, List.nodup_flatMap]
  simp only [nodup_pathsThrough]
  refine and_congr_right fun _ => ⟨fun hpairwise a ha b hb hne => ?_, fun hdisjoint => ?_⟩
  · have hsymm : Std.Symm fun a b : String × Value =>
        List.Disjoint (pathsThrough a.1 a.2) (pathsThrough b.1 b.2) :=
      ⟨fun _ _ h _ hb ha => h ha hb⟩
    exact hpairwise.forall ha hb fun heq => hne (congrArg Prod.fst heq)
  · refine (List.pairwise_map.mp hnodup).imp_of_mem ?_
    intro a b ha hb hne
    exact hdisjoint a ha b hb hne

/-- A path through a segment without a point has it as its first segment. -/
theorem head?_pathSegments_of_mem_pathsThrough {segment path : String} {child : Value}
    (hpoint : '.' ∉ segment.toList) (h : path ∈ pathsThrough segment child) :
    (pathSegments path).head? = some segment := by
  rw [pathsThrough] at h
  split at h
  · rw [List.mem_singleton] at h
    rw [h, pathSegments_of_point_notMem hpoint]
    rfl
  · obtain ⟨rest, -, rfl⟩ := List.mem_map.mp h
    rw [pathSegments_append_point, pathSegments_of_point_notMem hpoint]
    rfl

/-- A value with different children whose segments have no points has its leaves apart as soon as
every child has. -/
theorem leavesApart_iff_of_point_notMem
    (hnodup : (value.children.map Prod.fst).Nodup)
    (hpoint : ∀ child ∈ value.children, '.' ∉ child.1.toList) :
    value.LeavesApart ↔ ∀ child ∈ value.children, child.2.LeavesApart := by
  rw [leavesApart_iff value hnodup, and_iff_left]
  intro a ha b hb hne path hpathA hpathB
  have hsegmentA := head?_pathSegments_of_mem_pathsThrough (hpoint a ha) hpathA
  have hsegmentB := head?_pathSegments_of_mem_pathsThrough (hpoint b hb) hpathB
  exact hne (Option.some.inj (hsegmentA.symm.trans hsegmentB))

/-- The children of an array are its items. -/
theorem map_snd_children_array (items : List Value) :
    (array items).children.map Prod.snd = items := by
  rw [children, List.map_map]
  exact List.zipIdx_map_fst 0 items

/-- The segments of the items of an array are different. -/
theorem nodup_map_fst_children_array (items : List Value) :
    ((array items).children.map Prod.fst).Nodup := by
  have hindices : (array items).children.map Prod.fst =
      (items.zipIdx.map Prod.snd).map fun index => String.ofList (Text.natDigits index) := by
    rw [children, List.map_map, List.map_map]
    rfl
  rw [hindices, List.zipIdx_map_snd]
  refine (List.nodup_range').map ?_
  intro i j hij
  exact Text.natDigits_inj (String.ofList_injective hij)

/-- The segment of an item has no point. -/
theorem point_notMem_of_mem_children_array {items : List Value} :
    ∀ child ∈ (array items).children, '.' ∉ child.1.toList := by
  intro child hchild hpoint
  obtain ⟨⟨item, index⟩, -, rfl⟩ := List.mem_map.mp hchild
  rw [String.toList_ofList] at hpoint
  exact absurd (Text.isDigit_of_mem_natDigits hpoint) (by decide)

/-- An array has its leaves apart as soon as every item has. -/
theorem leavesApart_array (items : List Value) :
    (array items).LeavesApart ↔ ∀ item ∈ items, item.LeavesApart := by
  rw [leavesApart_iff_of_point_notMem _ (nodup_map_fst_children_array items)
    point_notMem_of_mem_children_array]
  conv_rhs => rw [← map_snd_children_array items, List.forall_mem_map]

/-- No segment leads on from a leaf, so it has no children. -/
theorem IsLeaf.children_eq_nil {value : Value} (h : value.IsLeaf) : value.children = [] := by
  cases value with
  | array items =>
    cases items with
    | nil => rfl
    | cons item items => cases h "0"
  | object members =>
    cases members with
    | nil => rfl
    | cons member members =>
      have hfirst := h member.1
      simp [child?_object] at hfirst
  | _ => rfl

/-- The paths to the leaves of an object whose members are leaves are their names. -/
theorem leafPaths_object_of_isLeaf {members : List (String × Value)}
    (h : ∀ member ∈ members, member.2.IsLeaf) :
    (object members).leafPaths = members.map Prod.fst := by
  have hthrough : ∀ member ∈ members, pathsThrough member.1 member.2 = [member.1] :=
    fun member hmember => if_pos (h member hmember).children_eq_nil
  rw [leafPaths_eq, children, List.flatMap_congr hthrough]
  exact List.flatMap_pure_eq_map Prod.fst members

/-- The leaves of a value below the value itself, each with the text of its path. -/
def leafEntries (value : Value) : List (String × Value) :=
  value.leavesBelow.map fun (path, leaf) => (joinPath path, leaf)

theorem map_fst_leafEntries : value.leafEntries.map Prod.fst = value.leafPaths := by
  rw [leafEntries, List.map_map]
  rfl

theorem flatten_eq : value.flatten = .ofList value.leafEntries := rfl

/-- Flattening files all leaves exactly if they have different paths. -/
theorem length_entries_flatten_eq_iff :
    value.flatten.entries.length = value.leavesBelow.length ↔ value.LeavesApart := by
  have hlength : value.leafEntries.length = value.leavesBelow.length := List.length_map _
  rw [flatten_eq, ← hlength, SortedMap.length_entries_ofList_eq_iff, map_fst_leafEntries,
    LeavesApart]

variable {value}

/-- Leaves with different paths are all filed, and nothing else is. -/
theorem LeavesApart.mem_entries_flatten_iff (h : value.LeavesApart) {entry : String × Value} :
    entry ∈ value.flatten.entries ↔ entry ∈ value.leafEntries := by
  have hkeys : (value.leafEntries.map Prod.fst).Nodup := by
    rw [map_fst_leafEntries]
    exact h
  exact mem_sortEntries_iff hkeys

/-- Leaves with different paths are found under them. -/
theorem LeavesApart.find?_flatten (h : value.LeavesApart) {path : List String} {leaf : Value}
    (hleaf : (path, leaf) ∈ value.leavesBelow) :
    value.flatten.find? (joinPath path) = some leaf := by
  rw [SortedMap.find?_eq_some_iff_mem, h.mem_entries_flatten_iff]
  exact List.mem_map_of_mem hleaf

/-- Flattening files something under the path of every leaf and under nothing else. -/
theorem mem_keys_flatten_iff (path : String) :
    path ∈ value.flatten.keys ↔ path ∈ value.leafPaths := by
  rw [← map_fst_leafEntries]
  exact mem_map_fst_sortEntries value.leafEntries path

theorem mem_keys_flatten_of_mem_leavesBelow {path : List String} {leaf : Value}
    (hleaf : (path, leaf) ∈ value.leavesBelow) : joinPath path ∈ value.flatten.keys :=
  (mem_keys_flatten_iff _).mpr (List.mem_map_of_mem hleaf)

end Value

end Rollup
