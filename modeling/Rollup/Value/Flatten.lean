import Rollup.Value.Path

/-!
# Leaves

The leaves of a value are its scalars, nulls and empty containers. `Value.flatten` maps the path of
every leaf below the root to the leaf.
-/

namespace Rollup.Value

mutual

/-- The leaves of a value in order, each with the segments that lead to it. -/
def leaves : Value → List (List String × Value)
  | array items => if items.isEmpty then [([], array items)] else leavesOfItems 0 items
  | object members => if members.isEmpty then [([], object members)] else leavesOfMembers members
  | leaf => [([], leaf)]

/-- The leaves of the items of an array, the first of which has the given index. -/
def leavesOfItems (index : Nat) : List Value → List (List String × Value)
  | [] => []
  | item :: items =>
    (leaves item).map (fun (path, leaf) => (String.ofList (Text.natDigits index) :: path, leaf)) ++
      leavesOfItems (index + 1) items

/-- The leaves of the members of an object. -/
def leavesOfMembers : List (String × Value) → List (List String × Value)
  | [] => []
  | (key, value) :: members =>
    (leaves value).map (fun (path, leaf) => (key :: path, leaf)) ++ leavesOfMembers members

end

/-- The text of a path from its segments. -/
def joinPath (segments : List String) : String :=
  String.intercalate "." segments

/-- The leaves below the root by their paths; of several leaves with one path the last stays. -/
def flatten (value : Value) : SortedMap Value :=
  .ofList <| (value.leaves.filter fun (path, _) => !path.isEmpty).map fun (path, leaf) =>
    (joinPath path, leaf)

end Rollup.Value
