/-!
# Stable merging

`mergeRuns` sorts by merging neighbouring runs, one item each at first, until one run is left. It
asks only whether a later item is less than an earlier one, and never relies on the comparison being
an order: where neither is less the earlier item stays in front.
-/

namespace Rollup

universe u

variable {α : Type u}

/-- Merges each run with its right neighbour, the first with the second, the third with the fourth,
and so on. -/
def mergePairs (keeps : α → α → Bool) : List (List α) → List (List α)
  | left :: right :: runs => left.merge right keeps :: mergePairs keeps runs
  | runs => runs

theorem length_mergePairs (keeps : α → α → Bool) (runs : List (List α)) :
    (mergePairs keeps runs).length = (runs.length + 1) / 2 := by
  fun_induction mergePairs keeps runs with
  | case1 left right runs ih =>
    simp only [List.length_cons, ih]
    omega
  | case2 runs h =>
    match runs with
    | [] => simp
    | [_] => simp
    | a :: b :: rest => exact absurd rfl (h a b rest)

/-- Merges runs until one is left. -/
def mergeRuns (keeps : α → α → Bool) : List (List α) → List α
  | [] => []
  | [run] => run
  | left :: right :: runs => mergeRuns keeps (mergePairs keeps (left :: right :: runs))
termination_by runs => runs.length
decreasing_by
  rw [length_mergePairs]
  simp only [List.length_cons]
  omega

/-- Sorts a list; `compare b a` being `lt` for an earlier `a` moves `b` in front of it. -/
def stableSort (compare : α → α → Ordering) (items : List α) : List α :=
  mergeRuns (fun left right => compare right left != .lt) (items.map fun item => [item])

end Rollup
