import Mathlib.Algebra.Order.BigOperators.Group.List
import Mathlib.Algebra.Order.Group.Nat
import Rollup.Text.Split

/-!
# Lines joined and cut again

A text of several lines is cut at its marks into the pieces of every line. It has as many pieces as
lines exactly if no line has a mark in it. The lines of a text have all of its characters but those
that end a line.
-/

namespace Rollup.Text

variable {mark : Char} {p : Char → Bool}

/-- A line is cut into one piece if it has no mark, and into several otherwise. -/
theorem one_lt_length_splitOn {line : List Char} (h : mark ∈ line) :
    1 < (line.splitOn mark).length := by
  obtain ⟨before, after, rfl⟩ := List.append_of_mem h
  have hbefore := List.length_pos_of_ne_nil (List.splitOn_ne_nil mark before)
  have hafter := List.length_pos_of_ne_nil (List.splitOn_ne_nil mark after)
  rw [List.splitOn_append_cons_self, List.length_append]
  omega

/-- Joined lines are cut into the pieces of all of them. -/
theorem splitOn_intercalate_eq_flatMap {lines : List (List Char)} (hne : lines ≠ []) :
    (List.intercalate [mark] lines).splitOn mark = lines.flatMap (List.splitOn mark) := by
  induction lines with
  | nil => exact absurd rfl hne
  | cons line rest ih =>
    by_cases hrest : rest = []
    · rw [hrest, List.intercalate_singleton, List.flatMap_singleton]
    · rw [List.intercalate_cons_of_ne_nil hrest, List.append_assoc, List.singleton_append,
        List.splitOn_append_cons_self, ih hrest, List.flatMap_cons]

/-- Joined lines are cut into more pieces than lines if one of them has a mark. -/
theorem length_lt_length_splitOn_intercalate {lines : List (List Char)}
    (h : ∃ line ∈ lines, mark ∈ line) :
    lines.length < ((List.intercalate [mark] lines).splitOn mark).length := by
  obtain ⟨line, hline, hmark⟩ := h
  have hpos : ∀ line ∈ lines, 1 ≤ (line.splitOn mark).length :=
    fun line _ => List.length_pos_of_ne_nil (List.splitOn_ne_nil mark line)
  have hsum := List.sum_lt_sum (fun _ => 1) (fun line => (line.splitOn mark).length) hpos
    ⟨line, hline, one_lt_length_splitOn hmark⟩
  rw [splitOn_intercalate_eq_flatMap (List.ne_nil_of_mem hline), List.length_flatMap]
  simpa using hsum

/-- The last of joined lines is the last piece if it has no mark. -/
theorem getLast?_splitOn_intercalate (lines : List (List Char)) {last : List Char}
    (h : mark ∉ last) :
    ((List.intercalate [mark] (lines ++ [last])).splitOn mark).getLast? = some last := by
  rw [splitOn_intercalate_eq_flatMap (by simp), List.flatMap_append, List.flatMap_singleton,
    List.splitOn_eq_singleton h, List.getLast?_concat]

/-- Of the characters that are no marks joined lines have those of the lines. -/
theorem filter_intercalate (hmark : p mark = false) (lines : List (List Char)) :
    (List.intercalate [mark] lines).filter p = lines.flatten.filter p := by
  induction lines with
  | nil => rfl
  | cons line rest ih =>
    by_cases hrest : rest = []
    · rw [hrest, List.intercalate_singleton, List.flatten_singleton]
    · rw [List.intercalate_cons_of_ne_nil hrest, List.filter_append, List.filter_append, ih,
        List.flatten_cons, List.filter_append]
      simp [hmark]

theorem filter_dropCarriageReturn (hreturn : p '\r' = false) (line : List Char) :
    (dropCarriageReturn line).filter p = line.filter p := by
  rw [dropCarriageReturn]
  split
  · next hlast =>
    conv_rhs => rw [← List.dropLast_append_getLast? '\r' hlast]
    simp [hreturn]
  · rfl

/-- The lines of a text have all of its characters but those that end a line. -/
theorem filter_flatten_lines (hfeed : p '\n' = false) (hreturn : p '\r' = false)
    (text : List Char) : (lines text).flatten.filter p = text.filter p := by
  rcases List.eq_nil_or_concat (text.splitOn '\n') with hnil | ⟨before, last, hsplit⟩
  · exact absurd hnil (List.splitOn_ne_nil '\n' text)
  have hlast : (if last.isEmpty then [] else [last]).flatten = last := by
    cases last <;> simp
  have hbefore : (before.map dropCarriageReturn).flatten.filter p = before.flatten.filter p := by
    simp only [List.filter_flatten, List.map_map, Function.comp_def,
      filter_dropCarriageReturn hreturn]
  rw [lines, hsplit, List.concat_eq_append, List.dropLast_concat, List.getLast?_concat,
    Option.getD_some, List.flatten_append, hlast, List.filter_append, hbefore,
    ← List.filter_append]
  calc (before.flatten ++ last).filter p = (text.splitOn '\n').flatten.filter p := by
        rw [hsplit, List.concat_eq_append, List.flatten_concat]
    _ = text.filter p := by rw [← filter_intercalate hfeed, List.intercalate_splitOn]

/-- The first character of a text that is of a kind is the first one of a line. -/
theorem exists_line_of_find? (hfeed : p '\n' = false) (hreturn : p '\r' = false)
    {text : List Char} {c : Char} (h : text.find? p = some c) :
    ∃ line ∈ lines text, line.find? p = some c := by
  rw [← List.head?_filter, ← filter_flatten_lines hfeed hreturn, List.head?_filter,
    List.find?_flatten] at h
  exact List.exists_of_findSome?_eq_some h

end Rollup.Text
