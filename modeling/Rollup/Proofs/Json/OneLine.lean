import Rollup.Json.Printer
import Rollup.Proofs.Json.Numeral

/-!
# JSON text on one line

Inside quotation marks a line feed is written as an escape, and a number has no blank characters. So
JSON text without spaces is one line, whatever strings and keys the value has.
-/

namespace Rollup.Json

/-- A line feed is written as an escape. -/
theorem newline_notMem_escape (c : Char) : '\n' ∉ escape c := by
  have hcontrol : ∀ n < 32, '\n' ∉ escape (Char.ofNat n) := by decide +kernel
  by_cases hc : c.toNat < 32
  · rw [← Char.ofNat_toNat c]
    exact hcontrol _ hc
  · have hne : '\n' ≠ c := by
      rintro rfl
      exact hc (by decide)
    rw [escape, if_neg hc]
    split
    · decide
    · split
      · decide
      · simpa using hne

theorem newline_notMem_quote (text : List Char) : '\n' ∉ quote text := by
  simp [quote, newline_notMem_escape]

/-- A number is written without line feeds: it has no blank characters. -/
theorem newline_notMem_text (n : Number) : '\n' ∉ n.text .json := by
  intro hmem
  cases n with
  | integer n => cases Text.isNumeral_of_mem_intText hmem
  | float x =>
    obtain ⟨numeral, hproper, htext, -⟩ := exists_numeral (n := .float x) trivial
    rw [htext] at hmem
    cases Numeral.isBlank_of_isPart (hproper.isPart_of_mem hmem)

mutual

/-- JSON text without spaces is one line. -/
theorem newline_notMem_write : ∀ value : Value, '\n' ∉ write value
  | .null => by decide
  | .bool flag => by cases flag <;> decide
  | .number n => newline_notMem_text n
  | .string text => newline_notMem_quote text.toList
  | .array items => by simp [write, newline_notMem_writeItems items]
  | .object members => by simp [write, newline_notMem_writeMembers members]

/-- The texts of items are one line. -/
theorem newline_notMem_writeItems : ∀ items : List Value, '\n' ∉ writeItems items
  | [] => List.not_mem_nil
  | item :: items => by
    rw [writeItems, List.mem_append, not_or]
    refine ⟨newline_notMem_write item, ?_⟩
    split
    · exact List.not_mem_nil
    · exact List.not_mem_cons_of_ne_of_not_mem (by decide) (newline_notMem_writeItems items)

/-- The texts of members are one line. -/
theorem newline_notMem_writeMembers : ∀ members : List (String × Value),
    '\n' ∉ writeMembers members
  | [] => List.not_mem_nil
  | (key, value) :: members => by
    rw [writeMembers, List.mem_append, List.mem_append, not_or, not_or]
    refine ⟨⟨newline_notMem_quote key.toList, ?_⟩, ?_⟩
    · exact List.not_mem_cons_of_ne_of_not_mem (by decide) (newline_notMem_write value)
    · split
      · exact List.not_mem_nil
      · exact List.not_mem_cons_of_ne_of_not_mem (by decide) (newline_notMem_writeMembers members)

end

end Rollup.Json
