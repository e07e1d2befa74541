import Rollup.Json.Printer
import Rollup.Json.Reader
import Rollup.Proofs.Json.Numeral
import Rollup.Proofs.Json.Quoted

/-!
# Reading scalars back

The JSON text of a scalar is one token, and reading it gives the scalar back.
-/

namespace Rollup.Json

open Text

/-- An empty text has no tokens. -/
theorem Token.ofText?_nil : ofText? [] = some [] := by
  rw [ofText?]
  rfl

/-- A text that is read as one token has that token alone. -/
theorem Token.ofText?_eq_singleton {c : Char} {rest : List Char} {token : Token}
    (hspace : isSpace c = false) (h : read? (c :: rest) = some (token, [])) :
    ofText? (c :: rest) = some [token] := by
  have hstart : (c :: rest).dropWhile isSpace = c :: rest :=
    List.dropWhile_cons_of_neg (by simp [hspace])
  rw [ofText?]
  split
  · next heq =>
    rw [hstart] at heq
    cases heq
  · next heq =>
    rw [hstart] at heq
    cases heq
    split
    · next hread =>
      rw [h] at hread
      cases hread
    · next hread =>
      rw [h] at hread
      cases hread
      rw [ofText?_nil]
      rfl

/-- An empty text spells no value. -/
theorem readNormal?_empty : readNormal? "" = none := by
  rw [readNormal?, read?, show "".toList = [] from rfl, Token.ofText?_nil]
  rfl

/-- A text that is one token for a value spells that value. -/
theorem readNormal?_of_token {text : List Char} {token : Token} {value : Value}
    (htext : Token.ofText? text = some [token])
    (hstep : Reading.step? (.value [] false) token = some (.finished value)) :
    readNormal? (String.ofList text) = some value.normalize := by
  rw [readNormal?, read?, String.toList_ofList, htext]
  simp [hstep, Reading.result?]

/-- The text of a number is read back. -/
theorem readNormal?_number {n : Number} (h : n.InRange) :
    readNormal? (String.ofList (n.text .json)) = some (.number n) := by
  obtain ⟨numeral, hproper, htext, hnumber⟩ := exists_numeral h
  obtain ⟨c, rest, hcons, hc⟩ := hproper.text_eq_cons
  have hspace : Token.isSpace c = false := by
    rw [← Bool.not_eq_true]
    intro hspace
    rcases hc with rfl | hc
    · cases hspace
    · simp only [Token.isSpace, Bool.or_eq_true, beq_iff_eq] at hspace
      rcases hspace with ((rfl | rfl) | rfl) | rfl <;> cases hc
  have hread := Numeral.read?_eq_readNumber? hc rest
  rw [← hcons, hproper.readNumber?_eq, hnumber, hcons] at hread
  rw [htext, hcons]
  exact readNormal?_of_token (Token.ofText?_eq_singleton hspace hread) rfl

/-- A quoted string is read back. -/
theorem readNormal?_quote (text : List Char) :
    readNormal? (String.ofList (quote text)) = some (.string (String.ofList text)) := by
  have hread : Token.read? (quote text) = some (.string (String.ofList text), []) := by
    rw [quote, List.cons_append, Token.read?, readQuoted?_flatMap_escape]
    rfl
  exact readNormal?_of_token (Token.ofText?_eq_singleton (by decide) hread) rfl

/-- The text of a scalar is read back. -/
theorem readNormal?_write {value : Value} (hscalar : value.isScalar = true)
    (h : value.WellFormed) : readNormal? (String.ofList (write value)) = some value := by
  cases value with
  | number n => exact readNormal?_number h
  | string text =>
    have hread := readNormal?_quote text.toList
    rwa [String.ofList_toList] at hread
  | bool flag =>
    have hread : Token.read? (write (.bool flag)) = some (.bool flag, []) := by
      cases flag <;> rfl
    cases flag with
    | true => exact readNormal?_of_token (Token.ofText?_eq_singleton rfl hread) rfl
    | false => exact readNormal?_of_token (Token.ofText?_eq_singleton rfl hread) rfl
  | _ => cases hscalar

end Rollup.Json
