import Rollup.Json.Quoted

/-!
# Quoting is undone by reading

A quoted string is read back exactly, and the reader stops right behind it. So no quoted string is
the start of another one, and whatever text follows, it tells the string and the rest.
-/

namespace Rollup.Json

/-- The four digits of a control character spell it. -/
theorem natIn?_hexDigits : ∀ n < 32,
    Text.natIn? 16 ['0', '0', hexDigit (n / 16), hexDigit (n % 16)] = some n := by
  decide

/-- A control character that is written with digits is read back. -/
theorem readQuoted?_digits {c : Char} (h : c.toNat < 32) (rest : List Char) :
    readQuoted?
        ('\\' :: 'u' :: '0' :: '0' :: hexDigit (c.toNat / 16) :: hexDigit (c.toNat % 16) :: rest) =
      (readQuoted? rest).map fun (text, rest) => (c :: text, rest) := by
  have hunit : c.toNat < 0xD800 := by omega
  rw [readQuoted?, natIn?_hexDigits c.toNat h]
  simp only [hunit, true_or, if_true, Char.ofNat_toNat]

/-- A character is read back from its text inside a quoted string. -/
theorem readQuoted?_escape (c : Char) (rest : List Char) :
    readQuoted? (escape c ++ rest) =
      (readQuoted? rest).map fun (text, rest) => (c :: text, rest) := by
  have hletter : ∀ {n : Nat}, c.toNat = n → c = Char.ofNat n := by
    intro n hn
    rw [← hn, Char.ofNat_toNat]
  rw [escape]
  split
  · next hquote => simp [hquote, readQuoted?, unescape?]
  split
  · next hslash => simp [hslash, readQuoted?, unescape?]
  split
  · next hcontrol =>
    split
    · next hn => simp [readQuoted?, unescape?, hletter hn]
    · next hn => simp [readQuoted?, unescape?, hletter hn]
    · next hn => simp [readQuoted?, unescape?, hletter hn]
    · next hn => simp [readQuoted?, unescape?, hletter hn]
    · next hn => simp [readQuoted?, unescape?, hletter hn]
    · exact readQuoted?_digits hcontrol rest
  · next hquote hslash hcontrol =>
    have hplain : ¬(c.toNat < 0x20 ∨ c = '\\') := by
      rintro (h | h)
      · exact hcontrol h
      · exact hslash h
    rw [List.singleton_append, readQuoted?.eq_def]
    split
    · next heq => cases heq
    · next heq => exact absurd (List.cons.inj heq).1 hquote
    · next heq => exact absurd (List.cons.inj heq).1 hslash
    · next heq => exact absurd (List.cons.inj heq).1 hslash
    · next heq =>
      obtain ⟨rfl, rfl⟩ := List.cons.inj heq
      rw [if_neg hplain]

/-- A quoted string is read back, up to its closing mark. -/
theorem readQuoted?_flatMap_escape (text rest : List Char) :
    readQuoted? (text.flatMap escape ++ '"' :: rest) = some (text, rest) := by
  induction text with
  | nil => simp [readQuoted?]
  | cons c text ih =>
    rw [List.flatMap_cons, List.append_assoc, readQuoted?_escape, ih]
    rfl

/-- A quoted string and what follows it are told by the whole text. -/
theorem quote_append_inj {a b s t : List Char} (h : quote a ++ s = quote b ++ t) :
    a = b ∧ s = t := by
  simp only [quote, List.cons_append, List.append_assoc, List.nil_append, List.cons.injEq,
    true_and] at h
  have hread := congrArg readQuoted? h
  rw [readQuoted?_flatMap_escape, readQuoted?_flatMap_escape] at hread
  cases hread
  exact ⟨rfl, rfl⟩

end Rollup.Json
