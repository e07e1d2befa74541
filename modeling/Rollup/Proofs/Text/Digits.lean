import Mathlib.Data.List.TakeWhile
import Rollup.Text.Blank
import Rollup.Text.Digits

/-!
# Laws of decimal texts

Which characters the text of a number has, what zeros at one of its two ends do to the number, and
that the text tells the number and its sign.
-/

namespace Rollup.Text

/-- A character that stands in the text of a number. -/
def isNumeral (c : Char) : Bool :=
  c.isDigit || c == '-' || c == '.'

theorem isNumeral_of_isDigit {c : Char} (h : c.isDigit = true) : isNumeral c = true := by
  simp [isNumeral, h]

/-- The codes of the digits. -/
theorem toNat_of_isDigit {c : Char} (h : c.isDigit = true) : 48 ≤ c.toNat ∧ c.toNat ≤ 57 := by
  simp only [Char.isDigit, Bool.and_eq_true, decide_eq_true_eq, ge_iff_le, UInt32.le_iff_toNat_le]
    at h
  exact h

/-- No digit is blank. -/
theorem isBlank_of_isDigit {c : Char} (h : c.isDigit = true) : isBlank c = false := by
  obtain ⟨hlow, hhigh⟩ := toNat_of_isDigit h
  simp [isBlank]
  omega

/-- Digits are read up to a character that is not a digit. -/
theorem span_isDigit {digits rest : List Char} (hdigits : ∀ c ∈ digits, c.isDigit = true)
    (hrest : ∀ c ∈ rest.head?, c.isDigit = false) :
    (digits ++ rest).takeWhile Char.isDigit = digits ∧
      (digits ++ rest).dropWhile Char.isDigit = rest := by
  rw [List.takeWhile_append_of_pos hdigits, List.dropWhile_append_of_pos hdigits]
  cases rest with
  | nil => exact ⟨List.append_nil _, rfl⟩
  | cons c rest =>
    have hc : ¬c.isDigit = true := by simp [hrest c rfl]
    rw [List.takeWhile_cons_of_neg hc, List.dropWhile_cons_of_neg hc]
    exact ⟨List.append_nil _, rfl⟩

/-- Digits are read up to the end of the text. -/
theorem span_isDigit_self {digits : List Char} (hdigits : ∀ c ∈ digits, c.isDigit = true) :
    digits.takeWhile Char.isDigit = digits ∧ digits.dropWhile Char.isDigit = [] := by
  have hend : ∀ c ∈ ([] : List Char).head?, c.isDigit = false := by simp
  have hspan := span_isDigit hdigits hend
  rwa [List.append_nil] at hspan

/-- The text of an integer has the characters of a number. -/
theorem isNumeral_of_mem_intText {n : Int} {c : Char} (h : c ∈ intText n) : isNumeral c = true := by
  rw [intText] at h
  split at h
  · rcases List.mem_cons.mp h with rfl | h
    · rfl
    · exact isNumeral_of_isDigit (isDigit_of_mem_natDigits h)
  · exact isNumeral_of_isDigit (isDigit_of_mem_natDigits h)

theorem natDigits_ne_nil (n : Nat) : natDigits n ≠ [] :=
  Nat.toDigits_ne_nil

/-- The digits of a number start with a digit. -/
theorem natDigits_eq_cons (n : Nat) : ∃ c rest, natDigits n = c :: rest ∧ c.isDigit = true := by
  obtain ⟨c, rest, h⟩ := List.exists_cons_of_ne_nil (natDigits_ne_nil n)
  refine ⟨c, rest, h, isDigit_of_mem_natDigits (n := n) ?_⟩
  rw [h]
  exact List.mem_cons_self

/-- The digits of a number are read back. -/
theorem readNat?_natDigits (n : Nat) : readNat? (natDigits n) = some n := by
  obtain ⟨c, rest, hdigits, hc⟩ := natDigits_eq_cons n
  have hall : (c :: rest).all Char.isDigit = true := by
    rw [List.all_eq_true, ← hdigits]
    exact fun d hd => isDigit_of_mem_natDigits hd
  have hvalue : digitsValue (c :: rest) = n := by rw [← hdigits, digitsValue_natDigits]
  rw [hdigits, readNat?.eq_def]
  split
  · next heq =>
    rw [(List.cons.inj heq).1] at hc
    cases hc
  · simp [hall, hvalue]

/-- Zeros in front of digits do not count. -/
theorem digitsValue_zeros_append (zeros : Nat) (digits : List Char) :
    digitsValue (List.replicate zeros '0' ++ digits) = digitsValue digits := by
  rw [digitsValue, Nat.ofDigitChars_append, Nat.ofDigitChars_replicate_zero, Nat.mul_zero]
  rfl

/-- Zeros behind digits multiply with powers of ten. -/
theorem digitsValue_append_zeros (digits : List Char) (zeros : Nat) :
    digitsValue (digits ++ List.replicate zeros '0') = digitsValue digits * 10 ^ zeros := by
  rw [digitsValue, Nat.ofDigitChars_append, Nat.ofDigitChars_replicate_zero, Nat.mul_comm]
  rfl

/-- The digits of a multiple of a power of ten end in zeros. -/
theorem natDigits_mul_ten_pow {n : Nat} (hn : 0 < n) (zeros : Nat) :
    natDigits (n * 10 ^ zeros) = natDigits n ++ List.replicate zeros '0' := by
  induction zeros with
  | zero => rw [Nat.pow_zero, Nat.mul_one, List.replicate_zero, List.append_nil]
  | succ zeros ih =>
    have hpos : 0 < n * 10 ^ zeros := Nat.mul_pos hn (Nat.pow_pos (by decide))
    have hstep :
        natDigits (10 * (n * 10 ^ zeros) + 0) = natDigits (n * 10 ^ zeros) ++ natDigits 0 :=
      (Nat.toDigits_append_toDigits (by decide) hpos (by decide)).symm
    have hmul : n * 10 ^ (zeros + 1) = 10 * (n * 10 ^ zeros) + 0 := by
      rw [Nat.pow_succ', Nat.mul_left_comm, Nat.add_zero]
    rw [hmul, hstep, ih, List.append_assoc, List.replicate_succ']
    rfl

/-- Numbers with the same digits are the same. -/
theorem natDigits_inj {m n : Nat} (h : natDigits m = natDigits n) : m = n := by
  rw [← digitsValue_natDigits m, h, digitsValue_natDigits]

/-- The sign of a number in front of its digits. -/
def signText (negative : Bool) : List Char :=
  if negative then ['-'] else []

/-- A sign in front of a digit is read as what it is. -/
theorem readSign_signText_append (negative : Bool) {c : Char} (hc : c.isDigit = true)
    (rest : List Char) :
    readSign (signText negative ++ c :: rest) = (negative, c :: rest) := by
  cases negative with
  | true => rfl
  | false =>
    rw [readSign.eq_def]
    split
    · next h =>
      rw [(List.cons.inj h).1] at hc
      cases hc
    · next h =>
      rw [(List.cons.inj h).1] at hc
      cases hc
    · rfl

/-- The text of an integer is its sign and its digits. -/
theorem intText_eq (n : Int) : intText n = signText (decide (n < 0)) ++ natDigits n.natAbs := by
  by_cases h : n < 0
  · rw [intText, if_pos h, decide_eq_true h]
    rfl
  · rw [intText, if_neg h, decide_eq_false h]
    rfl

/-- The integer with a sign and an absolute value. -/
def signed (negative : Bool) (n : Nat) : Int :=
  if negative then -n else n

/-- The text of an integer other than zero, from its sign and its absolute value. -/
theorem intText_signed (negative : Bool) {n : Nat} (hn : 0 < n) :
    intText (signed negative n) = signText negative ++ natDigits n := by
  cases negative with
  | true =>
    have hneg : signed true n < 0 := by
      rw [signed, if_pos rfl]
      omega
    have habs : (signed true n).natAbs = n := Int.natAbs_neg n
    rw [intText_eq, decide_eq_true hneg, habs]
  | false =>
    have hnonneg : ¬signed false n < 0 := Int.not_lt.mpr (Int.natCast_nonneg n)
    have habs : (signed false n).natAbs = n := Int.natAbs_natCast n
    rw [intText_eq, decide_eq_false hnonneg, habs]

/-- Signed digits tell the sign and the number. -/
theorem signText_append_natDigits_inj {a b : Bool} {m n : Nat}
    (h : signText a ++ natDigits m = signText b ++ natDigits n) : a = b ∧ m = n := by
  obtain ⟨c, cs, hm, hc⟩ := natDigits_eq_cons m
  obtain ⟨d, ds, hn, hd⟩ := natDigits_eq_cons n
  have hread := congrArg readSign h
  rw [hm, hn, readSign_signText_append a hc, readSign_signText_append b hd] at hread
  obtain ⟨hsign, hdigits⟩ := Prod.mk.inj hread
  rw [← hm, ← hn] at hdigits
  exact ⟨hsign, natDigits_inj hdigits⟩

/-- Integers with the same text are the same. -/
theorem intText_inj {m n : Int} (h : intText m = intText n) : m = n := by
  rw [intText_eq, intText_eq] at h
  obtain ⟨hsign, habs⟩ := signText_append_natDigits_inj h
  rw [decide_eq_decide] at hsign
  omega

end Rollup.Text
