import Rollup.Binary64.Decimal
import Rollup.Proofs.Binary64.Rounding
import Rollup.Proofs.Text.Digits

/-!
# Laws of decimals

The shortcuts for exponents far outside the format agree with one rounding of the exact value. So
two decimals of one value round alike, wherever their digits end. Digits with a point among them are
read as their value, and whatever is read as a number has no other characters than a number has.
-/

namespace Rollup.Decimal

open Binary64

theorem two_pow_le_ten_pow (n : Nat) : 2 ^ (3 * n) ≤ 10 ^ n := by
  rw [Nat.pow_mul]
  exact Nat.pow_le_pow_left (by decide) n

/-- A decimal with a large exponent has too many units for the format. -/
private theorem two_pow_le_of_exponent {digits exponent : Nat} (hdigits : digits ≠ 0)
    (h : 400 < exponent) : 2 ^ 2098 ≤ digits * 10 ^ exponent * one := by
  have hten : 2 ^ 1024 ≤ 10 ^ exponent :=
    Nat.le_trans (Nat.pow_le_pow_right (by decide) (by omega)) (two_pow_le_ten_pow exponent)
  have hscaled : 10 ^ exponent ≤ digits * 10 ^ exponent :=
    Nat.le_mul_of_pos_left _ (Nat.pos_of_ne_zero hdigits)
  rw [show 2098 = 1024 + 1074 from rfl, Nat.pow_add, one]
  exact Nat.mul_le_mul_right _ (Nat.le_trans hten hscaled)

/-- A decimal with few binary digits for its negative exponent is less than half a unit. -/
private theorem two_mul_lt_of_log2 {digits exponent : Nat} (h : digits.log2 + 1081 < 3 * exponent) :
    2 * (digits * one) < 10 ^ exponent := by
  have hpos : 0 < 2 * one := Nat.mul_pos (by decide) one_units_pos
  calc 2 * (digits * one)
      = digits * (2 * one) := Nat.mul_left_comm 2 digits one
    _ < 2 ^ (digits.log2 + 1) * (2 * one) := Nat.mul_lt_mul_of_pos_right Nat.lt_log2_self hpos
    _ = 2 ^ (digits.log2 + 1 + 1075) := by
      rw [Nat.pow_add _ _ 1075, one, ← Nat.pow_succ']
    _ ≤ 2 ^ (3 * exponent) := Nat.pow_le_pow_right (by decide) (by omega)
    _ ≤ 10 ^ exponent := two_pow_le_ten_pow exponent

/-- A decimal is rounded once, from its exact value in units. -/
theorem toBinary64_eq_ofRatio (d : Decimal) :
    d.toBinary64 = ofRatio d.negative (d.digits * 10 ^ d.exponent.toNat * one)
      (10 ^ (-d.exponent).toNat) := by
  obtain ⟨negative, digits, exponent⟩ := d
  rw [toBinary64]
  dsimp only
  by_cases hdigits : digits = 0
  · rw [if_pos hdigits, hdigits, Nat.zero_mul, Nat.zero_mul]
    exact (ofRatio_eq_zero negative (Nat.pow_pos (by decide))).symm
  · rw [if_neg hdigits]
    by_cases hlarge : 400 < exponent
    · have hden : (-exponent).toNat = 0 := by omega
      rw [if_pos hlarge, hden, Nat.pow_zero]
      exact (ofRatio_eq_infinite negative (two_pow_le_of_exponent hdigits (by omega))).symm
    · rw [if_neg hlarge]
      by_cases htiny : (digits.log2 : Int) + 1 + 3 * exponent < -1080
      · have hnum : exponent.toNat = 0 := by omega
        rw [if_pos htiny, hnum, Nat.pow_zero, Nat.mul_one]
        exact (ofRatio_eq_zero negative (two_mul_lt_of_log2 (by omega))).symm
      · rw [if_neg htiny]
        by_cases hsign : 0 ≤ exponent
        · have hden : (-exponent).toNat = 0 := by omega
          rw [if_pos hsign, hden, Nat.pow_zero]
        · have hnum : exponent.toNat = 0 := by omega
          rw [if_neg hsign, hnum, Nat.pow_zero, Nat.mul_one]

/-- A zero at the end of the digits can go into the exponent. -/
theorem toBinary64_ten_mul (negative : Bool) (digits : Nat) (exponent : Int) :
    (Decimal.mk negative (10 * digits) exponent).toBinary64
      = (Decimal.mk negative digits (exponent + 1)).toBinary64 := by
  rw [toBinary64_eq_ofRatio, toBinary64_eq_ofRatio]
  dsimp only
  by_cases h : 0 ≤ exponent
  · have hnum : (exponent + 1).toNat = exponent.toNat + 1 := by omega
    have hden : (-exponent).toNat = 0 := by omega
    have hden' : (-(exponent + 1)).toNat = 0 := by omega
    rw [hnum, hden, hden', Nat.pow_succ', Nat.mul_comm 10 digits, Nat.mul_assoc digits]
  · have hnum : exponent.toNat = 0 := by omega
    have hnum' : (exponent + 1).toNat = 0 := by omega
    have hden : (-exponent).toNat = (-(exponent + 1)).toNat + 1 := by omega
    rw [hnum, hnum', hden, Nat.pow_succ', Nat.pow_zero, Nat.mul_one, Nat.mul_one, Nat.mul_assoc]
    exact ofRatio_mul_left (by decide) _ _ _

/-- Zeros behind the digits of a whole number can go into the exponent. -/
theorem toBinary64_mul_ten_pow (negative : Bool) (digits zeros : Nat) :
    (Decimal.mk negative (digits * 10 ^ zeros) 0).toBinary64
      = (Decimal.mk negative digits zeros).toBinary64 := by
  have hden : (-(zeros : Int)).toNat = 0 := by omega
  rw [toBinary64_eq_ofRatio, toBinary64_eq_ofRatio]
  simp only [Int.toNat_natCast, Int.toNat_zero, Int.neg_zero, hden, Nat.pow_zero, Nat.mul_one]

/-- Digits without an exponent round like the integer that they spell. -/
theorem toBinary64_natAbs (n : Int) :
    (Decimal.mk (decide (n < 0)) n.natAbs 0).toBinary64 = ofInt n := by
  rw [toBinary64_eq_ofRatio, ofInt]
  simp only [Int.toNat_zero, Int.neg_zero, Nat.pow_zero, Nat.mul_one]

/-- Digits alone are read as a whole number. -/
theorem ofText?_digits (negative : Bool) {whole : List Char} (hne : whole ≠ [])
    (hwhole : ∀ c ∈ whole, c.isDigit = true) :
    ofText? negative whole = some ⟨negative, Text.digitsValue whole, 0⟩ := by
  obtain ⟨htake, hdrop⟩ := Text.span_isDigit_self hwhole
  have hempty : whole.isEmpty = false := List.isEmpty_eq_false_iff.mpr hne
  simp [ofText?, htake, hdrop, hempty, readExponent?]

/-- Digits with a point among them are read as all the digits, scaled down by those behind the
point. -/
theorem ofText?_point (negative : Bool) {whole fraction : List Char} (hne : whole ≠ [])
    (hwhole : ∀ c ∈ whole, c.isDigit = true) (hfraction : ∀ c ∈ fraction, c.isDigit = true) :
    ofText? negative (whole ++ '.' :: fraction)
      = some ⟨negative, Text.digitsValue (whole ++ fraction), -(fraction.length : Int)⟩ := by
  have hpoint : ∀ c ∈ ('.' :: fraction).head?, c.isDigit = false := by simp
  obtain ⟨htake, hdrop⟩ := Text.span_isDigit hwhole hpoint
  obtain ⟨hftake, hfdrop⟩ := Text.span_isDigit_self hfraction
  have hempty : whole.isEmpty = false := List.isEmpty_eq_false_iff.mpr hne
  simp [ofText?, htake, hdrop, hempty, hftake, hfdrop, readExponent?]

end Rollup.Decimal

namespace Rollup.Binary64

section Characters

open Text

/-- A character that stands in the text of a floating-point number. -/
def isFloatPart (c : Char) : Bool :=
  c.isDigit || "+-.aefinty".toList.contains c.toLower

theorem isFloatPart_of_isDigit {c : Char} (h : c.isDigit = true) : isFloatPart c = true := by
  simp [isFloatPart, h]

/-- No such character is blank. -/
theorem isBlank_of_isFloatPart {c : Char} (h : isFloatPart c = true) : isBlank c = false := by
  rw [isFloatPart, Bool.or_eq_true, List.contains_iff_mem] at h
  rcases h with hdigit | hword
  · exact isBlank_of_isDigit hdigit
  · by_cases hupper : c.val ≥ 'A'.val ∧ c.val ≤ 'Z'.val
    · rw [ge_iff_le, UInt32.le_iff_toNat_le, UInt32.le_iff_toNat_le] at hupper
      have hlow : 65 ≤ c.toNat := hupper.1
      have hhigh : c.toNat ≤ 90 := hupper.2
      simp [isBlank]
      omega
    · have hlower : c.toLower = c := dif_neg hupper
      rw [hlower] at hword
      simp at hword
      rcases hword with rfl | rfl | rfl | rfl | rfl | rfl | rfl | rfl | rfl | rfl <;> rfl

variable {text : List Char}

/-- Reading a sign leaves every other character. -/
theorem isFloatPart_of_readSign (h : ∀ c ∈ (readSign text).2, isFloatPart c = true) :
    ∀ c ∈ text, isFloatPart c = true := by
  rw [readSign.eq_def] at h
  split at h
  · exact List.forall_mem_cons.mpr ⟨rfl, h⟩
  · exact List.forall_mem_cons.mpr ⟨rfl, h⟩
  · exact h

/-- Reading digits leaves every other character. -/
theorem isFloatPart_of_dropWhile (h : ∀ c ∈ text.dropWhile Char.isDigit, isFloatPart c = true) :
    ∀ c ∈ text, isFloatPart c = true := by
  have hdigits : ∀ c ∈ text.takeWhile Char.isDigit, isFloatPart c = true :=
    fun c hc => isFloatPart_of_isDigit (List.mem_takeWhile_imp hc)
  rw [← List.takeWhile_append_dropWhile (p := Char.isDigit) (l := text)]
  exact List.forall_mem_append.mpr ⟨hdigits, h⟩

/-- A text that is read as an exponent up to its end has the characters of a number. -/
theorem isFloatPart_of_readExponent? {exponent : Option Int}
    (h : Decimal.readExponent? text = some (exponent, [])) : ∀ c ∈ text, isFloatPart c = true := by
  rw [Decimal.readExponent?.eq_def] at h
  split at h
  · exact List.forall_mem_nil _
  · next c rest =>
    split at h
    · next hmark =>
      simp only [Option.ite_none_left_eq_some, Option.some.injEq, Prod.mk.injEq] at h
      refine List.forall_mem_cons.mpr ⟨?_, isFloatPart_of_readSign (isFloatPart_of_dropWhile ?_)⟩
      · rcases hmark with rfl | rfl <;> rfl
      · rw [h.2.2]
        exact List.forall_mem_nil _
    · cases h

/-- A text that is read as a decimal number has the characters of a number. -/
theorem isFloatPart_of_decimal? {negative : Bool} {decimal : Decimal}
    (h : Decimal.ofText? negative text = some decimal) : ∀ c ∈ text, isFloatPart c = true := by
  refine isFloatPart_of_dropWhile ?_
  rw [Decimal.ofText?] at h
  dsimp only at h
  split at h
  · next rest hpoint =>
    rw [hpoint]
    refine List.forall_mem_cons.mpr ⟨rfl, isFloatPart_of_dropWhile ?_⟩
    rw [Option.ite_none_left_eq_some] at h
    obtain ⟨-, h⟩ := h
    split at h
    · next hexponent => exact isFloatPart_of_readExponent? hexponent
    · cases h
  · rw [Option.ite_none_left_eq_some] at h
    obtain ⟨-, h⟩ := h
    split at h
    · next hexponent => exact isFloatPart_of_readExponent? hexponent
    · cases h

/-- A text that is read as a number has the characters of a number. -/
theorem isFloatPart_of_ofText? {x : Binary64} (h : Binary64.ofText? text = some x) :
    ∀ c ∈ text, isFloatPart c = true := by
  refine isFloatPart_of_readSign ?_
  have hword : ∀ word : List Char, (∀ c ∈ word, "+-.aefinty".toList.contains c = true) →
      (readSign text).2.map Char.toLower = word →
      ∀ c ∈ (readSign text).2, isFloatPart c = true := by
    intro word hword hlower c hc
    rw [isFloatPart, hword c.toLower (by rw [← hlower]; exact List.mem_map_of_mem hc), Bool.or_true]
  rw [Binary64.ofText?] at h
  dsimp only at h
  split at h
  · next heq =>
    rcases heq with heq | heq
    · exact hword _ (by simp) heq
    · exact hword _ (by simp) heq
  · split at h
    · next heq => exact hword _ (by simp) heq
    · obtain ⟨decimal, hdecimal, -⟩ := Option.map_eq_some_iff.mp h
      exact isFloatPart_of_decimal? hdecimal

end Characters

end Rollup.Binary64
