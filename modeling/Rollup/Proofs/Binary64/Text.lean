import Rollup.Binary64.Text
import Rollup.Proofs.Binary64.Shortest

/-!
# Plain texts of floating-point numbers

The plain text of a finite number has a sign, digits and at most one point, and reading it gives the
number back. So the plain text tells finite numbers apart, and where it is also the text of an
integer, the number is the one nearest to that integer.
-/

namespace Rollup.NumberStyle

open Text

/-- Positional digits have the characters of a number, if the mark of a whole number has. -/
theorem isNumeral_of_mem_positional {style : NumberStyle} {digits : List Char} {point : Int}
    {c : Char}
    (hmark : ∀ c ∈ style.wholeMark.toList, isNumeral c = true)
    (hdigits : ∀ c ∈ digits, isNumeral c = true) (h : c ∈ style.positional digits point) :
    isNumeral c = true := by
  rw [positional] at h
  split at h
  · simp only [List.cons_append, List.mem_cons, List.mem_append, List.mem_replicate] at h
    rcases h with rfl | rfl | ⟨_, rfl⟩ | h
    · rfl
    · rfl
    · rfl
    · exact hdigits c h
  · split at h
    · simp only [List.mem_append, List.mem_replicate] at h
      rcases h with (h | ⟨_, rfl⟩) | h
      · exact hdigits c h
      · rfl
      · exact hmark c h
    · rcases List.mem_append.mp h with h | h
      · exact hdigits c (List.mem_of_mem_take h)
      · rcases List.mem_cons.mp h with rfl | h
        · rfl
        · exact hdigits c (List.mem_of_mem_drop h)

/-- The plain text of a finite number has the characters of a number. -/
theorem isNumeral_of_mem_finiteText_plain {x : Binary64.Finite} {c : Char}
    (h : c ∈ plain.finiteText x) : isNumeral c = true := by
  rw [finiteText] at h
  rcases List.mem_append.mp h with h | h
  · split at h
    · rw [List.mem_singleton] at h
      rw [h]
      rfl
    · cases h
  · refine isNumeral_of_mem_positional (fun c hc => by cases hc) ?_ h
    intro c hc
    exact isNumeral_of_isDigit (isDigit_of_mem_natDigits hc)

/-- The plain text is the sign and the shortest digits, with the point where it belongs. -/
theorem plain_finiteText_eq (x : Binary64.Finite) :
    plain.finiteText x = signText x.negative ++ plain.positional (natDigits (x.shortest .away).1)
      ((x.shortest .away).2 + (natDigits (x.shortest .away).1).length) := by
  have htie : plain.tie = .away := rfl
  rw [finiteText, htie]
  generalize x.shortest .away = decimal
  rfl

/-- Positional digits start with a digit. -/
theorem positional_eq_cons (style : NumberStyle) (significant : Nat) (point : Int) :
    ∃ c rest, style.positional (natDigits significant) point = c :: rest ∧ c.isDigit = true := by
  obtain ⟨c, rest, hcons, hc⟩ := natDigits_eq_cons significant
  rw [positional]
  split
  · exact ⟨'0', _, rfl, rfl⟩
  · split
    · rw [hcons]
      exact ⟨c, _, rfl, hc⟩
    · next hpoint _ =>
      obtain ⟨n, hn⟩ := Nat.exists_eq_succ_of_ne_zero (by omega : point.toNat ≠ 0)
      rw [hcons, hn]
      exact ⟨c, _, rfl, hc⟩

private theorem isDigit_natDigits (n : Nat) : ∀ c ∈ natDigits n, c.isDigit = true :=
  fun _ hc => isDigit_of_mem_natDigits hc

private theorem isDigit_zeros (n : Nat) : ∀ c ∈ List.replicate n '0', c.isDigit = true := by
  intro c hc
  rw [List.eq_of_mem_replicate hc]
  rfl

/-- Digits behind the point, with zeros between, are read as the decimal that they write. -/
private theorem ofText?_below_one (negative : Bool) (significant zeros : Nat) :
    Decimal.ofText? negative ('0' :: '.' :: (List.replicate zeros '0' ++ natDigits significant))
      = some ⟨negative, significant, -((zeros + (natDigits significant).length : Nat) : Int)⟩ := by
  have hread := Decimal.ofText?_point negative (List.cons_ne_nil '0' []) (isDigit_zeros 1)
    (List.forall_mem_append.mpr ⟨isDigit_zeros zeros, isDigit_natDigits significant⟩)
  rw [List.length_append, List.length_replicate, ← List.append_assoc, ← List.replicate_one,
    List.replicate_append_replicate, digitsValue_zeros_append, digitsValue_natDigits] at hread
  exact hread

/-- Digits with zeros behind them are read as a whole number. -/
private theorem ofText?_whole (negative : Bool) (significant zeros : Nat) :
    Decimal.ofText? negative (natDigits significant ++ List.replicate zeros '0')
      = some ⟨negative, significant * 10 ^ zeros, 0⟩ := by
  have hread := Decimal.ofText?_digits negative
    (List.append_ne_nil_of_left_ne_nil (natDigits_ne_nil significant) (List.replicate zeros '0'))
    (List.forall_mem_append.mpr ⟨isDigit_natDigits significant, isDigit_zeros zeros⟩)
  rw [digitsValue_append_zeros, digitsValue_natDigits] at hread
  exact hread

/-- Digits with the point among them are read as the decimal that they write. -/
private theorem ofText?_among (negative : Bool) (significant : Nat) {point : Nat} (hpos : 0 < point)
    (hlt : point < (natDigits significant).length) :
    Decimal.ofText? negative
        ((natDigits significant).take point ++ '.' :: (natDigits significant).drop point)
      = some ⟨negative, significant, (point : Int) - (natDigits significant).length⟩ := by
  have hne : (natDigits significant).take point ≠ [] := by
    rw [Ne, List.take_eq_nil_iff]
    rintro (hzero | hnil)
    · omega
    · exact natDigits_ne_nil significant hnil
  have htake : ∀ c ∈ (natDigits significant).take point, c.isDigit = true :=
    fun c hc => isDigit_natDigits significant c (List.mem_of_mem_take hc)
  have hdrop : ∀ c ∈ (natDigits significant).drop point, c.isDigit = true :=
    fun c hc => isDigit_natDigits significant c (List.mem_of_mem_drop hc)
  have hread := Decimal.ofText?_point negative hne htake hdrop
  have hexponent : -(((natDigits significant).length - point : Nat) : Int)
      = (point : Int) - (natDigits significant).length := by omega
  rw [List.take_append_drop, digitsValue_natDigits, List.length_drop, hexponent] at hread
  exact hread

/-- Plain digits are read as a decimal with the value of the one that they write. -/
theorem toBinary64_of_positional (negative : Bool) (significant : Nat) (exponent : Int) :
    (Decimal.ofText? negative (plain.positional (natDigits significant)
        (exponent + (natDigits significant).length))).map Decimal.toBinary64
      = some (Decimal.mk negative significant exponent).toBinary64 := by
  rw [positional]
  split
  · next hpoint =>
    have hexponent : -(((-(exponent + (natDigits significant).length)).toNat
        + (natDigits significant).length : Nat) : Int) = exponent := by omega
    rw [List.cons_append, List.cons_append, ofText?_below_one, hexponent, Option.map_some]
  · next hpoint =>
    split
    · next hwhole =>
      have hzeros :
          (exponent + (natDigits significant).length).toNat - (natDigits significant).length
            = exponent.toNat := by omega
      have hexponent : (exponent.toNat : Int) = exponent := by omega
      rw [hzeros, show plain.wholeMark.toList = [] from rfl, List.append_nil, ofText?_whole,
        Option.map_some, Decimal.toBinary64_mul_ten_pow, hexponent]
    · next hwhole =>
      have hexponent : ((exponent + (natDigits significant).length).toNat : Int)
          - (natDigits significant).length = exponent := by omega
      rw [ofText?_among negative significant (by omega) (by omega), hexponent, Option.map_some]

end Rollup.NumberStyle

namespace Rollup.Binary64

open Text

private theorem toLower_of_isDigit {c : Char} (h : c.isDigit = true) : c.toLower = c := by
  obtain ⟨-, hhigh⟩ := toNat_of_isDigit h
  have hupper : ¬(c.val ≥ 'A'.val ∧ c.val ≤ 'Z'.val) := by
    rw [ge_iff_le, UInt32.le_iff_toNat_le]
    rintro ⟨hle, -⟩
    exact absurd (Nat.le_trans hle hhigh) (by decide)
  exact dif_neg hupper

/-- Signed digits are read as a decimal number. -/
theorem ofText?_signText_append (negative : Bool) {c : Char} (hc : c.isDigit = true)
    (rest : List Char) :
    ofText? (signText negative ++ c :: rest)
      = (Decimal.ofText? negative (c :: rest)).map Decimal.toBinary64 := by
  rw [ofText?, readSign_signText_append negative hc]
  dsimp only
  rw [List.map_cons, toLower_of_isDigit hc]
  rw [if_neg, if_neg]
  · rintro h
    rw [(List.cons.inj h).1] at hc
    cases hc
  · rintro (h | h)
    · rw [(List.cons.inj h).1] at hc
      cases hc
    · rw [(List.cons.inj h).1] at hc
      cases hc

/-- Reading the plain text of a finite number gives the number back. -/
theorem ofText?_plain_finiteText (x : Finite) :
    ofText? (NumberStyle.plain.finiteText x) = some (finite x) := by
  rw [NumberStyle.plain_finiteText_eq]
  obtain ⟨c, rest, hcons, hc⟩ := NumberStyle.positional_eq_cons NumberStyle.plain
    (x.shortest .away).1 ((x.shortest .away).2 + (natDigits (x.shortest .away).1).length)
  rw [hcons, ofText?_signText_append _ hc, ← hcons, NumberStyle.toBinary64_of_positional]
  exact congrArg some (x.isReadFrom_shortest .away)

/-- Finite numbers with the same plain text are the same. -/
theorem plain_finiteText_inj {x y : Finite}
    (h : NumberStyle.plain.finiteText x = NumberStyle.plain.finiteText y) : x = y := by
  have hread := congrArg ofText? h
  rw [ofText?_plain_finiteText, ofText?_plain_finiteText] at hread
  exact Binary64.finite.inj (Option.some.inj hread)

/-- Reading the text of an integer gives the nearest number. -/
theorem ofText?_intText (n : Int) : ofText? (intText n) = some (ofInt n) := by
  obtain ⟨c, rest, hcons, hc⟩ := natDigits_eq_cons n.natAbs
  rw [intText_eq, hcons, ofText?_signText_append _ hc, ← hcons]
  rw [Decimal.ofText?_digits _ (natDigits_ne_nil _) (fun _ hc => isDigit_of_mem_natDigits hc),
    Option.map_some, digitsValue_natDigits, Decimal.toBinary64_natAbs]

/-- A finite number with the plain text of an integer is the one nearest to the integer. -/
theorem ofInt_eq_of_plain_finiteText {x : Finite} {n : Int}
    (h : NumberStyle.plain.finiteText x = intText n) : ofInt n = finite x := by
  have hread := congrArg ofText? h
  rw [ofText?_plain_finiteText, ofText?_intText] at hread
  exact (Option.some.inj hread).symm

/-- The integer that the shortest digits of a number spell with zeros behind them, if they need no
point. -/
def Finite.spelledInteger? (x : Finite) : Option Int :=
  if 0 ≤ (x.shortest .away).2 then
    some (signed x.negative ((x.shortest .away).1 * 10 ^ (x.shortest .away).2.toNat))
  else none

/-- Without a point to write, the plain text is that of the integer that the digits spell. -/
private theorem plain_finiteText_of_whole {x : Finite} (h : x.units ≠ 0)
    (hwhole : 0 ≤ (x.shortest .away).2) :
    NumberStyle.plain.finiteText x
      = intText (signed x.negative ((x.shortest .away).1 * 10 ^ (x.shortest .away).2.toNat)) := by
  have hdigits : 0 < (x.shortest .away).1 := Nat.pos_of_ne_zero (x.shortest_ne_zero h .away)
  have hlength : 0 < (natDigits (x.shortest .away).1).length := Nat.length_toDigits_pos
  rw [NumberStyle.plain_finiteText_eq,
    intText_signed _ (Nat.mul_pos hdigits (Nat.pow_pos (by decide))), natDigits_mul_ten_pow hdigits,
    NumberStyle.positional, if_neg (by omega), if_pos (by omega)]
  rw [show NumberStyle.plain.wholeMark.toList = [] from rfl, List.append_nil]
  congr 3
  omega

/-- A point that has to be written stands in the plain text. -/
private theorem point_mem_plain_finiteText {x : Finite} (h : (x.shortest .away).2 < 0) :
    '.' ∈ NumberStyle.plain.finiteText x := by
  rw [NumberStyle.plain_finiteText_eq, NumberStyle.positional]
  apply List.mem_append_right
  split
  · simp
  · rw [if_neg (by omega)]
    simp

/-- No point stands in the text of an integer. -/
private theorem point_notMem_intText (n : Int) : '.' ∉ intText n := by
  rw [intText_eq]
  intro h
  rcases List.mem_append.mp h with h | h
  · cases hsign : decide (n < 0) <;> simp [signText, hsign] at h
  · have hdigit := isDigit_of_mem_natDigits h
    cases hdigit

/-- The plain text of a number other than zero is the text of the integer that its digits spell, and
of no other. -/
theorem plain_finiteText_eq_intText_iff {x : Finite} (h : x.units ≠ 0) (n : Int) :
    NumberStyle.plain.finiteText x = intText n ↔ x.spelledInteger? = some n := by
  rw [Finite.spelledInteger?]
  by_cases hwhole : 0 ≤ (x.shortest .away).2
  · rw [plain_finiteText_of_whole h hwhole, if_pos hwhole, Option.some.injEq]
    exact ⟨intText_inj, congrArg intText⟩
  · rw [if_neg hwhole]
    constructor
    · intro htext
      have hpoint := point_mem_plain_finiteText (Int.not_le.mp hwhole)
      rw [htext] at hpoint
      exact absurd hpoint (point_notMem_intText n)
    · intro hnone
      cases hnone

end Rollup.Binary64
