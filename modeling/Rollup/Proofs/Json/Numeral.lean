import Rollup.Json.Token
import Rollup.Proofs.Binary64.Shortest
import Rollup.Proofs.Text.Digits
import Rollup.Proofs.Text.Marks

/-!
# Numbers in JSON text

The text of every number has the parts of a JSON number: a sign, digits without a needless zero in
front, a fraction and an exponent. These parts are read back as the number, and no two points touch
in such a text.
-/

namespace Rollup.Json

open Text

/-- The parts of a number in JSON text. -/
structure Numeral where
  /-- Whether it has a minus sign. -/
  negative : Bool
  /-- The digits of the integer part. -/
  whole : List Char
  /-- The digits behind the point, if there is one. -/
  fraction : Option (List Char)
  /-- The exponent, if there is one. -/
  exponent : Option Int

namespace Numeral

/-- The text of a fraction. -/
def fractionText : Option (List Char) → List Char
  | none => []
  | some digits => '.' :: digits

/-- The text of an exponent, always with a sign. -/
def exponentText : Option Int → List Char
  | none => []
  | some exponent => 'e' :: (if exponent < 0 then '-' else '+') :: natDigits exponent.natAbs

/-- The text of a number from its parts. -/
def text (numeral : Numeral) : List Char :=
  signText numeral.negative ++
    (numeral.whole ++ (fractionText numeral.fraction ++ exponentText numeral.exponent))

/-- The number that the parts spell, if there is one. -/
def number? (numeral : Numeral) : Option Number :=
  Token.numeral? numeral.negative numeral.whole numeral.fraction numeral.exponent

/-- The parts are those of a JSON number. -/
structure Proper (numeral : Numeral) : Prop where
  /-- There is an integer part. -/
  whole_ne_nil : numeral.whole ≠ []
  /-- It consists of digits. -/
  isDigit_whole : ∀ c ∈ numeral.whole, c.isDigit = true
  /-- It does not start with a needless zero. -/
  zero_alone : ∀ rest, numeral.whole = '0' :: rest → rest = []
  /-- A fraction has a digit. -/
  fraction_ne_nil : ∀ digits ∈ numeral.fraction, digits ≠ []
  /-- It consists of digits. -/
  isDigit_fraction : ∀ digits ∈ numeral.fraction, ∀ c ∈ digits, c.isDigit = true

section Reading

variable {numeral : Numeral}

/-- An integer part is read back. -/
theorem Proper.readWhole? (h : numeral.Proper) {rest : List Char}
    (hrest : ∀ c ∈ rest.head?, c.isDigit = false) :
    Token.readWhole? (numeral.whole ++ rest) = some (numeral.whole, rest) := by
  obtain ⟨htake, hdrop⟩ := span_isDigit h.isDigit_whole hrest
  have hproper : (numeral.whole.isEmpty ||
      (numeral.whole.head? == some '0' && 1 < numeral.whole.length)) = false := by
    obtain ⟨c, digits, hcons⟩ := List.exists_cons_of_ne_nil h.whole_ne_nil
    have hzero := h.zero_alone digits
    rw [hcons] at hzero ⊢
    by_cases hc : c = '0'
    · simp [hc, hzero (by rw [hc])]
    · simp [hc]
  rw [Token.readWhole?, htake, hdrop]
  exact if_neg (by rw [hproper]; exact Bool.false_ne_true)

/-- A fraction is read back. -/
theorem Proper.readFraction? (h : numeral.Proper) {rest : List Char}
    (hrest : ∀ c ∈ rest.head?, c.isDigit = false ∧ c ≠ '.') :
    Token.readFraction? (fractionText numeral.fraction ++ rest) =
      some (numeral.fraction, rest) := by
  cases hfraction : numeral.fraction with
  | none =>
    rw [fractionText, List.nil_append, Token.readFraction?.eq_def]
    split
    · exact absurd rfl (hrest '.' rfl).2
    · rfl
  | some digits =>
    have hdigits := h.isDigit_fraction digits hfraction
    obtain ⟨htake, hdrop⟩ := span_isDigit hdigits fun c hc => (hrest c hc).1
    have hne : digits.isEmpty = false :=
      List.isEmpty_eq_false_iff.mpr (h.fraction_ne_nil digits hfraction)
    rw [fractionText, List.cons_append, Token.readFraction?, htake, hdrop]
    exact if_neg (by rw [hne]; exact Bool.false_ne_true)

/-- An exponent at the end of a text is read back. -/
theorem readExponent?_exponentText (exponent : Option Int) :
    Decimal.readExponent? (exponentText exponent) = some (exponent, []) := by
  cases exponent with
  | none => rfl
  | some n =>
    have hdigits : ∀ c ∈ natDigits n.natAbs, c.isDigit = true :=
      fun _ hc => isDigit_of_mem_natDigits hc
    obtain ⟨htake, hdrop⟩ := span_isDigit_self hdigits
    have hne : (natDigits n.natAbs).isEmpty = false :=
      List.isEmpty_eq_false_iff.mpr (natDigits_ne_nil _)
    by_cases hn : n < 0
    · have habs : -(n.natAbs : Int) = n := by omega
      simp only [exponentText, Decimal.readExponent?, readSign, hn, htake, hdrop, hne, habs,
        digitsValue_natDigits, Char.reduceEq, or_false, Bool.false_eq_true, ↓reduceIte]
    · have habs : (n.natAbs : Int) = n := by omega
      simp only [exponentText, Decimal.readExponent?, readSign, hn, htake, hdrop, hne, habs,
        digitsValue_natDigits, Char.reduceEq, or_false, Bool.false_eq_true, ↓reduceIte]

/-- What follows the fraction does not start with a digit or a point. -/
theorem head?_exponentText (exponent : Option Int) :
    ∀ c ∈ (exponentText exponent).head?, c.isDigit = false ∧ c ≠ '.' := by
  cases exponent with
  | none => simp [exponentText]
  | some n => simp [exponentText]

/-- What follows the integer part does not start with a digit. -/
theorem head?_fractionText_append (fraction : Option (List Char)) (exponent : Option Int) :
    ∀ c ∈ (fractionText fraction ++ exponentText exponent).head?, c.isDigit = false := by
  cases fraction with
  | none => exact fun c hc => (head?_exponentText exponent c hc).1
  | some digits => simp [fractionText]

/-- A sign in front of a digit is read as what it is. -/
theorem readMinus_signText_append (negative : Bool) {c : Char} (hc : c.isDigit = true)
    (rest : List Char) :
    Token.readMinus (signText negative ++ c :: rest) = (negative, c :: rest) := by
  cases negative with
  | true => rfl
  | false =>
    rw [Token.readMinus.eq_def]
    split
    · next h =>
      rw [(List.cons.inj h).1] at hc
      cases hc
    · rfl

/-- The text of a number starts with a minus sign or a digit. -/
theorem Proper.text_eq_cons (h : numeral.Proper) :
    ∃ c rest, numeral.text = c :: rest ∧ (c = '-' ∨ c.isDigit = true) := by
  obtain ⟨c, digits, hcons⟩ := List.exists_cons_of_ne_nil h.whole_ne_nil
  have hc : c.isDigit = true := h.isDigit_whole c (by rw [hcons]; exact List.mem_cons_self)
  rw [text, hcons]
  cases numeral.negative with
  | true => exact ⟨'-', _, rfl, Or.inl rfl⟩
  | false => exact ⟨c, _, rfl, Or.inr hc⟩

/-- The text of a number is read as what its parts spell. -/
theorem Proper.readNumber?_eq (h : numeral.Proper) :
    Token.readNumber? numeral.text = numeral.number?.map fun n => (n, []) := by
  obtain ⟨c, digits, hcons⟩ := List.exists_cons_of_ne_nil h.whole_ne_nil
  have hc : c.isDigit = true := h.isDigit_whole c (by rw [hcons]; exact List.mem_cons_self)
  have hminus : Token.readMinus numeral.text = (numeral.negative,
      numeral.whole ++ (fractionText numeral.fraction ++ exponentText numeral.exponent)) := by
    rw [text, hcons]
    exact readMinus_signText_append _ hc _
  rw [Token.readNumber?, hminus, h.readWhole? (head?_fractionText_append _ _)]
  simp only [Option.bind_eq_bind, Option.bind_some]
  rw [h.readFraction? (head?_exponentText _)]
  simp only [Option.bind_some]
  rw [readExponent?_exponentText, Option.bind_some, Option.map_eq_bind]
  rfl

/-- A text that starts with a minus sign or a digit can only be a number. -/
theorem read?_eq_readNumber? {c : Char} (hc : c = '-' ∨ c.isDigit = true) (rest : List Char) :
    Token.read? (c :: rest)
      = (Token.readNumber? (c :: rest)).map fun (n, rest) => (.number n, rest) := by
  rw [Token.read?.eq_def]
  split
  case h_11 => rfl
  all_goals
    next heq =>
      rw [(List.cons.inj heq).1] at hc
      rcases hc with hc | hc <;> cases hc

end Reading

section Characters

variable {numeral : Numeral}

/-- A character that stands in a number of JSON text. -/
def isPart (c : Char) : Bool :=
  isNumeral c || c == 'e' || c == '+'

theorem isPart_of_isDigit {c : Char} (h : c.isDigit = true) : isPart c = true := by
  simp [isPart, isNumeral_of_isDigit h]

/-- No such character is blank. -/
theorem isBlank_of_isPart {c : Char} (h : isPart c = true) : isBlank c = false := by
  simp only [isPart, isNumeral, Bool.or_eq_true, beq_iff_eq] at h
  rcases h with (((hdigit | rfl) | rfl) | rfl) | rfl
  · exact isBlank_of_isDigit hdigit
  all_goals rfl

/-- Every number consists of such characters. -/
theorem Proper.isPart_of_mem (h : numeral.Proper) {c : Char} (hc : c ∈ numeral.text) :
    isPart c = true := by
  rw [text, List.mem_append, List.mem_append, List.mem_append] at hc
  rcases hc with hsign | hwhole | hfraction | hexponent
  · cases hnegative : numeral.negative <;> simp [signText, hnegative] at hsign
    rw [hsign]
    rfl
  · exact isPart_of_isDigit (h.isDigit_whole c hwhole)
  · cases hdigits : numeral.fraction with
    | none => simp [hdigits, fractionText] at hfraction
    | some digits =>
      rw [hdigits, fractionText, List.mem_cons] at hfraction
      rcases hfraction with rfl | hmem
      · rfl
      · exact isPart_of_isDigit (h.isDigit_fraction digits hdigits c hmem)
  · cases hnumber : numeral.exponent with
    | none => simp [hnumber, exponentText] at hexponent
    | some n =>
      rw [hnumber, exponentText, List.mem_cons, List.mem_cons] at hexponent
      rcases hexponent with rfl | rfl | hmem
      · rfl
      · split <;> rfl
      · exact isPart_of_isDigit (isDigit_of_mem_natDigits hmem)

/-- A number ends in digits. -/
theorem Proper.exists_digits (h : numeral.Proper) :
    ∃ front digits, numeral.text = front ++ digits ∧ digits ≠ [] ∧
      ∀ c ∈ digits, c.isDigit = true := by
  obtain ⟨negative, whole, fraction, exponent⟩ := numeral
  cases exponent with
  | some n =>
    refine ⟨signText negative ++
      (whole ++ (fractionText fraction ++ ['e', if n < 0 then '-' else '+'])),
      natDigits n.natAbs, ?_, natDigits_ne_nil _, fun _ hc => isDigit_of_mem_natDigits hc⟩
    simp [text, exponentText]
  | none =>
    cases fraction with
    | some digits =>
      refine ⟨signText negative ++ (whole ++ ['.']), digits, ?_, h.fraction_ne_nil digits rfl,
        h.isDigit_fraction digits rfl⟩
      simp [text, fractionText, exponentText]
    | none =>
      refine ⟨signText negative, whole, ?_, h.whole_ne_nil, h.isDigit_whole⟩
      simp [text, fractionText, exponentText]

/-- A number does not end in a point. -/
theorem Proper.getLast?_ne_point (h : numeral.Proper) : numeral.text.getLast? ≠ some '.' := by
  obtain ⟨front, digits, htext, hne, hdigits⟩ := h.exists_digits
  intro hlast
  rw [htext, List.getLast?_append_of_ne_nil _ hne] at hlast
  cases hdigits '.' (List.mem_of_mem_getLast? hlast)

/-- No two points touch in a number: it has at most one, and digits around that. -/
theorem Proper.pointsApart (h : numeral.Proper) : PointsApart numeral.text := by
  have hwhole : '.' ∉ signText numeral.negative ++ numeral.whole := by
    intro hpoint
    rcases List.mem_append.mp hpoint with hpoint | hpoint
    · cases hnegative : numeral.negative <;> simp [signText, hnegative] at hpoint
    · cases h.isDigit_whole '.' hpoint
  have hexponent : '.' ∉ exponentText numeral.exponent := by
    intro hpoint
    cases hnumber : numeral.exponent with
    | none => simp [hnumber, exponentText] at hpoint
    | some n =>
      simp only [hnumber, exponentText, List.mem_cons] at hpoint
      rcases hpoint with hpoint | hpoint | hpoint
      · cases hpoint
      · split at hpoint <;> cases hpoint
      · cases isDigit_of_mem_natDigits hpoint
  have hlast : (signText numeral.negative ++ numeral.whole).getLast? ≠ some '.' :=
    fun hlast => hwhole (List.mem_of_mem_getLast? hlast)
  rw [text, ← List.append_assoc]
  refine (pointsApart_of_notMem hwhole).append ?_ (Or.inl hlast)
  cases hfraction : numeral.fraction with
  | none => exact pointsApart_of_notMem hexponent
  | some digits =>
    have hdigits : '.' ∉ digits := fun hpoint => by
      cases h.isDigit_fraction digits hfraction '.' hpoint
    have hbehind : '.' ∉ digits ++ exponentText numeral.exponent := by
      rw [List.mem_append, not_or]
      exact ⟨hdigits, hexponent⟩
    have hhead : (digits ++ exponentText numeral.exponent).head? ≠ some '.' :=
      fun hhead => hbehind (List.mem_of_mem_head? hhead)
    exact (pointsApart_singleton '.').append (pointsApart_of_notMem hbehind) (Or.inr hhead)

end Characters

section Numbers

/-- Only the digits of zero start with a zero. -/
theorem eq_zero_of_natDigits {n : Nat} {rest : List Char} (h : natDigits n = '0' :: rest) :
    n = 0 := by
  induction n using Nat.strongRecOn generalizing rest with
  | ind n ih =>
    by_cases hn : n < 10
    · rw [natDigits, Nat.toDigits_of_lt_base hn] at h
      exact Nat.digitChar_eq_zero.mp (List.cons.inj h).1
    · have hstep : natDigits (10 * (n / 10) + n % 10) = natDigits (n / 10) ++ natDigits (n % 10) :=
        (Nat.toDigits_append_toDigits (by decide) (by omega) (by omega)).symm
      obtain ⟨c, digits, hcons, -⟩ := natDigits_eq_cons (n / 10)
      rw [Nat.div_add_mod, hcons, h] at hstep
      rw [← (List.cons.inj hstep).1] at hcons
      have hzero := ih (n / 10) (by omega) hcons
      omega

/-- The parts of an integer. -/
def ofInt (n : Int) : Numeral where
  negative := decide (n < 0)
  whole := natDigits n.natAbs
  fraction := none
  exponent := none

theorem proper_ofInt (n : Int) : (ofInt n).Proper where
  whole_ne_nil := natDigits_ne_nil _
  isDigit_whole _ hc := isDigit_of_mem_natDigits hc
  zero_alone rest h := by
    have hzero := eq_zero_of_natDigits h
    rw [ofInt, hzero] at h
    exact (List.cons.inj h).2.symm
  fraction_ne_nil := by simp [ofInt]
  isDigit_fraction := by simp [ofInt]

theorem text_ofInt (n : Int) : (ofInt n).text = intText n := by
  rw [intText_eq]
  simp [text, ofInt, fractionText, exponentText]

/-- An integer that fits in a word of 64 bits is spelled by its parts. -/
theorem number?_ofInt {n : Int} (h : (Number.integer n).InRange) :
    (ofInt n).number? = some (.integer n) := by
  obtain ⟨hlow, hhigh⟩ := h
  simp only [number?, ofInt, Token.numeral?, digitsValue_natDigits, decide_eq_true_eq]
  by_cases hn : n < 0
  · rw [if_pos ⟨hn, by omega, by omega⟩]
    congr 2
    omega
  · rw [if_neg (by simp [hn]), if_pos ⟨hn, by omega⟩]
    congr 2
    omega

/-- Parts are proper if all their digits are digits, there are some in front of the point, none of
them a needless zero, and some behind a point. -/
theorem proper_of_digits {numeral : Numeral} (hwhole : numeral.whole ≠ [])
    (hfraction : numeral.fraction ≠ some [])
    (hzero : ∀ rest, numeral.whole = '0' :: rest → rest = [])
    (hdigits : ∀ c ∈ numeral.whole ++ numeral.fraction.getD [], c.isDigit = true) :
    numeral.Proper where
  whole_ne_nil := hwhole
  isDigit_whole _ hc := hdigits _ (List.mem_append_left _ hc)
  zero_alone := hzero
  fraction_ne_nil digits h hnil := hfraction (by rw [h, hnil])
  isDigit_fraction digits h _ hc :=
    hdigits _ (List.mem_append_right _ (by rw [h]; exact hc))

theorem isDigit_of_mem_replicate {n : Nat} {c : Char} (h : c ∈ List.replicate n '0') :
    c.isDigit = true := by
  rw [List.eq_of_mem_replicate h]
  rfl

theorem natDigits_take_ne_nil (n : Nat) {point : Nat} (h : point ≠ 0) :
    (natDigits n).take point ≠ [] := by
  rw [Ne, List.take_eq_nil_iff, not_or]
  exact ⟨h, natDigits_ne_nil n⟩

variable (negative : Bool) (significant : Nat)

/-- Digits behind the point and some zeros. -/
def behindPoint (zeros : Nat) : Numeral where
  negative := negative
  whole := ['0']
  fraction := some (List.replicate zeros '0' ++ natDigits significant)
  exponent := none

/-- Digits and some zeros in front of the point. -/
def beforePoint (zeros : Nat) : Numeral where
  negative := negative
  whole := natDigits significant ++ List.replicate zeros '0'
  fraction := some ['0']
  exponent := none

/-- Digits with the point behind some of them. -/
def aroundPoint (point : Nat) : Numeral where
  negative := negative
  whole := (natDigits significant).take point
  fraction := some ((natDigits significant).drop point)
  exponent := none

/-- Digits with the point behind the first of them, if there are more, and an exponent. -/
def scientific (exponent : Int) : Numeral where
  negative := negative
  whole := (natDigits significant).take 1
  fraction := if ((natDigits significant).drop 1).isEmpty then none
    else some ((natDigits significant).drop 1)
  exponent := some exponent

theorem proper_behindPoint (zeros : Nat) : (behindPoint negative significant zeros).Proper := by
  refine proper_of_digits (List.cons_ne_nil _ _) ?_ (fun rest h => (List.cons.inj h).2.symm) ?_
  · simp [behindPoint, natDigits_ne_nil]
  · intro c hc
    simp only [behindPoint, Option.getD_some, List.mem_append, List.mem_singleton] at hc
    rcases hc with rfl | hzero | hdigit
    · rfl
    · exact isDigit_of_mem_replicate hzero
    · exact isDigit_of_mem_natDigits hdigit

theorem proper_beforePoint {zeros : Nat} (hzero : significant = 0 → zeros = 0) :
    (beforePoint negative significant zeros).Proper := by
  refine proper_of_digits (List.append_ne_nil_of_left_ne_nil (natDigits_ne_nil _) _) ?_ ?_ ?_
  · simp [beforePoint]
  · intro rest h
    obtain ⟨c, digits, hcons, -⟩ := natDigits_eq_cons significant
    rw [beforePoint, hcons, List.cons_append] at h
    obtain ⟨rfl, hrest⟩ := List.cons.inj h
    have hsignificant := eq_zero_of_natDigits hcons
    rw [hsignificant] at hcons
    rw [← hrest, hzero hsignificant, ← (List.cons.inj hcons).2]
    rfl
  · intro c hc
    simp only [beforePoint, Option.getD_some, List.mem_append, List.mem_singleton] at hc
    rcases hc with (hdigit | hzeros) | rfl
    · exact isDigit_of_mem_natDigits hdigit
    · exact isDigit_of_mem_replicate hzeros
    · rfl

theorem proper_aroundPoint {point : Nat} (hpos : 0 < point)
    (hlt : point < (natDigits significant).length) :
    (aroundPoint negative significant point).Proper := by
  refine proper_of_digits (natDigits_take_ne_nil _ (by omega)) ?_ ?_ ?_
  · simp only [aroundPoint, Ne, Option.some.injEq, List.drop_eq_nil_iff]
    omega
  · intro rest h
    -- Digits that start with a zero are that zero alone, which leaves none for the other side.
    have hcons : natDigits significant = '0' :: (rest ++ (natDigits significant).drop point) := by
      rw [← List.cons_append, ← h, aroundPoint, List.take_append_drop]
    rw [eq_zero_of_natDigits hcons] at hlt
    exact absurd hlt (by simp [natDigits]; omega)
  · intro c hc
    rw [aroundPoint, Option.getD_some, List.take_append_drop] at hc
    exact isDigit_of_mem_natDigits hc

/-- A number with an exponent has its digits on the two sides of the point. -/
theorem digits_scientific (exponent : Int) :
    (scientific negative significant exponent).whole ++
      (scientific negative significant exponent).fraction.getD [] = natDigits significant := by
  rw [scientific]
  split
  · next hempty =>
    rw [Option.getD_none, ← List.isEmpty_iff.mp hempty, List.take_append_drop]
  · rw [Option.getD_some, List.take_append_drop]

theorem proper_scientific (exponent : Int) : (scientific negative significant exponent).Proper := by
  refine proper_of_digits (natDigits_take_ne_nil _ (by decide)) ?_ ?_ ?_
  · rw [scientific]
    split
    · simp
    · next hempty =>
      intro h
      rw [Option.some.inj h] at hempty
      exact hempty rfl
  · intro rest h
    have hlength := congrArg List.length h
    rw [scientific, List.length_take, List.length_cons] at hlength
    exact List.length_eq_zero_iff.mp (by omega)
  · intro c hc
    rw [digits_scientific] at hc
    exact isDigit_of_mem_natDigits hc

/-- Parts with a fraction or an exponent spell a floating-point number. -/
theorem number?_of_inexact {numeral : Numeral}
    (h : numeral.fraction ≠ none ∨ numeral.exponent ≠ none) :
    numeral.number?
      = Token.finiteNumber? (Decimal.mk numeral.negative
          (digitsValue (numeral.whole ++ numeral.fraction.getD []))
          (numeral.exponent.getD 0 - (numeral.fraction.getD []).length)).toBinary64 := by
  obtain ⟨negative, whole, fraction, exponent⟩ := numeral
  cases fraction with
  | some digits => rfl
  | none =>
    cases exponent with
    | some n => rfl
    | none => simp at h

/-- The parts of a decimal number, as they are written in JSON text. -/
def ofDecimal (exponent : Int) : Numeral :=
  let length := (natDigits significant).length
  let point := exponent + length
  if NumberStyle.json.isPositional point then
    if point ≤ 0 then behindPoint negative significant (-point).toNat
    else if length ≤ point.toNat then beforePoint negative significant (point.toNat - length)
    else aroundPoint negative significant point.toNat
  else scientific negative significant (point - 1)

theorem proper_ofDecimal {exponent : Int} (hzero : significant = 0 → exponent = 0) :
    (ofDecimal negative significant exponent).Proper := by
  rw [ofDecimal]
  split
  · split
    · exact proper_behindPoint _ _ _
    · split
      · refine proper_beforePoint _ _ fun hsignificant => ?_
        rw [hsignificant, hzero hsignificant]
        rfl
      · exact proper_aroundPoint _ _ (by omega) (by omega)
  · exact proper_scientific _ _ _

/-- The parts of the shortest decimal make up the text of a floating-point number. -/
theorem text_ofDecimal (x : Binary64.Finite) :
    (ofDecimal x.negative (x.shortest .even).1 (x.shortest .even).2).text
      = NumberStyle.json.finiteText x := by
  have htie : NumberStyle.json.tie = .even := rfl
  rw [NumberStyle.finiteText, htie]
  generalize x.shortest .even = decimal
  obtain ⟨significant, exponent⟩ := decimal
  dsimp only
  rw [ofDecimal]
  split
  · rw [NumberStyle.positional]
    split
    · refine congrArg (signText x.negative ++ ·) ?_
      simp [behindPoint, fractionText, exponentText]
    · split
      · refine congrArg (signText x.negative ++ ·) ?_
        have hmark : NumberStyle.json.wholeMark.toList = ['.', '0'] := rfl
        simp [beforePoint, fractionText, exponentText, hmark]
      · refine congrArg (signText x.negative ++ ·) ?_
        simp [aroundPoint, fractionText, exponentText]
  · refine congrArg (signText x.negative ++ ·) ?_
    have hplus : NumberStyle.json.exponentPlus.toList = ['+'] := rfl
    have hfraction : ∀ digits : List Char,
        fractionText (if digits.isEmpty then none else some digits)
          = if digits.isEmpty then [] else '.' :: digits := by
      intro digits
      cases digits <;> rfl
    have hexponent : ∀ n : Int, exponentText (some n)
        = 'e' :: ((if n < 0 then [] else ['+']) ++ intText n) := by
      intro n
      rw [exponentText, intText]
      split <;> rfl
    simp only [NumberStyle.scientific, scientific, hplus, hfraction, hexponent, List.append_assoc]

/-- Zeros behind the point count as places. -/
theorem number?_behindPoint (zeros : Nat) :
    (behindPoint negative significant zeros).number?
      = Token.finiteNumber? (Decimal.mk negative significant
          (-(zeros + (natDigits significant).length : Nat))).toBinary64 := by
  have hvalue : digitsValue (['0'] ++ (List.replicate zeros '0' ++ natDigits significant))
      = significant := by
    rw [← List.replicate_one, digitsValue_zeros_append, digitsValue_zeros_append,
      digitsValue_natDigits]
  rw [number?_of_inexact (Or.inl (Option.some_ne_none _))]
  simp only [behindPoint, Option.getD_some, Option.getD_none, hvalue, List.length_append,
    List.length_replicate, Int.zero_sub]

/-- Zeros in front of the point count as powers of ten. -/
theorem number?_beforePoint (zeros : Nat) :
    (beforePoint negative significant zeros).number?
      = Token.finiteNumber? (Decimal.mk negative significant zeros).toBinary64 := by
  have hvalue : digitsValue (natDigits significant ++ List.replicate zeros '0' ++ ['0'])
      = 10 * (significant * 10 ^ zeros) := by
    rw [← List.replicate_one, digitsValue_append_zeros, digitsValue_append_zeros,
      digitsValue_natDigits, Nat.pow_one, Nat.mul_comm]
  rw [number?_of_inexact (Or.inl (Option.some_ne_none _))]
  simp only [beforePoint, Option.getD_some, Option.getD_none, hvalue, List.length_singleton,
    Decimal.toBinary64_ten_mul]
  exact congrArg _ (Decimal.toBinary64_mul_ten_pow negative significant zeros)

/-- The digits behind the point count as places. -/
theorem number?_aroundPoint (point : Nat) :
    (aroundPoint negative significant point).number?
      = Token.finiteNumber? (Decimal.mk negative significant
          (-((natDigits significant).length - point : Nat))).toBinary64 := by
  rw [number?_of_inexact (Or.inl (Option.some_ne_none _))]
  simp only [aroundPoint, Option.getD_some, Option.getD_none, List.take_append_drop,
    digitsValue_natDigits, List.length_drop, Int.zero_sub]

/-- The exponent counts from the first digit. -/
theorem number?_scientific (exponent : Int) :
    (scientific negative significant exponent).number?
      = Token.finiteNumber? (Decimal.mk negative significant
          (exponent + 1 - (natDigits significant).length)).toBinary64 := by
  have hdigits := digits_scientific negative significant exponent
  have hlength := congrArg List.length hdigits
  have hpos : 0 < (natDigits significant).length := Nat.length_toDigits_pos
  have hwhole : (scientific negative significant exponent).whole.length = 1 := by
    rw [scientific, List.length_take]
    omega
  rw [List.length_append, hwhole] at hlength
  rw [number?_of_inexact (Or.inr (Option.some_ne_none _)), hdigits, digitsValue_natDigits]
  have hexponent : exponent - ((scientific negative significant exponent).fraction.getD []).length
      = exponent + 1 - (natDigits significant).length := by omega
  exact congrArg (fun e => Token.finiteNumber? (Decimal.mk negative significant e).toBinary64)
    hexponent

/-- The parts of a decimal number spell its nearest floating-point number. -/
theorem number?_ofDecimal (exponent : Int) :
    (ofDecimal negative significant exponent).number?
      = Token.finiteNumber? (Decimal.mk negative significant exponent).toBinary64 := by
  rw [ofDecimal]
  split
  · split
    · rw [number?_behindPoint]
      congr 3
      omega
    · split
      · rw [number?_beforePoint]
        congr 3
        omega
      · rw [number?_aroundPoint]
        congr 3
        omega
  · rw [number?_scientific]
    congr 3
    omega

end Numbers

end Numeral

/-- Every number is written as the parts of a JSON number that spell it. -/
theorem exists_numeral {n : Number} (h : n.InRange) :
    ∃ numeral : Numeral, numeral.Proper ∧ n.text .json = numeral.text ∧
      numeral.number? = some n := by
  cases n with
  | integer n =>
    exact ⟨.ofInt n, Numeral.proper_ofInt n, (Numeral.text_ofInt n).symm, Numeral.number?_ofInt h⟩
  | float x =>
    refine ⟨.ofDecimal x.negative (x.shortest .even).1 (x.shortest .even).2,
      Numeral.proper_ofDecimal _ _ ?_, (Numeral.text_ofDecimal x).symm, ?_⟩
    · intro hzero
      have hunits : x.units = 0 := by
        by_contra hne
        exact x.shortest_ne_zero hne .even hzero
      rw [Binary64.Finite.shortest, if_pos hunits]
    · rw [Numeral.number?_ofDecimal, x.isReadFrom_shortest .even]
      rfl

end Rollup.Json
