import Rollup.Value.Number
import Rollup.Json.Quoted

/-!
# Tokens of JSON text

`Token.ofText?` cuts a text into its tokens, the spaces between them dropping out. An integer that
no word of 64 bits holds and the negative zero read as floating-point numbers; a number that
overflows is refused.
-/

namespace Rollup.Json

/-- A token of JSON text. -/
inductive Token where
  /-- An opening bracket. -/
  | openBracket
  /-- A closing bracket. -/
  | closeBracket
  /-- An opening brace. -/
  | openBrace
  /-- A closing brace. -/
  | closeBrace
  /-- A comma. -/
  | comma
  /-- A colon. -/
  | colon
  /-- The word `null`. -/
  | null
  /-- The word `true` or `false`. -/
  | bool (flag : Bool)
  /-- A number. -/
  | number (n : Number)
  /-- A quoted string. -/
  | string (text : String)
deriving DecidableEq

namespace Token

/-- Whether a character may stand between tokens. -/
def isSpace (c : Char) : Bool :=
  c == ' ' || c == '\t' || c == '\n' || c == '\r'

/-- Reads the digits after a decimal point, if there is one. -/
def readFraction? : List Char → Option (Option (List Char) × List Char)
  | '.' :: rest =>
    let digits := rest.takeWhile Char.isDigit
    if digits.isEmpty then none else some (some digits, rest.dropWhile Char.isDigit)
  | rest => some (none, rest)

/-- The number that a floating-point number is, unless it overflows. -/
def finiteNumber? : Binary64 → Option Number
  | .finite x => some (.float x)
  | _ => none

/-- The number that the parts of a numeral spell. -/
def numeral? (negative : Bool) (whole : List Char) (fraction : Option (List Char))
    (exponent : Option Int) : Option Number :=
  let magnitude := Text.digitsValue whole
  match fraction, exponent with
  | none, none =>
    if negative ∧ 0 < magnitude ∧ magnitude ≤ 2 ^ 63 then some (.integer (-magnitude))
    else if ¬negative ∧ magnitude < 2 ^ 64 then some (.integer magnitude)
    else finiteNumber? (Decimal.mk negative magnitude 0).toBinary64
  | _, _ =>
    let fraction := fraction.getD []
    finiteNumber?
      (Decimal.mk negative (Text.digitsValue (whole ++ fraction))
        (exponent.getD 0 - fraction.length)).toBinary64

/-- Reads a minus sign, if there is one. -/
def readMinus : List Char → Bool × List Char
  | '-' :: rest => (true, rest)
  | text => (false, text)

/-- Reads the integer part of a number: digits without a needless zero in front. -/
def readWhole? (text : List Char) : Option (List Char × List Char) :=
  let digits := text.takeWhile Char.isDigit
  if digits.isEmpty || (digits.head? == some '0' && 1 < digits.length) then none
  else some (digits, text.dropWhile Char.isDigit)

/-- Reads a number: an integer part with an optional minus sign, an optional fraction, an optional
exponent. -/
def readNumber? (text : List Char) : Option (Number × List Char) := do
  let (whole, rest) ← readWhole? (readMinus text).2
  let (fraction, rest) ← readFraction? rest
  let (exponent, rest) ← Decimal.readExponent? rest
  let n ← numeral? (readMinus text).1 whole fraction exponent
  return (n, rest)

/-- Reads one token from the start of a text that does not start with a space. -/
def read? : List Char → Option (Token × List Char)
  | '[' :: rest => some (openBracket, rest)
  | ']' :: rest => some (closeBracket, rest)
  | '\x7b' :: rest => some (openBrace, rest)
  | '\x7d' :: rest => some (closeBrace, rest)
  | ',' :: rest => some (comma, rest)
  | ':' :: rest => some (colon, rest)
  | 'n' :: 'u' :: 'l' :: 'l' :: rest => some (null, rest)
  | 't' :: 'r' :: 'u' :: 'e' :: rest => some (bool true, rest)
  | 'f' :: 'a' :: 'l' :: 's' :: 'e' :: rest => some (bool false, rest)
  | '"' :: rest => (readQuoted? rest).map fun (text, rest) => (string (String.ofList text), rest)
  | text => (readNumber? text).map fun (n, rest) => (number n, rest)

theorem length_dropWhile_le (p : Char → Bool) (text : List Char) :
    (text.dropWhile p).length ≤ text.length :=
  (List.dropWhile_sublist p).length_le

theorem length_readQuoted?_lt {text : List Char} :
    ∀ {read rest : List Char}, readQuoted? text = some (read, rest) →
      rest.length < text.length := by
  fun_induction readQuoted? text <;> intro read rest h <;>
    grind [Option.map_eq_some_iff, List.length_cons]

theorem length_readMinus_le (text : List Char) : (readMinus text).2.length ≤ text.length := by
  unfold readMinus
  split <;> simp

theorem length_readWhole?_lt {text whole rest : List Char}
    (h : readWhole? text = some (whole, rest)) : rest.length < text.length := by
  simp only [readWhole?] at h
  split at h
  · simp at h
  · next hdigits =>
    simp only [Option.some.injEq, Prod.mk.injEq] at h
    have hsplit :=
      congrArg List.length (List.takeWhile_append_dropWhile (p := Char.isDigit) (l := text))
    simp only [List.length_append] at hsplit
    have hpos : 0 < (text.takeWhile Char.isDigit).length := by
      refine List.length_pos_iff.2 fun hnil => hdigits ?_
      simp [hnil]
    rw [← h.2]
    omega

theorem length_readFraction?_le {text : List Char} {fraction : Option (List Char)}
    {rest : List Char} (h : readFraction? text = some (fraction, rest)) :
    rest.length ≤ text.length := by
  unfold readFraction? at h
  split at h
  · next tail =>
    have := length_dropWhile_le Char.isDigit tail
    simp only [Option.ite_none_left_eq_some, Option.some.injEq, Prod.mk.injEq] at h
    simp only [← h.2.2, List.length_cons]
    omega
  · simp_all

theorem length_readNumber?_lt {text : List Char} {n : Number} {rest : List Char}
    (h : readNumber? text = some (n, rest)) : rest.length < text.length := by
  simp only [readNumber?, Option.bind_eq_bind, Option.bind_eq_some_iff, Option.pure_def,
    Option.some.injEq, Prod.mk.injEq, Prod.exists] at h
  obtain ⟨whole, afterWhole, hwhole, fraction, afterFraction, hfraction, exponent, afterExponent,
    hexponent, m, _, _, rfl⟩ := h
  have := length_readMinus_le text
  have := length_readWhole?_lt hwhole
  have := length_readFraction?_le hfraction
  have := Decimal.length_readExponent?_le hexponent
  omega

/-- A token takes at least one character. -/
theorem length_read?_lt {text : List Char} {token : Token} {rest : List Char}
    (h : read? text = some (token, rest)) : rest.length < text.length := by
  unfold read? at h
  split at h
  case h_10 tail =>
    simp only [Option.map_eq_some_iff, Prod.exists, Prod.mk.injEq] at h
    obtain ⟨read, after, hread, _, rfl⟩ := h
    have := length_readQuoted?_lt hread
    simp only [List.length_cons]
    omega
  case h_11 =>
    simp only [Option.map_eq_some_iff, Prod.exists, Prod.mk.injEq] at h
    obtain ⟨n, after, hread, _, rfl⟩ := h
    exact length_readNumber?_lt hread
  all_goals
    simp only [Option.some.injEq, Prod.mk.injEq] at h
    simp only [← h.2, List.length_cons]
    omega

/-- The tokens of a text. -/
def ofText? (text : List Char) : Option (List Token) :=
  match _hstart : text.dropWhile isSpace with
  | [] => some []
  | c :: cs =>
    match _hread : read? (c :: cs) with
    | none => none
    | some (token, rest) => (ofText? rest).map (token :: ·)
termination_by text.length
decreasing_by
  have hle := length_dropWhile_le isSpace text
  have hlt := length_read?_lt _hread
  rw [_hstart] at hle
  omega

end Token

end Rollup.Json
