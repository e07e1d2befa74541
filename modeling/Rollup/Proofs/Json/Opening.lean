import Mathlib.Data.List.TakeWhile
import Rollup.Json.Reader

/-!
# The first token of JSON text

Which kind of value a text spells is seen from its first token. A reading knows that token from the
outermost of the containers that are open, and every further token leaves it as it is.
-/

namespace Rollup

/-- The first token of a value. -/
def Value.opening : Value → Json.Token
  | null => .null
  | bool flag => .bool flag
  | number n => .number n
  | string text => .string text
  | array _ => .openBracket
  | object _ => .openBrace

theorem Value.opening_eq_openBracket_iff {value : Value} :
    value.opening = .openBracket ↔ value.isArray = true := by
  cases value <;> simp [opening, isArray]

/-- Normal forms keep the kind of a value. -/
@[simp]
theorem Value.isArray_normalize (value : Value) : value.normalize.isArray = value.isArray := by
  cases value <;> simp [normalize, isArray]

namespace Json

/-- The token that opens a container. -/
def Frame.opening : Frame → Token
  | items _ => .openBracket
  | member _ _ => .openBrace

/-- The first of the tokens that open containers, the innermost first, and of a token inside. -/
def outermost : List Frame → Token → Token
  | [], token => token
  | frame :: frames, _ => outermost frames frame.opening

namespace Reading

variable {reading next : Reading} {token : Token}

/-- The first token of what has been read and of a token after it. -/
def opening : Reading → Token → Token
  | value frames _, token => outermost frames token
  | afterItem _ frames, _ => outermost frames .openBracket
  | key _ frames _, _ => outermost frames .openBrace
  | colon _ _ frames, _ => outermost frames .openBrace
  | afterMember _ frames, _ => outermost frames .openBrace
  | finished v, _ => v.opening

/-- A complete value changes no first token: it has its own. -/
theorem opening_complete (frames : List Frame) (v : Value) (token : Token) :
    (complete frames v).opening token = outermost frames v.opening := by
  cases frames with
  | nil => rfl
  | cons frame frames => cases frame <;> rfl

/-- One more token leaves the first token as it is. -/
theorem opening_of_step? (h : reading.step? token = some next) (after : Token) :
    next.opening after = reading.opening token := by
  revert h
  fun_cases step? reading token
  all_goals
    intro h
    cases h
  -- The token either completes a value, or leaves the outermost container in sight.
  all_goals first | rfl | exact opening_complete _ _ _

/-- The tokens of a text leave the first of them as it is. -/
theorem opening_of_foldlM {tokens : List Token} (h : tokens.foldlM step? reading = some next)
    (after : Token) : next.opening after = reading.opening (tokens.headD after) := by
  induction tokens generalizing reading with
  | nil =>
    cases h
    rfl
  | cons token tokens ih =>
    rw [List.foldlM_cons, Option.bind_eq_bind, Option.bind_eq_some_iff] at h
    obtain ⟨middle, hstep, hrest⟩ := h
    rw [ih hrest, opening_of_step? hstep, List.headD_cons]

/-- The first token of a text is that of the value it spells. -/
theorem head?_eq_opening {tokens : List Token} {v : Value}
    (h : tokens.foldlM step? (value [] false) = some (finished v)) :
    tokens.head? = some v.opening := by
  cases tokens with
  | nil => cases h
  | cons token tokens => exact congrArg some (opening_of_foldlM h .comma).symm

end Reading

/-- The first character of a text that is no space is an opening bracket. -/
def OpensArray (text : List Char) : Prop :=
  text.find? (fun c => !Token.isSpace c) = some '['

/-- A token is an opening bracket exactly if the text starts with one. -/
theorem Token.eq_openBracket_iff {text rest : List Char} {token : Token}
    (h : Token.read? text = some (token, rest)) : token = .openBracket ↔ text.head? = some '[' := by
  revert h
  fun_cases Token.read? text with
  | case10 quoted =>
    intro h
    obtain ⟨read, -, hread⟩ := Option.map_eq_some_iff.mp h
    cases hread
    simp
  | case11 _ hbracket =>
    intro h
    obtain ⟨read, -, hread⟩ := Option.map_eq_some_iff.mp h
    cases hread
    refine iff_of_false (by simp) fun hhead => ?_
    obtain ⟨rest, hrest⟩ := List.head?_eq_some_iff.mp hhead
    exact hbracket rest hrest
  | _ =>
    intro h
    cases h
    simp

/-- The first token of a text stands behind its spaces: it is an opening bracket exactly if the
text opens an array. -/
theorem Token.head?_eq_openBracket_iff {text : List Char} {tokens : List Token}
    (h : Token.ofText? text = some tokens) :
    tokens.head? = some .openBracket ↔ OpensArray text := by
  have hfirst : text.find? (fun c => !isSpace c) = (text.dropWhile isSpace).head? := by
    simp [List.find?_eq_head?_dropWhile_not]
  rw [OpensArray, hfirst]
  rw [Token.ofText?] at h
  split at h
  · next hspaces =>
    cases h
    rw [hspaces]
    simp
  · next c rest hspaces =>
    split at h
    · cases h
    · next token after hread =>
      obtain ⟨others, -, rfl⟩ := Option.map_eq_some_iff.mp h
      rw [hspaces, List.head?_cons, Option.some.injEq, Token.eq_openBracket_iff hread]

/-- A text of JSON spells an array exactly if it opens one. -/
theorem isArray_iff_opensArray_of_read? {text : String} {value : Value}
    (h : read? text = some value) : value.isArray = true ↔ OpensArray text.toList := by
  simp only [read?, Option.bind_eq_bind, Option.bind_eq_some_iff] at h
  obtain ⟨tokens, htokens, reading, hreading, hresult⟩ := h
  cases reading with
  | finished v =>
    cases hresult
    rw [← Token.head?_eq_openBracket_iff htokens, Reading.head?_eq_opening hreading,
      Option.some.injEq, Value.opening_eq_openBracket_iff]
  | _ => cases hresult

/-- A text of JSON spells an array in normal form exactly if it opens one. -/
theorem isArray_iff_opensArray {text : String} {value : Value}
    (h : readNormal? text = some value) : value.isArray = true ↔ OpensArray text.toList := by
  rw [readNormal?, Option.map_eq_some_iff] at h
  obtain ⟨written, hread, rfl⟩ := h
  rw [Value.isArray_normalize, isArray_iff_opensArray_of_read? hread]

end Json

end Rollup
