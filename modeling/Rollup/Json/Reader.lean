import Rollup.Json.Token
import Rollup.Value.Basic

/-!
# Reading JSON text

A text is read token by token. What has been read so far is a `Reading`: the containers that are
still open, innermost first, and what may come next. `read?` answers with the value of a whole text,
its members as written, and `readNormal?` brings that value into normal form.
-/

namespace Rollup.Json

/-- An open container inside which a value is awaited. -/
inductive Frame where
  /-- An array with its items so far, the last one first. -/
  | items (done : List Value)
  /-- An object with its members so far, the last one first, and the key of the awaited value. -/
  | member (done : List (String × Value)) (key : String)

/-- What has been read, and what may come next. -/
inductive Reading where
  /-- A value, or the end of an array that has just begun. -/
  | value (frames : List Frame) (mayClose : Bool)
  /-- A comma or the end of an array. -/
  | afterItem (done : List Value) (frames : List Frame)
  /-- A key, or the end of an object that has just begun. -/
  | key (done : List (String × Value)) (frames : List Frame) (mayClose : Bool)
  /-- The colon after a key. -/
  | colon (done : List (String × Value)) (key : String) (frames : List Frame)
  /-- A comma or the end of an object. -/
  | afterMember (done : List (String × Value)) (frames : List Frame)
  /-- Nothing: the value is complete. -/
  | finished (value : Value)

namespace Reading

/-- The deepest nesting of containers that is read. -/
def maxDepth : Nat := 127

/-- Gives a complete value to the container that awaits it. -/
def complete : List Frame → Value → Reading
  | [], v => finished v
  | .items done :: frames, v => afterItem (v :: done) frames
  | .member done name :: frames, v => afterMember ((name, v) :: done) frames

/-- Reads one more token. -/
def step? : Reading → Token → Option Reading
  | value frames _, .null => some (complete frames .null)
  | value frames _, .bool flag => some (complete frames (.bool flag))
  | value frames _, .number n => some (complete frames (.number n))
  | value frames _, .string text => some (complete frames (.string text))
  | value frames _, .openBracket =>
    if frames.length < maxDepth then some (value (.items [] :: frames) true) else none
  | value frames _, .openBrace =>
    if frames.length < maxDepth then some (key [] frames true) else none
  | value (.items [] :: frames) true, .closeBracket => some (complete frames (.array []))
  | afterItem done frames, .comma => some (value (.items done :: frames) false)
  | afterItem done frames, .closeBracket => some (complete frames (.array done.reverse))
  | key done frames _, .string name => some (colon done name frames)
  | key [] frames true, .closeBrace => some (complete frames (.object []))
  | colon done name frames, .colon => some (value (.member done name :: frames) false)
  | afterMember done frames, .comma => some (key done frames false)
  | afterMember done frames, .closeBrace => some (complete frames (.object done.reverse))
  | _, _ => none

/-- The value of a finished reading. -/
def result? : Reading → Option Value
  | finished v => some v
  | _ => none

end Reading

/-- The value that a text spells, its members in the order of the text. -/
def read? (text : String) : Option Value := do
  let tokens ← Token.ofText? text.toList
  let reading ← tokens.foldlM Reading.step? (.value [] false)
  reading.result?

/-- The value that a text spells, in normal form. -/
def readNormal? (text : String) : Option Value :=
  (read? text).map Value.normalize

end Rollup.Json
