/-!
# Cutting texts into pieces

Texts are cut as lists of characters. `cut?` cuts at the first occurrence of a mark, `lines` at line
feeds, and `pieces` a string at every occurrence of one character.
-/

namespace Rollup.Text

/-- What stands before and after the first occurrence of `mark`. -/
def cut? (mark : List Char) : List Char → Option (List Char × List Char)
  | [] => if mark = [] then some ([], []) else none
  | c :: rest =>
    if mark.isPrefixOf (c :: rest) then some ([], (c :: rest).drop mark.length)
    else (cut? mark rest).map fun halves => (c :: halves.1, halves.2)

/-- Removes one carriage return from the end of a line. -/
def dropCarriageReturn (line : List Char) : List Char :=
  if line.getLast? = some '\r' then line.dropLast else line

/--
The lines of a text. A line ends at a line feed, with one carriage return before it taken off too;
what follows the last line feed is a line only if it is not empty.
-/
def lines (text : List Char) : List (List Char) :=
  let pieces := text.splitOn '\n'
  let last := pieces.getLast?.getD []
  pieces.dropLast.map dropCarriageReturn ++ (if last.isEmpty then [] else [last])

/-- Cuts a string at every occurrence of `sep`. -/
def pieces (sep : Char) (text : String) : List String :=
  (text.toList.splitOn sep).map String.ofList

end Rollup.Text
