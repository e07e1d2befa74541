import Rollup.Value.Basic

/-!
# Terms of written specs

A spec may be written in several text formats. A `Term` is what is common to them: the tree that a
text spells, with members in their order, repeated keys, keys that are not strings, and numbers that
are not finite.
-/

namespace Rollup.Spec

/-- The key of a member of a record. -/
inductive Label where
  /-- A string. -/
  | name (text : String)
  /-- A natural number, which counts the members that a record may have. -/
  | position (index : Nat)
  /-- Any other scalar. -/
  | other
deriving DecidableEq

/-- A part of a written spec. -/
inductive Term where
  /-- The absence of a value. -/
  | null
  /-- A truth value. -/
  | bool (flag : Bool)
  /-- A number. -/
  | number (n : Number)
  /-- An infinity, or not a number. -/
  | nonfinite (x : Binary64)
  /-- A text. -/
  | string (text : String)
  /-- Terms in order. -/
  | list (items : List Term)
  /-- Terms with labels. -/
  | record (members : List (Label × Term))

namespace Term

mutual

/-- The term that a value of JSON text spells. -/
def ofValue : Value → Term
  | .null => null
  | .bool flag => bool flag
  | .number n => number n
  | .string text => string text
  | .array items => list (ofItems items)
  | .object members => record (ofMembers members)

/-- The terms of items. -/
def ofItems : List Value → List Term
  | [] => []
  | item :: items => ofValue item :: ofItems items

/-- The terms of members, labelled by their keys. -/
def ofMembers : List (String × Value) → List (Label × Term)
  | [] => []
  | (key, value) :: members => (.name key, ofValue value) :: ofMembers members

end

mutual

/-- The value that a term denotes in a document, if every label is a string. A number that is not
finite becomes null. -/
def toValue? : Term → Option Value
  | null | nonfinite _ => some .null
  | bool flag => some (.bool flag)
  | number n => some (.number n)
  | string text => some (.string text)
  | list items => (toItems? items).map .array
  | record members => (toMembers? members).map fun members => .object (sortEntries members)

/-- The values that terms denote. -/
def toItems? : List Term → Option (List Value)
  | [] => some []
  | item :: items => do return (← toValue? item) :: (← toItems? items)

/-- The members that labelled terms denote. -/
def toMembers? : List (Label × Term) → Option (List (String × Value))
  | [] => some []
  | (.name key, value) :: members => do return (key, ← toValue? value) :: (← toMembers? members)
  | _ :: _ => none

end

/-- The truth value of a term. -/
def toBool? : Term → Option Bool
  | bool flag => some flag
  | _ => none

/-- The text of a term. -/
def toText? : Term → Option String
  | string text => some text
  | _ => none

/-- The number of a term. -/
def toBinary64? : Term → Option Binary64
  | number n => some n.toBinary64
  | nonfinite x => some x
  | _ => none

/-- The items of a term. -/
def toList? : Term → Option (List Term)
  | list items => some items
  | _ => none

end Term

/-- The slot that a label chooses among named ones. -/
def Label.slot? (names : List String) : Label → Option Nat
  | name text => names.findIdx? (· = text)
  | position index => if index < names.length then some index else none
  | other => none

/-- Puts what has a label into its slot, which must be empty. -/
def fillSlot? {α : Type} (names : List String) (slots : List (Option α)) (member : Label × α) :
    Option (List (Option α)) := do
  let index ← member.1.slot? names
  match slots[index]? with
  | some none => some (slots.set index (some member.2))
  | _ => none

/-- The members of a record by the names of its slots. An unknown label and a repeated one are
refused. -/
def arrange? {α : Type} (names : List String) (members : List (Label × α)) :
    Option (List (Option α)) :=
  members.foldlM (fillSlot? names) (names.map fun _ => none)

/-- The terms of a record, or those of a list in the order of the slots. -/
def Term.slots? (names : List String) : Term → Option (List (Option Term))
  | record members => arrange? names members
  | list items =>
    if items.length ≤ names.length then
      some (items.map some ++ List.replicate (names.length - items.length) none)
    else none
  | _ => none

/-- Reads an optional term; a null counts as missing. -/
def optional? {α : Type} (read : Term → Option α) : Option Term → Option (Option α)
  | none | some .null => some none
  | some term => (read term).map some

end Rollup.Spec
