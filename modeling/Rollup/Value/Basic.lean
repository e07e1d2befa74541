import Rollup.Value.Number
import Rollup.SortedMap

/-!
# Values

A document, a field of it, a group key and a result record are all values: null, booleans, numbers,
strings, arrays and objects. An object is a list of members. A text may repeat a key or write keys
in any order, so a value read from a text holds its members as written; `Value.normalize` brings it
into the form in which all else is done, with the members of every object in ascending key order
(`Value.WellFormed`).
-/

namespace Rollup

/-- A piece of data. -/
inductive Value where
  /-- The absence of a value, written out. -/
  | null
  /-- A truth value. -/
  | bool (flag : Bool)
  /-- A number. -/
  | number (n : Number)
  /-- A text. -/
  | string (text : String)
  /-- Values in order. -/
  | array (items : List Value)
  /-- Values with keys. -/
  | object (members : List (String × Value))

namespace Value

instance : Inhabited Value := ⟨null⟩

mutual

/-- Whether two values are the same. -/
def same : Value → Value → Bool
  | null, null => true
  | bool a, bool b => a == b
  | number a, number b => decide (a = b)
  | string a, string b => decide (a = b)
  | array a, array b => sameItems a b
  | object a, object b => sameMembers a b
  | _, _ => false

/-- Whether two lists of items are the same. -/
def sameItems : List Value → List Value → Bool
  | [], [] => true
  | a :: as, b :: bs => same a b && sameItems as bs
  | _, _ => false

/-- Whether two lists of members are the same. -/
def sameMembers : List (String × Value) → List (String × Value) → Bool
  | [], [] => true
  | (j, a) :: as, (k, b) :: bs => decide (j = k) && same a b && sameMembers as bs
  | _, _ => false

end

mutual

theorem same_iff : ∀ a b : Value, same a b = true ↔ a = b
  | null, b => by cases b <;> simp [same]
  | bool _, b => by cases b <;> simp [same]
  | number _, b => by cases b <;> simp [same]
  | string _, b => by cases b <;> simp [same]
  | array as, b => by
    cases b with
    | array bs => simp [same, sameItems_iff as bs]
    | _ => simp [same]
  | object as, b => by
    cases b with
    | object bs => simp [same, sameMembers_iff as bs]
    | _ => simp [same]

theorem sameItems_iff : ∀ as bs : List Value, sameItems as bs = true ↔ as = bs
  | [], bs => by cases bs <;> simp [sameItems]
  | a :: as, bs => by
    cases bs with
    | nil => simp [sameItems]
    | cons b bs => simp [sameItems, same_iff a b, sameItems_iff as bs]

theorem sameMembers_iff : ∀ as bs : List (String × Value), sameMembers as bs = true ↔ as = bs
  | [], bs => by cases bs <;> simp [sameMembers]
  | (j, a) :: as, bs => by
    cases bs with
    | nil => simp [sameMembers]
    | cons b bs =>
      obtain ⟨k, b⟩ := b
      simp [sameMembers, same_iff a b, sameMembers_iff as bs, and_assoc]

end

instance : DecidableEq Value := fun a b => decidable_of_iff _ (same_iff a b)

mutual

/-- The value with the members of every object in ascending key order, the last of equal keys
staying. -/
def normalize : Value → Value
  | array items => array (normalizeItems items)
  | object members => object (sortEntries (normalizeMembers members))
  | other => other

/-- The items of an array, each in normal form. -/
def normalizeItems : List Value → List Value
  | [] => []
  | item :: items => normalize item :: normalizeItems items

/-- The members of an object in their own order, each value in normal form. -/
def normalizeMembers : List (String × Value) → List (String × Value)
  | [] => []
  | (key, value) :: members => (key, normalize value) :: normalizeMembers members

end

mutual

/-- Keys ascend strictly in every object, and every integer fits a word of 64 bits. -/
def WellFormed : Value → Prop
  | number n => n.InRange
  | array items => WellFormedItems items
  | object members => KeySorted members ∧ WellFormedMembers members
  | _ => True

/-- Every item of an array is well-formed. -/
def WellFormedItems : List Value → Prop
  | [] => True
  | item :: items => item.WellFormed ∧ WellFormedItems items

/-- Every value of an object is well-formed. -/
def WellFormedMembers : List (String × Value) → Prop
  | [] => True
  | (_, value) :: members => value.WellFormed ∧ WellFormedMembers members

end

/-- The items of a well-formed array are well-formed. -/
theorem wellFormed_of_mem_items {items : List Value} (h : WellFormedItems items) :
    ∀ item ∈ items, item.WellFormed := by
  induction items with
  | nil => simp
  | cons first rest ih =>
    obtain ⟨hfirst, hrest⟩ := h
    exact List.forall_mem_cons.mpr ⟨hfirst, ih hrest⟩

/-- The values of a well-formed object are well-formed. -/
theorem wellFormed_of_mem_members {members : List (String × Value)}
    (h : WellFormedMembers members) : ∀ member ∈ members, member.2.WellFormed := by
  induction members with
  | nil => simp
  | cons first rest ih =>
    obtain ⟨hfirst, hrest⟩ := h
    exact List.forall_mem_cons.mpr ⟨hfirst, ih hrest⟩

/-- An integer as a value. -/
def int (n : Int) : Value := number (.integer n)

/-- A count as a value. -/
def nat (n : Nat) : Value := int n

/-- A computed number as a value; one that is not finite becomes null. -/
def ofBinary64 (x : Binary64) : Value :=
  match Number.ofBinary64? x with
  | some n => number n
  | none => null

/-- Whether a value is null. -/
def isNull : Value → Bool
  | null => true
  | _ => false

/-- Whether a value is a boolean, a number or a string. -/
def isScalar : Value → Bool
  | bool _ | number _ | string _ => true
  | _ => false

/-- Whether a value is an array. -/
def isArray : Value → Bool
  | array _ => true
  | _ => false

end Value

end Rollup
