import Mathlib.Data.List.Forall2
import Rollup.Proofs.Value.NumberOrder
import Rollup.Value.CanonicalKey
import Rollup.Proofs.Value.Path

/-!
# Values with numbers spelled in another way

A value respells another one if it is the same up to safe integers, which may be written as
floating-point numbers. Such values have the same paths and the same canonical forms, and they
compare alike.
-/

namespace Rollup

/-- Both spellings of a number have one spelling in a canonical key. -/
theorem Number.Respells.canonical_eq {m n : Number} (h : m.Respells n) :
    m.canonical = n.canonical := by
  cases h with
  | same => rfl
  | @float k x hsafe hvalue =>
    have hx := (safeInteger?_eq_some_iff x k).mpr ⟨toUnits_of_value hvalue, hsafe⟩
    rw [canonical, canonical, hx]

namespace Value

mutual

/-- Two values are the same but for the spelling of safe integers. -/
inductive Respells : Value → Value → Prop where
  | null : Respells null null
  | bool (flag : Bool) : Respells (bool flag) (bool flag)
  | number {m n : Number} (h : m.Respells n) : Respells (number m) (number n)
  | string (text : String) : Respells (string text) (string text)
  | array {as bs : List Value} (h : RespellsItems as bs) : Respells (array as) (array bs)
  | object {as bs : List (String × Value)} (h : RespellsMembers as bs) :
      Respells (object as) (object bs)

/-- Two lists of items are the same but for the spelling of safe integers. -/
inductive RespellsItems : List Value → List Value → Prop where
  | nil : RespellsItems [] []
  | cons {a b : Value} {as bs : List Value} (h : Respells a b) (hs : RespellsItems as bs) :
      RespellsItems (a :: as) (b :: bs)

/-- Two lists of members with the same keys are the same but for the spelling of safe integers. -/
inductive RespellsMembers : List (String × Value) → List (String × Value) → Prop where
  | nil : RespellsMembers [] []
  | cons {key : String} {a b : Value} {as bs : List (String × Value)} (h : Respells a b)
      (hs : RespellsMembers as bs) : RespellsMembers ((key, a) :: as) ((key, b) :: bs)

end

section Kind

variable {a b : Value} (h : Respells a b)
include h

theorem Respells.isNull_eq : a.isNull = b.isNull := by
  cases h <;> rfl

theorem Respells.isArray_eq : a.isArray = b.isArray := by
  cases h <;> rfl

theorem Respells.isScalar_eq : a.isScalar = b.isScalar := by
  cases h <;> rfl

end Kind

section Comparing

variable {a b : Value} (h : Respells a b)
include h

/-- Both spellings of a value compare alike with any value. -/
theorem Respells.compare?_left (other : Value) : a.compare? other = b.compare? other := by
  cases h with
  | number h =>
    cases other with
    | number n => exact h.compare?_left n
    | _ => rfl
  | _ => cases other <;> rfl

/-- Any value compares alike with both spellings of a value. -/
theorem Respells.compare?_right (other : Value) : other.compare? a = other.compare? b := by
  rw [← compare?_swap a, ← compare?_swap b, h.compare?_left]

/-- Both spellings of a scalar compare as equal. -/
theorem Respells.compare?_eq (hscalar : a.isScalar = true) : a.compare? b = some .eq := by
  rw [← h.compare?_right]
  cases a with
  | number n => exact n.compare?_self
  | string _ => exact congrArg some Std.ReflCmp.compare_self
  | bool _ => exact congrArg some Std.ReflCmp.compare_self
  | _ => cases hscalar

omit h in
/-- Both spellings of a scalar, if there is one, compare as equal. -/
theorem rel_compare?_eq {x y : Option Value} (h : Option.Rel Respells x y)
    (hscalar : ∀ a ∈ x, a.isScalar = true) :
    Option.Rel (fun a b => a.compare? b = some .eq) x y := by
  cases h with
  | none => exact .none
  | some h => exact .some (h.compare?_eq (hscalar _ rfl))

end Comparing

mutual

/-- Both spellings of a value have one canonical form. -/
theorem Respells.canonical_eq {a b : Value} : Respells a b → canonical a = canonical b
  | .null => rfl
  | .bool _ => rfl
  | .number h => by rw [canonical, canonical, h.canonical_eq]
  | .string _ => rfl
  | .array h => by rw [canonical, canonical, h.canonicalItems_eq]
  | .object h => by rw [canonical, canonical, h.canonicalMembers_eq]

theorem RespellsItems.canonicalItems_eq {as bs : List Value} :
    RespellsItems as bs → canonicalItems as = canonicalItems bs
  | .nil => rfl
  | .cons h hs => by
    rw [canonicalItems, canonicalItems, h.canonical_eq, hs.canonicalItems_eq]
    cases hs <;> rfl

theorem RespellsMembers.canonicalMembers_eq {as bs : List (String × Value)} :
    RespellsMembers as bs → canonicalMembers as = canonicalMembers bs
  | .nil => rfl
  | .cons h hs => by
    rw [canonicalMembers, canonicalMembers, h.canonical_eq, hs.canonicalMembers_eq]
    cases hs <;> rfl

end

section Paths

/-- A position holds an item in both spellings of a list or in neither. -/
theorem RespellsItems.getElem? {as bs : List Value} (h : RespellsItems as bs) (index : Nat) :
    Option.Rel Respells as[index]? bs[index]? := by
  induction index generalizing as bs with
  | zero =>
    cases h with
    | nil => exact .none
    | cons h _ => exact .some h
  | succ index ih =>
    cases h with
    | nil => exact .none
    | cons _ hs => exact ih hs

/-- A key has a value in both spellings of some members or in neither. -/
theorem RespellsMembers.lookup {as bs : List (String × Value)} (h : RespellsMembers as bs)
    (name : String) : Option.Rel Respells (as.lookup name) (bs.lookup name) := by
  induction as generalizing bs with
  | nil =>
    cases h
    exact .none
  | cons _ as ih =>
    cases h with
    | cons h hs =>
      rw [lookup_cons, lookup_cons]
      split
      · exact .some h
      · exact ih hs

/-- Steps that keep a relation, taken from related values, lead to related values. -/
theorem rel_bind {α β : Type} {r : α → α → Prop} {s : β → β → Prop} {x y : Option α}
    {f g : α → Option β} (h : Option.Rel r x y) (hstep : ∀ a b, r a b → Option.Rel s (f a) (g b)) :
    Option.Rel s (x.bind f) (y.bind g) := by
  cases h with
  | none => exact .none
  | some h => exact hstep _ _ h

variable {a b : Value} (h : Respells a b)
include h

theorem Respells.child? (segment : String) :
    Option.Rel Respells (a.child? segment) (b.child? segment) := by
  cases h with
  | object h => exact h.lookup segment
  | array h =>
    rw [Value.child?, Value.child?]
    cases segmentIndex? segment with
    | none => exact .none
    | some index => exact h.getElem? index
  | _ => exact .none

theorem Respells.descend? (segments : List String) :
    Option.Rel Respells (a.descend? segments) (b.descend? segments) := by
  induction segments generalizing a b with
  | nil => exact .some h
  | cons segment segments ih =>
    rw [descend?_cons, descend?_cons]
    exact rel_bind (h.child? segment) fun _ _ hpart => ih hpart

/-- A path leads to a part other than null in both spellings of a value or in neither. -/
theorem Respells.resolvePresent? (path : String) :
    Option.Rel Respells (a.resolvePresent? path) (b.resolvePresent? path) := by
  have hpart : Option.Rel Respells (a.resolve? path) (b.resolve? path) := h.descend? _
  rw [Value.resolvePresent?, Value.resolvePresent?]
  generalize a.resolve? path = x at hpart ⊢
  generalize b.resolve? path = y at hpart ⊢
  cases hpart with
  | none => exact .none
  | @some part other hpart =>
    rw [Option.filter_some, Option.filter_some, hpart.isNull_eq]
    split
    · exact .some hpart
    · exact .none

end Paths

end Value

end Rollup
