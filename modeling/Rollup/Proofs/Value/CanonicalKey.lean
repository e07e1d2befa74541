import Mathlib.Data.List.Forall2
import Rollup.Proofs.Binary64.Text
import Rollup.Proofs.Entries
import Rollup.Proofs.Json.Quoted
import Rollup.Value.CanonicalKey

/-!
# Canonical keys tell tuples apart

A canonical key can be read in one way only. Every value shows its kind by its first character,
quoted strings show their own end, and what follows a number shows the end of the number. So two
tuples share a canonical key exactly if they have the same structure, up to the spelling of numbers.
-/

namespace Rollup

/-- Two texts over a class of characters that end where the class ends are told by the whole
text. -/
theorem append_inj_of_class {α : Type} {p : α → Bool} {xs ys s t : List α}
    (hx : ∀ c ∈ xs, p c = true) (hy : ∀ c ∈ ys, p c = true)
    (hs : ∀ c ∈ s.head?, p c = false) (ht : ∀ c ∈ t.head?, p c = false)
    (h : xs ++ s = ys ++ t) : xs = ys ∧ s = t := by
  induction xs generalizing ys with
  | nil =>
    cases ys with
    | nil => exact ⟨rfl, h⟩
    | cons y ys =>
      have hout := hs y (by rw [show s = (y :: ys) ++ t from h]; rfl)
      have hin := hy y List.mem_cons_self
      rw [hin] at hout
      cases hout
  | cons x xs ih =>
    cases ys with
    | nil =>
      have hout := ht x (by rw [show t = (x :: xs) ++ s from h.symm]; rfl)
      have hin := hx x List.mem_cons_self
      rw [hin] at hout
      cases hout
    | cons y ys =>
      obtain ⟨rfl, hrest⟩ := List.cons.inj h
      obtain ⟨rfl, rfl⟩ := ih (fun c hc => hx c (List.mem_cons_of_mem _ hc))
        (fun c hc => hy c (List.mem_cons_of_mem _ hc)) hrest
      exact ⟨rfl, rfl⟩

/-- The spelling of a number in a canonical key has the characters of a number. -/
theorem Number.isNumeral_of_mem_canonical {n : Number} {c : Char} (h : c ∈ n.canonical) :
    Text.isNumeral c = true := by
  cases n with
  | integer n => exact Text.isNumeral_of_mem_intText h
  | float x =>
    rw [canonical] at h
    split at h
    · exact Text.isNumeral_of_mem_intText h
    · exact NumberStyle.isNumeral_of_mem_finiteText_plain h

namespace Value

/-- Two values have the same structure, numbers counting by their spelling in a canonical key. -/
inductive Alike : Value → Value → Prop where
  /-- Nulls are alike. -/
  | null : Alike null null
  /-- Equal booleans are alike. -/
  | bool (flag : Bool) : Alike (bool flag) (bool flag)
  /-- Numbers with one spelling are alike. -/
  | number {m n : Number} (h : m.canonical = n.canonical) : Alike (number m) (number n)
  /-- Equal strings are alike. -/
  | string (text : String) : Alike (string text) (string text)
  /-- Arrays of one length are alike item by item. -/
  | array {as bs : List Value} (h : List.Forall₂ Alike as bs) : Alike (array as) (array bs)
  /-- Objects with the same keys are alike key by key. -/
  | object {as bs : List (String × Value)}
      (h : ∀ key, Option.Rel Alike (as.lookup key) (bs.lookup key)) : Alike (object as) (object bs)

/-- What follows a value in a canonical key: nothing, or a character that no number has. -/
def Terminated (rest : List Char) : Prop :=
  ∀ c ∈ rest.head?, Text.isNumeral c = false

theorem terminated_cons {c : Char} {rest : List Char} (h : Text.isNumeral c = false) :
    Terminated (c :: rest) := by
  intro d hd
  cases hd
  exact h

/-- A spelled value does not start like the end of an array. -/
theorem canonical_ne_close (a : Value) (s t : List Char) : canonical a ++ s ≠ ']' :: t := by
  cases a <;> simp [canonical]

/-- A quoted key does not start like the end of an object. -/
theorem quote_ne_close (key s t : List Char) : Json.quote key ++ s ≠ '\x7d' :: t := by
  simp [Json.quote]

/-- What follows the first of several items, up to the end of the array. -/
private theorem terminated_items (as : List Value) (s : List Char) :
    Terminated ((if as.isEmpty then [] else ',' :: canonicalItems as) ++ ']' :: s) := by
  cases as with
  | nil => exact terminated_cons rfl
  | cons a as => exact terminated_cons rfl

/-- What follows the value of the first of several members, up to the end of the object. -/
private theorem terminated_members (as : List (String × Value)) (s : List Char) :
    Terminated ((if as.isEmpty then [] else ',' :: canonicalMembers as) ++ '\x7d' :: s) := by
  cases as with
  | nil => exact terminated_cons rfl
  | cons a as => exact terminated_cons rfl

mutual

/-- A spelled value and what follows it are told by the whole text. -/
theorem alike_of_canonical_append : ∀ (a b : Value) {s t : List Char}, Terminated s → Terminated t →
    canonical a ++ s = canonical b ++ t → Alike a b ∧ s = t
  | null, b, s, t, _, _, h => by
    cases b with
    | null => exact ⟨.null, by simpa [canonical] using h⟩
    | _ => simp [canonical] at h
  | bool p, b, s, t, _, _, h => by
    cases b with
    | bool q =>
      cases p <;> cases q <;> simp [canonical] at h
      · exact ⟨.bool false, h⟩
      · exact ⟨.bool true, h⟩
    | _ => simp [canonical] at h
  | number m, b, s, t, hs, ht, h => by
    cases b with
    | number n =>
      simp only [canonical, List.cons_append, List.cons.injEq, true_and] at h
      obtain ⟨hmn, hst⟩ := append_inj_of_class (fun c hc => Number.isNumeral_of_mem_canonical hc)
        (fun c hc => Number.isNumeral_of_mem_canonical hc) hs ht h
      exact ⟨.number hmn, hst⟩
    | _ => simp [canonical] at h
  | string x, b, s, t, _, _, h => by
    cases b with
    | string y =>
      simp only [canonical, List.cons_append, List.cons.injEq, true_and] at h
      obtain ⟨hxy, hst⟩ := Json.quote_append_inj h
      rw [String.toList_inj.mp hxy]
      exact ⟨.string y, hst⟩
    | _ => simp [canonical] at h
  | array as, b, s, t, _, _, h => by
    cases b with
    | array bs =>
      simp only [canonical, List.cons_append, List.append_assoc, List.cons.injEq,
        true_and] at h
      obtain ⟨hab, hst⟩ := forall₂_of_canonicalItems as bs h
      exact ⟨.array hab, hst⟩
    | _ => simp [canonical] at h
  | object as, b, s, t, _, _, h => by
    cases b with
    | object bs =>
      simp only [canonical, List.cons_append, List.append_assoc, List.cons.injEq,
        true_and] at h
      obtain ⟨hab, hst⟩ := forall₂_of_canonicalMembers as bs h
      exact ⟨.object (rel_lookup_of_forall₂ (r := fun _ => Alike) hab), hst⟩
    | _ => simp [canonical] at h

/-- Spelled items and what follows the array are told by the whole text. -/
theorem forall₂_of_canonicalItems : ∀ (as bs : List Value) {s t : List Char},
    canonicalItems as ++ ']' :: s = canonicalItems bs ++ ']' :: t → List.Forall₂ Alike as bs ∧ s = t
  | [], [], s, t, h => ⟨.nil, (List.cons.inj h).2⟩
  | [], b :: bs, s, t, h => by
    simp only [canonicalItems, List.nil_append, List.append_assoc] at h
    exact absurd h.symm (canonical_ne_close b _ _)
  | a :: as, [], s, t, h => by
    simp only [canonicalItems, List.nil_append, List.append_assoc] at h
    exact absurd h (canonical_ne_close a _ _)
  | a :: as, b :: bs, s, t, h => by
    simp only [canonicalItems, List.append_assoc] at h
    obtain ⟨hab, hrest⟩ := alike_of_canonical_append a b (terminated_items as s)
      (terminated_items bs t) h
    match as, bs with
    | [], [] => exact ⟨.cons hab .nil, (List.cons.inj hrest).2⟩
    | [], b' :: bs => simp at hrest
    | a' :: as, [] => simp at hrest
    | a' :: as, b' :: bs =>
      obtain ⟨habs, hst⟩ := forall₂_of_canonicalItems (a' :: as) (b' :: bs) (List.cons.inj hrest).2
      exact ⟨.cons hab habs, hst⟩

/-- Spelled members and what follows the object are told by the whole text. -/
theorem forall₂_of_canonicalMembers : ∀ (as bs : List (String × Value)) {s t : List Char},
    canonicalMembers as ++ '\x7d' :: s = canonicalMembers bs ++ '\x7d' :: t →
      List.Forall₂ (fun a b => a.1 = b.1 ∧ Alike a.2 b.2) as bs ∧ s = t
  | [], [], s, t, h => ⟨.nil, (List.cons.inj h).2⟩
  | [], (k, b) :: bs, s, t, h => by
    simp only [canonicalMembers, List.nil_append, List.append_assoc] at h
    exact absurd h.symm (quote_ne_close _ _ _)
  | (j, a) :: as, [], s, t, h => by
    simp only [canonicalMembers, List.nil_append, List.append_assoc] at h
    exact absurd h (quote_ne_close _ _ _)
  | (j, a) :: as, (k, b) :: bs, s, t, h => by
    simp only [canonicalMembers, List.append_assoc, List.cons_append] at h
    obtain ⟨hkey, hvalue⟩ := Json.quote_append_inj h
    obtain ⟨hab, hrest⟩ := alike_of_canonical_append a b (terminated_members as s)
      (terminated_members bs t) (List.cons.inj hvalue).2
    have hfirst : j = k ∧ Alike a b := ⟨String.toList_inj.mp hkey, hab⟩
    match as, bs with
    | [], [] => exact ⟨.cons hfirst .nil, (List.cons.inj hrest).2⟩
    | [], b' :: bs => simp at hrest
    | a' :: as, [] => simp at hrest
    | a' :: as, b' :: bs =>
      obtain ⟨habs, hst⟩ :=
        forall₂_of_canonicalMembers (a' :: as) (b' :: bs) (List.cons.inj hrest).2
      exact ⟨.cons hfirst habs, hst⟩

end

/-- Of two lists of members that know the same keys both are empty or none is. -/
private theorem isEmpty_eq_of_lookup {r : Value → Value → Prop} {as bs : List (String × Value)}
    (h : ∀ key, Option.Rel r (as.lookup key) (bs.lookup key)) : as.isEmpty = bs.isEmpty := by
  cases as with
  | nil =>
    cases bs with
    | nil => rfl
    | cons b bs =>
      have hb := isSome_eq_of_rel (h b.1)
      simp at hb
  | cons a as =>
    cases bs with
    | nil =>
      have ha := isSome_eq_of_rel (h a.1)
      simp at ha
    | cons b bs => rfl

mutual

/-- Values that are alike have one spelling. -/
theorem canonical_eq_of_alike : ∀ (a b : Value), a.WellFormed → b.WellFormed → Alike a b →
    canonical a = canonical b
  | null, _, _, _, .null => rfl
  | bool _, _, _, _, .bool _ => rfl
  | number _, _, _, _, .number h => congrArg (fun text => 'd' :: ':' :: text) h
  | string _, _, _, _, .string _ => rfl
  | array as, _, ha, hb, .array h => by
    rw [canonical, canonical, canonicalItems_eq_of_forall₂ as _ ha hb h]
  | object as, _, ha, hb, .object h => by
    obtain ⟨hasort, hawf⟩ := ha
    obtain ⟨hbsort, hbwf⟩ := hb
    rw [canonical, canonical, canonicalMembers_eq_of_lookup as _ hasort hbsort hawf hbwf h]

/-- Items that are alike have one spelling. -/
theorem canonicalItems_eq_of_forall₂ : ∀ (as bs : List Value), WellFormedItems as →
    WellFormedItems bs → List.Forall₂ Alike as bs → canonicalItems as = canonicalItems bs
  | [], _, _, _, .nil => rfl
  | a :: as, b :: bs, ha, hb, .cons hab habs => by
    have hempty : as.isEmpty = bs.isEmpty := by cases habs <;> rfl
    rw [canonicalItems, canonicalItems, canonical_eq_of_alike a b ha.1 hb.1 hab,
      canonicalItems_eq_of_forall₂ as bs ha.2 hb.2 habs, hempty]

/-- Members in key order that are alike key by key have one spelling. -/
theorem canonicalMembers_eq_of_lookup : ∀ (as bs : List (String × Value)), KeySorted as →
    KeySorted bs → WellFormedMembers as → WellFormedMembers bs →
    (∀ key, Option.Rel Alike (as.lookup key) (bs.lookup key)) →
      canonicalMembers as = canonicalMembers bs
  | [], [], _, _, _, _, _ => rfl
  | [], (k, b) :: bs, _, _, _, _, h => by
    have hempty := isEmpty_eq_of_lookup h
    cases hempty
  | (j, a) :: as, [], _, _, _, _, h => by
    have hempty := isEmpty_eq_of_lookup h
    cases hempty
  | (j, a) :: as, (k, b) :: bs, hasort, hbsort, ha, hb, h => by
    obtain rfl : j = k := hasort.first_key_eq hbsort fun name => isSome_eq_of_rel (h name)
    obtain ⟨hj, hasort⟩ := keySorted_cons.mp hasort
    obtain ⟨hk, hbsort⟩ := keySorted_cons.mp hbsort
    have hab : Alike a b := by
      have hfirst := h j
      rw [lookup_cons, lookup_cons, if_pos rfl, if_pos rfl] at hfirst
      cases hfirst with
      | some hab => exact hab
    have hrest : ∀ key, Option.Rel Alike (as.lookup key) (bs.lookup key) := by
      intro key
      by_cases hkey : key = j
      · rw [hkey, lookup_eq_none_of_lt hj, lookup_eq_none_of_lt hk]
        exact Option.Rel.none
      · have hother := h key
        rw [lookup_cons, lookup_cons, if_neg hkey, if_neg hkey] at hother
        exact hother
    rw [canonicalMembers, canonicalMembers, canonical_eq_of_alike a b ha.1 hb.1 hab,
      canonicalMembers_eq_of_lookup as bs hasort hbsort ha.2 hb.2 hrest, isEmpty_eq_of_lookup hrest]

end

/-- Two tuples share a canonical key exactly if they have the same structure. -/
theorem canonicalKey_eq_iff_forall₂_alike {as bs : List Value} (ha : WellFormedItems as)
    (hb : WellFormedItems bs) : canonicalKey as = canonicalKey bs ↔ List.Forall₂ Alike as bs := by
  rw [canonicalKey, canonicalKey, String.ofList_inj]
  constructor
  · intro h
    exact (forall₂_of_canonicalItems as bs (List.cons.inj h).2).1
  · intro h
    rw [canonicalItems_eq_of_forall₂ as bs ha hb h]

/-- Two strings, with an object behind them. -/
def twoStrings : List Value :=
  [string "a", string "b", object [("k", array [null, bool true])]]

/-- One string that holds what stands between two in a canonical key, with the same object behind
it. -/
def joinedStrings : List Value :=
  [string "a\",s:\"b", object [("k", array [null, bool true])]]

/-- The two tuples do not have the same structure, and so do not share a canonical key. -/
theorem canonicalKey_twoStrings_ne_joinedStrings :
    WellFormedItems twoStrings ∧ WellFormedItems joinedStrings ∧
    (canonicalKey twoStrings = canonicalKey joinedStrings ↔
      List.Forall₂ Alike twoStrings joinedStrings) ∧
    canonicalKey twoStrings ≠ canonicalKey joinedStrings := by
  have htwo : WellFormedItems twoStrings := by
    simp [twoStrings, WellFormedItems, WellFormed, WellFormedMembers, KeySorted]
  have hjoined : WellFormedItems joinedStrings := by
    simp [joinedStrings, WellFormedItems, WellFormed, WellFormedMembers, KeySorted]
  have h := canonicalKey_eq_iff_forall₂_alike htwo hjoined
  refine ⟨htwo, hjoined, h, ?_⟩
  intro heq
  have hlength := (h.mp heq).length_eq
  simp [twoStrings, joinedStrings] at hlength

end Value

end Rollup
