import Mathlib.Data.List.Forall2

/-!
# Traversals that may fail

A traversal of a list gives the results of its steps if all of them succeed, and otherwise the error
of the first step that fails.
-/

namespace Rollup

variable {ε α β γ : Type}

/-- There is a result exactly if there is no error. -/
theorem exists_eq_ok_iff {outcome : Except ε α} :
    (∃ result, outcome = .ok result) ↔ ∀ error, outcome ≠ .error error := by
  cases outcome <;> simp

/-- A step and what follows it succeed exactly if the step does and then what follows does. -/
theorem bind_eq_ok_iff {outcome : Except ε α} {next : α → Except ε β} {result : β} :
    outcome >>= next = .ok result ↔ ∃ first, outcome = .ok first ∧ next first = .ok result := by
  cases outcome <;> simp [bind, Except.bind]

/-- A step and what follows it fail exactly if the step does or what follows does. -/
theorem bind_eq_error_iff {outcome : Except ε α} {next : α → Except ε β} {error : ε} :
    outcome >>= next = .error error ↔
      outcome = .error error ∨ ∃ first, outcome = .ok first ∧ next first = .error error := by
  cases outcome <;> simp [bind, Except.bind]

/-- A changed outcome is a success exactly if the outcome is. -/
theorem map_eq_ok_iff {outcome : Except ε α} {f : α → β} {result : β} :
    outcome.map f = .ok result ↔ ∃ first, outcome = .ok first ∧ f first = result := by
  cases outcome <;> simp [Except.map]

/-- A traversal fails on its first item or, if that one succeeds, on the others. -/
theorem mapM_cons_eq_error_iff {f : α → Except ε β} {item : α} {items : List α} {error : ε} :
    (item :: items).mapM f = .error error ↔
      f item = .error error ∨ (∃ result, f item = .ok result) ∧ items.mapM f = .error error := by
  rw [List.mapM_cons]
  cases f item with
  | error cause => simp [bind, Except.bind]
  | ok result => cases items.mapM f <;> simp [bind, Except.bind, pure, Except.pure]

/-- A traversal fails with the error of the first item that fails. -/
theorem mapM_eq_error_iff {f : α → Except ε β} {items : List α} {error : ε} :
    items.mapM f = .error error ↔
      ∃ (i : Nat) (item : α), items[i]? = some item ∧ f item = .error error ∧
        ∀ j < i, ∀ other, items[j]? = some other → ∃ result, f other = .ok result := by
  induction items with
  | nil => simp [pure, Except.pure]
  | cons first rest ih =>
    rw [mapM_cons_eq_error_iff, ih]
    constructor
    · rintro (hfirst | ⟨hfirst, i, item, hitem, herror, hbefore⟩)
      · refine ⟨0, first, rfl, hfirst, ?_⟩
        intro j hj
        omega
      · refine ⟨i + 1, item, hitem, herror, ?_⟩
        intro j hj other hother
        cases j with
        | zero =>
          obtain rfl : first = other := by simpa using hother
          exact hfirst
        | succ j => exact hbefore j (by omega) other hother
    · rintro ⟨i, item, hitem, herror, hbefore⟩
      cases i with
      | zero =>
        obtain rfl : first = item := by simpa using hitem
        exact Or.inl herror
      | succ i =>
        refine Or.inr ⟨hbefore 0 (by omega) first rfl, i, item, hitem, herror, ?_⟩
        intro j hj other hother
        exact hbefore (j + 1) (by omega) other hother

/-- A traversal with optional results gives the results of its steps. -/
theorem mapM_eq_some_iff {f : α → Option β} {items : List α} {results : List β} :
    items.mapM f = some results ↔
      List.Forall₂ (fun item result => f item = some result) items results := by
  induction items generalizing results with
  | nil => simp [eq_comm]
  | cons item items ih =>
    rw [List.mapM_cons, Option.bind_eq_bind, Option.bind_eq_some_iff, List.forall₂_cons_left_iff]
    simp only [Option.bind_eq_bind, Option.bind_eq_some_iff, ih]
    constructor
    · rintro ⟨first, hfirst, rest, hrest, h⟩
      cases h
      exact ⟨first, rest, hfirst, hrest, rfl⟩
    · rintro ⟨first, rest, hfirst, hrest, rfl⟩
      exact ⟨first, hfirst, rest, hrest, rfl⟩

/-- A traversal that succeeds gives the results of its steps. -/
theorem mapM_eq_ok_iff {f : α → Except ε β} {items : List α} {results : List β} :
    items.mapM f = .ok results ↔
      List.Forall₂ (fun item result => f item = .ok result) items results := by
  induction items generalizing results with
  | nil => simp [pure, Except.pure, eq_comm]
  | cons item items ih =>
    rw [List.mapM_cons, bind_eq_ok_iff, List.forall₂_cons_left_iff]
    simp only [bind_eq_ok_iff, ih]
    constructor
    · rintro ⟨first, hfirst, rest, hrest, h⟩
      cases h
      exact ⟨first, rest, hfirst, hrest, rfl⟩
    · rintro ⟨first, rest, hfirst, hrest, rfl⟩
      exact ⟨first, hfirst, rest, hrest, rfl⟩

/-- There are results that are related to items one by one exactly if there is one for every
item. -/
theorem exists_forall₂_iff {r : α → β → Prop} {items : List α} :
    (∃ results, List.Forall₂ r items results) ↔ ∀ item ∈ items, ∃ result, r item result := by
  induction items with
  | nil => simp
  | cons item items ih =>
    simp only [List.forall_mem_cons, ← ih, List.forall₂_cons_left_iff]
    constructor
    · rintro ⟨_, result, results, hresult, hresults, rfl⟩
      exact ⟨⟨result, hresult⟩, results, hresults⟩
    · rintro ⟨⟨result, hresult⟩, results, hresults⟩
      exact ⟨_, result, results, hresult, hresults, rfl⟩

/-- A traversal succeeds exactly if every item does. -/
theorem exists_mapM_eq_ok_iff {f : α → Except ε β} {items : List α} :
    (∃ results, items.mapM f = .ok results) ↔ ∀ item ∈ items, ∃ result, f item = .ok result := by
  simp only [mapM_eq_ok_iff, exists_forall₂_iff]

/-- A traversal with optional results gives all of them exactly if every step gives one. -/
theorem exists_mapM_eq_some_iff {f : α → Option β} {items : List α} :
    (∃ results, items.mapM f = some results) ↔ ∀ item ∈ items, ∃ result, f item = some result := by
  simp only [mapM_eq_some_iff, exists_forall₂_iff]

/-- An item of one of two related lists is related to one of the other. -/
theorem exists_mem_of_forall₂ {r : α → β → Prop} {items : List α} {results : List β}
    (h : List.Forall₂ r items results) : ∀ item ∈ items, ∃ result ∈ results, r item result := by
  induction h with
  | nil => exact List.forall_mem_nil _
  | @cons item result items results hfirst _ ih =>
    refine List.forall_mem_cons.mpr ⟨⟨result, List.mem_cons_self, hfirst⟩, ?_⟩
    intro other hother
    obtain ⟨found, hfound, hr⟩ := ih other hother
    exact ⟨found, List.mem_cons_of_mem _ hfound, hr⟩

/-- Every step of a traversal with results gives one of them. -/
theorem exists_of_mapM_eq_some {f : α → Option β} {items : List α} {results : List β}
    (h : items.mapM f = some results) :
    ∀ item ∈ items, ∃ result ∈ results, f item = some result :=
  exists_mem_of_forall₂ (mapM_eq_some_iff.mp h)

/-- A traversal whose steps undo a function gives what that function was applied to. -/
theorem mapM_eq_some_iff_eq_map {f : α → Option β} {g : β → α}
    (h : ∀ item result, f item = some result ↔ item = g result) {items : List α}
    {results : List β} : items.mapM f = some results ↔ items = results.map g := by
  rw [mapM_eq_some_iff, ← List.forall₂_eq_eq_eq, List.forall₂_map_right_iff]
  simp only [h]

/-- A traversal of changed items whose steps succeed gives what they give. -/
theorem mapM_map_eq_some {f : β → Option γ} {g : α → β} {k : α → γ} {items : List α}
    (h : ∀ item ∈ items, f (g item) = some (k item)) :
    (items.map g).mapM f = some (items.map k) := by
  rw [mapM_eq_some_iff, List.forall₂_map_left_iff, List.forall₂_map_right_iff, List.forall₂_same]
  exact h

/-- Steps that agree on related items make traversals with the same results. -/
theorem mapM_eq_of_forall₂ {r : α → β → Prop} {f : α → Option γ} {g : β → Option γ}
    {items : List α} {others : List β} (h : List.Forall₂ r items others)
    (hstep : ∀ item other, r item other → f item = g other) : items.mapM f = others.mapM g := by
  induction h with
  | nil => rfl
  | cons hfirst _ ih => rw [List.mapM_cons, List.mapM_cons, hstep _ _ hfirst, ih]

/-- Steps that agree on the items of a list make traversals with the same results. -/
theorem mapM_congr {f g : α → Option β} {items : List α} (h : ∀ item ∈ items, f item = g item) :
    items.mapM f = items.mapM g :=
  mapM_eq_of_forall₂ (List.forall₂_same.mpr h) fun _ _ heq => heq

/-- Steps that agree on what was found before them give the same. -/
theorem bind_eq_of_rel {r : α → β → Prop} {a : Option α} {b : Option β} {f : α → Option γ}
    {g : β → Option γ} (h : Option.Rel r a b) (hstep : ∀ x y, r x y → f x = g y) :
    a.bind f = b.bind g := by
  cases h with
  | none => rfl
  | some h => exact hstep _ _ h

/-- What holds of the second of any two corresponding items holds of all second items. -/
theorem forall_mem_of_forall₂ {p : β → Prop} {items : List α} {results : List β}
    (h : List.Forall₂ (fun _ result => p result) items results) : ∀ result ∈ results, p result := by
  induction h with
  | nil => exact List.forall_mem_nil _
  | cons hfirst _ ih => exact List.forall_mem_cons.mpr ⟨hfirst, ih⟩

/-- What every step of a run keeps holds after the run if it held before. -/
theorem foldlM_invariant {p : β → Prop} {step : β → α → Except ε β}
    (hstep : ∀ {state item result}, p state → step state item = .ok result → p result)
    {items : List α} {state result : β} (hstate : p state)
    (h : items.foldlM step state = .ok result) : p result := by
  induction items generalizing state with
  | nil =>
    cases h
    exact hstate
  | cons item items ih =>
    rw [List.foldlM_cons] at h
    obtain ⟨next, hnext, hrest⟩ := bind_eq_ok_iff.mp h
    exact ih (hstep hstate hnext) hrest

/-- A run fails with the error of one of its steps. -/
theorem exists_of_foldlM_eq_error {step : β → α → Except ε β} {items : List α} {state : β}
    {error : ε} (h : items.foldlM step state = .error error) :
    ∃ before, ∃ item ∈ items, step before item = .error error := by
  induction items generalizing state with
  | nil => cases h
  | cons item items ih =>
    rw [List.foldlM_cons] at h
    cases hitem : step state item with
    | error cause =>
      rw [hitem] at h
      cases h
      exact ⟨state, item, List.mem_cons_self, hitem⟩
    | ok next =>
      rw [hitem] at h
      obtain ⟨before, other, hother, herror⟩ := ih h
      exact ⟨before, other, List.mem_cons_of_mem _ hother, herror⟩

section First

/-- An item of a list is the first one without a property. -/
@[mk_iff]
structure IsFirstWithout {α : Type} (p : α → Prop) (items : List α) (index : Nat) (item : α) :
    Prop where
  /-- The item stands at the position. -/
  getElem? : items[index]? = some item
  /-- It has not the property. -/
  without : ¬p item
  /-- The items before it have the property. -/
  before : ∀ j < index, ∀ other, items[j]? = some other → p other

variable {p : α → Prop} {first item : α} {rest : List α} {index : Nat}

/-- Behind an item with the property the first one without it is to be sought among the rest. -/
theorem isFirstWithout_cons_of_pos (h : p first) :
    IsFirstWithout p (first :: rest) index item ↔
      ∃ i, index = i + 1 ∧ IsFirstWithout p rest i item := by
  constructor
  · rintro ⟨hitem, hwithout, hbefore⟩
    cases index with
    | zero =>
      obtain rfl : first = item := by simpa using hitem
      exact absurd h hwithout
    | succ i =>
      exact ⟨i, rfl, hitem, hwithout, fun j hj other hother =>
        hbefore (j + 1) (Nat.succ_lt_succ hj) other hother⟩
  · rintro ⟨i, rfl, hitem, hwithout, hbefore⟩
    refine ⟨hitem, hwithout, ?_⟩
    intro j hj other hother
    cases j with
    | zero =>
      obtain rfl : first = other := by simpa using hother
      exact h
    | succ j => exact hbefore j (Nat.lt_of_succ_lt_succ hj) other hother

/-- A first item without the property is the one to be found. -/
theorem isFirstWithout_cons_of_neg (h : ¬p first) :
    IsFirstWithout p (first :: rest) index item ↔ index = 0 ∧ first = item := by
  constructor
  · rintro ⟨hitem, -, hbefore⟩
    cases index with
    | zero => exact ⟨rfl, by simpa using hitem⟩
    | succ i => exact absurd (hbefore 0 (Nat.succ_pos i) first rfl) h
  · rintro ⟨rfl, rfl⟩
    exact ⟨rfl, h, fun j hj => absurd hj (Nat.not_lt_zero j)⟩

/-- Where the items of two lists agree on having a property, the first one without it stands at the
same position. -/
theorem IsFirstWithout.of_forall₂ {β : Type} {q : β → Prop} {r : α → β → Prop} {items : List α}
    {others : List β} (h : IsFirstWithout p items index item)
    (hrelated : List.Forall₂ r items others)
    (hagree : ∀ item other, r item other → (p item ↔ q other)) :
    ∃ other, r item other ∧ IsFirstWithout q others index other := by
  induction hrelated generalizing index with
  | nil => cases h.getElem?
  | @cons first other rest others hfirst _ ih =>
    by_cases hp : p first
    · obtain ⟨i, rfl, hi⟩ := (isFirstWithout_cons_of_pos hp).mp h
      obtain ⟨found, hfound, hwithout⟩ := ih hi
      exact ⟨found, hfound, (isFirstWithout_cons_of_pos ((hagree _ _ hfirst).mp hp)).mpr
        ⟨i, rfl, hwithout⟩⟩
    · obtain ⟨rfl, rfl⟩ := (isFirstWithout_cons_of_neg hp).mp h
      exact ⟨other, hfirst, (isFirstWithout_cons_of_neg (mt (hagree _ _ hfirst).mpr hp)).mpr
        ⟨rfl, rfl⟩⟩

/-- What holds of the first item without the property, if the first of all has the property. -/
theorem exists_isFirstWithout_cons_of_pos (h : p first) {q : Nat → α → Prop} :
    (∃ index item, IsFirstWithout p (first :: rest) index item ∧ q index item) ↔
      ∃ index item, IsFirstWithout p rest index item ∧ q (index + 1) item := by
  simp only [isFirstWithout_cons_of_pos h]
  constructor
  · rintro ⟨_, item, ⟨i, rfl, hitem⟩, hq⟩
    exact ⟨i, item, hitem, hq⟩
  · rintro ⟨i, item, hitem, hq⟩
    exact ⟨i + 1, item, ⟨i, rfl, hitem⟩, hq⟩

/-- What holds of the first item without the property, if the first of all has it not. -/
theorem exists_isFirstWithout_cons_of_neg (h : ¬p first) {q : Nat → α → Prop} :
    (∃ index item, IsFirstWithout p (first :: rest) index item ∧ q index item) ↔ q 0 first := by
  simp only [isFirstWithout_cons_of_neg h]
  constructor
  · rintro ⟨_, _, ⟨rfl, rfl⟩, hq⟩
    exact hq
  · intro hq
    exact ⟨0, first, ⟨rfl, rfl⟩, hq⟩

end First

section Numbered

variable {f : α × Nat → Except ε β} {items : List α}

/-- A traversal of certain items with their positions fails on the first of them that fails, and its
position is that among all items. -/
theorem mapM_filter_zipIdx_eq_error_iff (keep : α → Bool) {p : α → Prop}
    (hstep : ∀ item index, keep item = true → ((∃ result, f (item, index) = .ok result) ↔ p item))
    {start : Nat} {error : ε} :
    ((items.zipIdx start).filter fun entry => keep entry.1).mapM f = .error error ↔
      ∃ index item, IsFirstWithout (fun item => keep item = true → p item) items index item ∧
        f (item, start + index) = .error error := by
  induction items generalizing start with
  | nil => simp [isFirstWithout_iff, pure, Except.pure]
  | cons first rest ih =>
    have hshift : ∀ index, start + 1 + index = start + (index + 1) := fun index => by omega
    rw [List.zipIdx_cons, List.filter_cons]
    dsimp only
    by_cases hkeep : keep first = true
    · rw [if_pos hkeep, mapM_cons_eq_error_iff, ih, hstep first start hkeep]
      by_cases hfirst : p first
      · obtain ⟨result, hresult⟩ := (hstep first start hkeep).mpr hfirst
        rw [exists_isFirstWithout_cons_of_pos fun _ => hfirst]
        simp [hresult, hfirst, hshift]
      · rw [exists_isFirstWithout_cons_of_neg fun h => hfirst (h hkeep)]
        simp [hfirst]
    · rw [if_neg hkeep, ih, exists_isFirstWithout_cons_of_pos fun h => absurd h hkeep]
      simp only [hshift]

/-- A traversal of items with their positions fails on the first one that fails. -/
theorem mapM_zipIdx_eq_error_iff {p : α → Prop}
    (hstep : ∀ item index, (∃ result, f (item, index) = .ok result) ↔ p item) {error : ε} :
    items.zipIdx.mapM f = .error error ↔
      ∃ index item, IsFirstWithout p items index item ∧ f (item, index) = .error error := by
  have h : ((items.zipIdx 0).filter fun _ => true).mapM f = .error error ↔ _ :=
    mapM_filter_zipIdx_eq_error_iff (fun _ => true) fun item index _ => hstep item index
  simpa using h

end Numbered

end Rollup
