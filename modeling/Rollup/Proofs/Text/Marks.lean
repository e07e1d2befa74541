import Mathlib.Data.List.Chain
import Mathlib.Data.List.DropRight
import Mathlib.Data.List.Infix
import Mathlib.Data.List.TakeWhile
import Rollup.Text.Blank
import Rollup.Text.Split

/-!
# Blanks and marks

Blanks around a text are cut off again, and a text is cut at a mark where that mark comes first. Two
points are found behind a text in which no two points touch and which does not end in one.
-/

namespace Rollup.Text

section Blanks

/-- A text is another one with blanks around it. -/
def Padded (core text : List Char) : Prop :=
  ∃ before after : List Char, (∀ c ∈ before, isBlank c = true) ∧
    (∀ c ∈ after, isBlank c = true) ∧ text = before ++ core ++ after

/-- Every text has no blanks around it. -/
theorem padded_self (text : List Char) : Padded text text :=
  ⟨[], [], List.forall_mem_nil _, List.forall_mem_nil _, by simp⟩

/-- Blanks are cut off in front and then behind. -/
theorem trim_eq_rdropWhile (text : List Char) :
    trim text = (text.dropWhile isBlank).rdropWhile isBlank :=
  rfl

/-- What stands behind a character that is not blank does not matter for the blanks in front. -/
theorem dropWhile_append_cons {c : Char} (hc : isBlank c = false) (before after : List Char) :
    (before ++ c :: after).dropWhile isBlank = before.dropWhile isBlank ++ c :: after := by
  have hnot : ¬isBlank c = true := by simp [hc]
  rw [List.dropWhile_append]
  split
  · next hblank => rw [List.dropWhile_cons_of_neg hnot, List.isEmpty_iff.mp hblank, List.nil_append]
  · rfl

/-- What stands in front of a character that is not blank does not matter for the blanks behind. -/
theorem rdropWhile_append_cons {c : Char} (hc : isBlank c = false) (before after : List Char) :
    (before ++ c :: after).rdropWhile isBlank = before ++ c :: after.rdropWhile isBlank := by
  rw [List.rdropWhile, List.reverse_append, List.reverse_cons, List.append_assoc,
    List.singleton_append, dropWhile_append_cons hc, List.reverse_append, List.reverse_cons,
    List.reverse_reverse, List.append_assoc, List.singleton_append]
  rfl

/-- Blanks at the ends of a text do not change what is left without them. -/
theorem trim_append_blanks {before after : List Char} (hbefore : ∀ c ∈ before, isBlank c = true)
    (hafter : ∀ c ∈ after, isBlank c = true) (text : List Char) :
    trim (before ++ text ++ after) = trim text := by
  have hback : ∀ c ∈ after.reverse, isBlank c = true :=
    fun c hc => hafter c (List.mem_reverse.mp hc)
  rw [trim, trim, List.append_assoc, List.dropWhile_append_of_pos hbefore, List.dropWhile_append]
  split
  · next hblank => rw [List.dropWhile_eq_nil_iff.mpr hafter, List.isEmpty_iff.mp hblank]
  · rw [List.reverse_append, List.dropWhile_append_of_pos hback]

/-- Blanks around a text are cut off. -/
theorem Padded.trim_eq {core text : List Char} (h : Padded core text) : trim text = trim core := by
  obtain ⟨before, after, hbefore, hafter, rfl⟩ := h
  exact trim_append_blanks hbefore hafter core

/-- What is cut off a text are blanks around the rest. -/
theorem padded_trim (text : List Char) : Padded (trim text) text := by
  have hback :
      text.dropWhile isBlank = trim text ++ (text.dropWhile isBlank).rtakeWhile isBlank := by
    rw [trim, List.rtakeWhile, ← List.reverse_append, List.takeWhile_append_dropWhile,
      List.reverse_reverse]
  refine ⟨text.takeWhile isBlank, (text.dropWhile isBlank).rtakeWhile isBlank,
    fun c => List.mem_takeWhile_imp, fun c => List.mem_rtakeWhile_imp, ?_⟩
  rw [List.append_assoc, ← hback, List.takeWhile_append_dropWhile]

/-- A text without blanks around it is what is left of the texts that have it between blanks. -/
theorem padded_iff {core text : List Char} (hcore : trim core = core) :
    Padded core text ↔ trim text = core := by
  constructor
  · intro h
    rw [h.trim_eq, hcore]
  · rintro rfl
    exact padded_trim text

/-- Taking blanks off the front keeps the rest between blanks. -/
theorem Padded.dropWhile {core text : List Char} (hcore : trim core = core) (h : Padded core text) :
    Padded core (text.dropWhile isBlank) := by
  have hblank : ∀ c ∈ text.takeWhile isBlank, isBlank c = true := fun c => List.mem_takeWhile_imp
  have hfront := trim_append_blanks hblank (List.forall_mem_nil _) (text.dropWhile isBlank)
  rw [List.append_nil, List.takeWhile_append_dropWhile] at hfront
  rw [padded_iff hcore] at h ⊢
  rw [← hfront, h]

/-- Taking blanks off the back keeps the rest between blanks. -/
theorem Padded.rdropWhile {core text : List Char} (hcore : trim core = core)
    (h : Padded core text) : Padded core (text.rdropWhile isBlank) := by
  have hblank : ∀ c ∈ text.rtakeWhile isBlank, isBlank c = true :=
    fun c => List.mem_rtakeWhile_imp
  have hback := trim_append_blanks (List.forall_mem_nil _) hblank (text.rdropWhile isBlank)
  rw [List.nil_append, List.rdropWhile_append_rtakeWhile] at hback
  rw [padded_iff hcore] at h ⊢
  rw [← hback, h]

/-- What is not blank stands in a text only if it stands between the blanks. -/
theorem Padded.notMem {core text : List Char} (h : Padded core text) {c : Char}
    (hc : isBlank c = false) (hcore : c ∉ core) : c ∉ text := by
  obtain ⟨before, after, hbefore, hafter, rfl⟩ := h
  simp only [List.mem_append, not_or]
  refine ⟨⟨fun hmem => ?_, hcore⟩, fun hmem => ?_⟩
  · rw [hbefore c hmem] at hc
    cases hc
  · rw [hafter c hmem] at hc
    cases hc

/-- A string is cut down to what it has between blanks. -/
theorem trimString_ofList {core text : List Char} (hcore : trim core = core)
    (h : Padded core text) : trimString (String.ofList text) = String.ofList core := by
  rw [trimString, String.toList_ofList, (padded_iff hcore).mp h]

/-- Nothing is cut off a text that has no blanks at its two ends. -/
theorem trim_eq_self {text : List Char} (hfirst : ∀ c ∈ text.head?, isBlank c = false)
    (hlast : ∀ c ∈ text.getLast?, isBlank c = false) : trim text = text := by
  have hfront : text.dropWhile isBlank = text := by
    cases text with
    | nil => rfl
    | cons c rest => exact List.dropWhile_cons_of_neg (by simp [hfirst c rfl])
  have hback : text.reverse.dropWhile isBlank = text.reverse := by
    rw [← List.head?_reverse] at hlast
    cases hreverse : text.reverse with
    | nil => rfl
    | cons c rest =>
      rw [hreverse] at hlast
      exact List.dropWhile_cons_of_neg (by simp [hlast c rfl])
  rw [trim, hfront, hback, List.reverse_reverse]

/-- Nothing is cut off a text without blanks. -/
theorem trim_eq_self_of_forall {text : List Char} (h : ∀ c ∈ text, isBlank c = false) :
    trim text = text :=
  trim_eq_self (fun c hc => h c (List.mem_of_mem_head? hc))
    fun c hc => h c (List.mem_of_mem_getLast? hc)

end Blanks

section Marks

/-- A text is cut at a character that does not stand in front. -/
theorem cut?_append_cons {mark : Char} {before : List Char} (h : mark ∉ before)
    (after : List Char) : cut? [mark] (before ++ mark :: after) = some (before, after) := by
  induction before with
  | nil => simp [cut?]
  | cons c before ih =>
    rw [List.mem_cons, not_or] at h
    simp [cut?, ih h.2, h.1]

/-- No two points touch. -/
def PointsApart (text : List Char) : Prop :=
  text.IsChain fun c d => ¬(c = '.' ∧ d = '.')

/-- Where no two points stand in a text, no two points touch. -/
theorem pointsApart_of_not_adjacent {text : List Char} (h : ¬['.', '.'] <:+: text) :
    PointsApart text := by
  rw [PointsApart, List.isChain_iff_forall_rel_of_append_cons_cons]
  rintro _ _ before after htext ⟨rfl, rfl⟩
  exact h ⟨before, after, by rw [htext, List.append_assoc]; rfl⟩

/-- No two points touch in a text without points. -/
theorem pointsApart_of_notMem {text : List Char} (h : '.' ∉ text) : PointsApart text := by
  refine pointsApart_of_not_adjacent fun htouch => h (htouch.subset ?_)
  exact List.mem_cons_self

theorem pointsApart_singleton (c : Char) : PointsApart [c] :=
  List.isChain_singleton c

/-- Texts in which no two points touch are joined to such a text if one of their ends that meet is
not a point. -/
theorem PointsApart.append {before after : List Char} (hbefore : PointsApart before)
    (hafter : PointsApart after) (h : before.getLast? ≠ some '.' ∨ after.head? ≠ some '.') :
    PointsApart (before ++ after) := by
  refine List.isChain_append.mpr ⟨hbefore, hafter, ?_⟩
  rintro c hc d hd ⟨rfl, rfl⟩
  rcases h with h | h
  · exact h hc
  · exact h hd

/-- No two points touch between blanks and in front of a point, if none touch between the blanks and
a point is not the last character there. -/
theorem Padded.pointsApart {core text : List Char} (h : Padded core text)
    (hcore : PointsApart core) (hlast : core.getLast? ≠ some '.') :
    PointsApart (text ++ ['.']) := by
  obtain ⟨before, after, hbefore, hafter, rfl⟩ := h
  have hblank : ∀ blanks : List Char, (∀ c ∈ blanks, isBlank c = true) → '.' ∉ blanks := by
    intro blanks hblanks hmem
    cases hblanks '.' hmem
  have hfirst : before.getLast? ≠ some '.' :=
    fun hpoint => hblank before hbefore (List.mem_of_getLast? hpoint)
  have hthird : after.head? ≠ some '.' :=
    fun hpoint => hblank after hafter (List.mem_of_head? hpoint)
  have hend : after.getLast? ≠ some '.' :=
    fun hpoint => hblank after hafter (List.mem_of_getLast? hpoint)
  have hwhole : (before ++ core ++ after).getLast? ≠ some '.' := by
    simp only [List.getLast?_append, Ne, Option.or_eq_some_iff, not_or, not_and]
    exact ⟨hend, fun _ => ⟨hlast, fun _ => hfirst⟩⟩
  refine PointsApart.append ?_ (pointsApart_singleton '.') (Or.inl hwhole)
  refine PointsApart.append ?_ (pointsApart_of_notMem (hblank after hafter)) (Or.inr hthird)
  exact (pointsApart_of_notMem (hblank before hbefore)).append hcore (Or.inl hfirst)

/-- A text is cut at the first two points that touch. -/
theorem cut?_points {before : List Char} (h : PointsApart (before ++ ['.'])) (after : List Char) :
    cut? ['.', '.'] (before ++ '.' :: '.' :: after) = some (before, after) := by
  induction before with
  | nil => simp [cut?]
  | cons c before ih =>
    rw [List.cons_append, PointsApart, List.isChain_cons] at h
    have hnot : ¬(['.', '.'].isPrefixOf (c :: (before ++ '.' :: '.' :: after)) = true) := by
      intro hprefix
      obtain ⟨rest, hrest⟩ := List.isPrefixOf_iff_prefix.mp hprefix
      obtain ⟨hc, hrest⟩ := List.cons.inj hrest
      cases before with
      | nil => exact h.1 '.' rfl ⟨hc.symm, rfl⟩
      | cons d before => exact h.1 d rfl ⟨hc.symm, (List.cons.inj hrest).1.symm⟩
    rw [List.cons_append, cut?, if_neg hnot, ih h.2, Option.map_some]

/-- The pieces of a text are those in front of a mark and those behind it. -/
theorem pieces_append {sep : Char} {first last text : String}
    (h : text.toList = first.toList ++ sep :: last.toList) :
    pieces sep text = pieces sep first ++ pieces sep last := by
  rw [pieces, h, List.splitOn_append_cons_self, List.map_append]
  rfl

/-- A text without the mark is its only piece. -/
theorem pieces_of_notMem {sep : Char} {text : List Char} (h : sep ∉ text) :
    pieces sep (String.ofList text) = [String.ofList text] := by
  rw [pieces, String.toList_ofList, List.splitOn_eq_singleton h, List.map_singleton]

/-- The first piece of a text is what stands in front of the first mark. -/
theorem pieces_append_cons {sep : Char} {before : List Char} (h : sep ∉ before)
    (after : List Char) :
    pieces sep (String.ofList (before ++ sep :: after))
      = String.ofList before :: pieces sep (String.ofList after) := by
  have hchars : (String.ofList (before ++ sep :: after)).toList
      = (String.ofList before).toList ++ sep :: (String.ofList after).toList := by simp
  rw [pieces_append hchars, pieces_of_notMem h, List.singleton_append]

end Marks

end Rollup.Text
