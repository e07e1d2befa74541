import Rollup.Proofs.Binary64.Text
import Rollup.Proofs.Json.Scalar
import Rollup.Proofs.Spec.Reading
import Rollup.Spec.Compact

/-!
# The compact texts of a clause

A clause can be written on a command line in many ways: with blanks around what it says, with its
numbers in any spelling, with its options in either order. The relations below say what a text may
write, without regard to how texts are read. Reading any of them gives the clause.
-/

namespace Rollup

open Text

section Texts

/-- A text is a bound: nothing, or the JSON text of a scalar, in which a string has no marks of the
syntax. -/
inductive BoundText : Option Value → List Char → Prop where
  /-- There is no bound. -/
  | missing : BoundText none []
  /-- The bound is a boolean. -/
  | bool (flag : Bool) : BoundText (some (.bool flag)) (Json.write (.bool flag))
  /-- The bound is a number. -/
  | number {n : Number} (h : n.InRange) : BoundText (some (.number n)) (Json.write (.number n))
  /-- The bound is a string. -/
  | string {text : String} (hcomma : ',' ∉ Json.write (.string text))
      (hcolon : ':' ∉ Json.write (.string text))
      (hpoints : ¬['.', '.'] <:+: Json.write (.string text)) :
      BoundText (some (.string text)) (Json.write (.string text))

/-- A text is a range: two bounds around two points. -/
inductive Range.CompactText (range : Range) : List Char → Prop where
  /-- The bounds may have blanks around them. -/
  | mk {start stop first last : List Char} (hstart : BoundText range.start start)
      (hstop : BoundText range.stop stop) (hfirst : Padded start first) (hlast : Padded stop last) :
      CompactText range (first ++ '.' :: '.' :: last)

/-- A text is a list of ranges, separated by commas. -/
inductive RangesText : List Range → List Char → Prop where
  /-- The only range. -/
  | single {range : Range} {text : List Char} (h : range.CompactText text) : RangesText [range] text
  /-- The first range and the others. -/
  | cons {range : Range} {ranges : List Range} {text rest : List Char} (h : range.CompactText text)
      (hrest : RangesText ranges rest) : RangesText (range :: ranges) (text ++ ',' :: rest)

/-- A text is an option: a name and a value around an equals sign, with or without blanks around
each. -/
inductive OptionText (name : String) (value : List Char) : List Char → Prop where
  /-- The name and the value may have blanks around them. -/
  | mk {first last : List Char} (hname : Padded name.toList first) (hvalue : Padded value last) :
      OptionText name value (first ++ '=' :: last)

/-- Texts are the options that say a way of bucketing. -/
inductive Bucketing.CompactOptions : Bucketing → List (List Char) → Prop where
  /-- Nothing is said. -/
  | value : CompactOptions .value []
  /-- A component, under either of its names. -/
  | timeComponent {component name : String} {option : List Char}
      (htrim : trimString component = component) (hcolon : ':' ∉ component.toList)
      (hname : name = "time" ∨ name = "timeComponent")
      (h : OptionText name component.toList option) :
      CompactOptions (.timeComponent component) [option]
  /-- A width, the base being zero. -/
  | interval {width : Binary64} {spelling option : List Char}
      (hwidth : Binary64.ofText? spelling = some width)
      (h : OptionText "interval" spelling option) :
      CompactOptions (.interval width .zero) [option]
  /-- A width and a base, in either order. -/
  | based {width base : Binary64} {spelling other first second : List Char}
      {options : List (List Char)} (hwidth : Binary64.ofText? spelling = some width)
      (hbase : Binary64.ofText? other = some base) (hfirst : OptionText "interval" spelling first)
      (hsecond : OptionText "base" other second)
      (h : options = [first, second] ∨ options = [second, first]) :
      CompactOptions (.interval width base) options
  /-- Ranges. -/
  | ranges {ranges : List Range} {text option : List Char} (h : RangesText ranges text)
      (hoption : OptionText "ranges" text option) : CompactOptions (.ranges ranges) [option]

/-- A text is a clause: the path of its field, and its options, each behind a colon. -/
inductive Clause.CompactText (clause : Clause) : List Char → Prop where
  /-- The path may have blanks around it. -/
  | mk {field : List Char} {options : List (List Char)} (hfield : Padded clause.field.toList field)
      (hoptions : clause.bucketing.CompactOptions options) :
      CompactText clause (field ++ options.flatMap fun option => ':' :: option)

/-- The string bounds of a range can be written without marks of the syntax in them, and its numbers
are numbers that a text can hold. -/
def Range.Expressible (range : Range) : Prop :=
  ∀ bound ∈ range.bounds, bound.WellFormed ∧ ∀ text, bound = .string text →
    ',' ∉ Json.write bound ∧ ':' ∉ Json.write bound ∧ ¬['.', '.'] <:+: Json.write bound

/-- A way of bucketing can be written as options. -/
def Bucketing.Expressible : Bucketing → Prop
  | .value => True
  | .ranges list => ∀ range ∈ list, range.Expressible
  | .interval _ _ => True
  | .timeComponent component => trimString component = component ∧ ':' ∉ component.toList

/-- A clause can be written as a text: its path has no colon and no blanks around it, and its
options can be written. -/
structure Clause.Expressible (clause : Clause) : Prop where
  /-- The path has no blanks around it. -/
  trim_field : trimString clause.field = clause.field
  /-- The path has no colon. -/
  colon_notMem_field : ':' ∉ clause.field.toList
  /-- The options can be written. -/
  bucketing : clause.bucketing.Expressible

end Texts

section Bounds

variable {bound : Option Value} {core : List Char}

/-- The text of a number has no mark of the syntax and no blank, and no two points touch in it or
behind it. -/
theorem numberText_facts {n : Number} (h : n.InRange) :
    (∀ c ∈ n.text .json, Json.Numeral.isPart c = true) ∧ PointsApart (n.text .json) ∧
      (n.text .json).getLast? ≠ some '.' := by
  obtain ⟨numeral, hproper, htext, -⟩ := Json.exists_numeral h
  rw [htext]
  exact ⟨fun _ => hproper.isPart_of_mem, hproper.pointsApart, hproper.getLast?_ne_point⟩

/-- A comma or a colon does not stand in a bound. -/
theorem BoundText.notMem (h : BoundText bound core) : ',' ∉ core ∧ ':' ∉ core := by
  cases h with
  | missing => exact ⟨List.not_mem_nil, List.not_mem_nil⟩
  | bool flag => cases flag <;> decide
  | number h =>
    have hpart := (numberText_facts h).1
    refine ⟨fun hmem => ?_, fun hmem => ?_⟩
    · cases hpart _ hmem
    · cases hpart _ hmem
  | string hcomma hcolon _ => exact ⟨hcomma, hcolon⟩

/-- No two points touch in a bound, and it does not end in a point. -/
theorem BoundText.pointsApart (h : BoundText bound core) :
    PointsApart core ∧ core.getLast? ≠ some '.' := by
  cases h with
  | missing => exact ⟨List.isChain_nil, by simp⟩
  | bool flag =>
    refine ⟨pointsApart_of_notMem ?_, ?_⟩ <;> cases flag <;> decide
  | number h => exact (numberText_facts h).2
  | string _ _ hpoints =>
    refine ⟨pointsApart_of_not_adjacent hpoints, ?_⟩
    rw [Json.write, Json.quote, List.getLast?_concat]
    decide

/-- A bound has no blanks around it. -/
theorem BoundText.trim_eq (h : BoundText bound core) : trim core = core := by
  cases h with
  | missing => rfl
  | bool flag => cases flag <;> decide
  | number h =>
    exact trim_eq_self_of_forall fun c hc =>
      Json.Numeral.isBlank_of_isPart ((numberText_facts h).1 c hc)
  | string _ _ _ =>
    refine trim_eq_self ?_ ?_
    · rw [Json.write, Json.quote]
      rintro c ⟨⟩
      rfl
    · rw [Json.write, Json.quote, List.getLast?_concat]
      rintro c ⟨⟩
      rfl

/-- A bound that there is stands there as its JSON text. -/
theorem BoundText.eq_write {value : Value} (h : BoundText (some value) core) :
    core = Json.write value ∧ value.isScalar = true ∧ value.WellFormed := by
  cases h with
  | bool flag => exact ⟨rfl, rfl, trivial⟩
  | number h => exact ⟨rfl, rfl, h⟩
  | string _ _ _ => exact ⟨rfl, rfl, trivial⟩

/-- A bound is read back, whatever the blanks around it. -/
theorem BoundText.readBound_eq (h : BoundText bound core) {text : List Char}
    (htext : Padded core text) : Spec.readBound (String.ofList text) = bound := by
  rw [Spec.readBound, trimString_ofList h.trim_eq htext]
  cases bound with
  | none =>
    cases h
    rfl
  | some value =>
    obtain ⟨rfl, hscalar, hwell⟩ := h.eq_write
    have hread := Json.readNormal?_write hscalar hwell
    have hne : String.ofList (Json.write value) ≠ "" := by
      intro hempty
      rw [hempty, Json.readNormal?_empty] at hread
      cases hread
    simp only [hne, hread, hscalar, if_false, if_true]

end Bounds

section Ranges

variable {range : Range} {ranges : List Range} {text : List Char}

/-- A string with a mark among its characters is cut there. -/
theorem cutString?_equals {before : List Char} (h : '=' ∉ before) (after : List Char) :
    Spec.cutString? "=" (String.ofList (before ++ '=' :: after))
      = some (String.ofList before, String.ofList after) := by
  rw [Spec.cutString?, show "=".toList = ['='] from rfl, String.toList_ofList, cut?_append_cons h]
  rfl

/-- A string is cut at the first two points that touch. -/
theorem cutString?_points {before : List Char} (h : PointsApart (before ++ ['.']))
    (after : List Char) :
    Spec.cutString? ".." (String.ofList (before ++ '.' :: '.' :: after))
      = some (String.ofList before, String.ofList after) := by
  rw [Spec.cutString?, show "..".toList = ['.', '.'] from rfl, String.toList_ofList, cut?_points h]
  rfl

/-- A range is read back. -/
theorem Range.CompactText.readRangeArgument_eq (h : range.CompactText text) :
    Spec.readRangeArgument (String.ofList text) = .ok range := by
  cases h with
  | mk hstart hstop hfirst hlast =>
    have hpoints := hfirst.pointsApart hstart.pointsApart.1 hstart.pointsApart.2
    rw [Spec.readRangeArgument, cutString?_points hpoints]
    simp only [hstart.readBound_eq hfirst, hstop.readBound_eq hlast]

/-- A comma or a colon does not stand in a range. -/
theorem Range.CompactText.notMem (h : range.CompactText text) : ',' ∉ text ∧ ':' ∉ text := by
  cases h with
  | mk hstart hstop hfirst hlast =>
    have hcomma := hfirst.notMem rfl hstart.notMem.1
    have hcolon := hfirst.notMem rfl hstart.notMem.2
    have hcomma' := hlast.notMem rfl hstop.notMem.1
    have hcolon' := hlast.notMem rfl hstop.notMem.2
    simp [hcomma, hcolon, hcomma', hcolon']

/-- Blanks taken off the front of a range leave it. -/
theorem Range.CompactText.dropWhile (h : range.CompactText text) :
    range.CompactText (text.dropWhile isBlank) := by
  cases h with
  | mk hstart hstop hfirst hlast =>
    rw [dropWhile_append_cons rfl]
    exact .mk hstart hstop (hfirst.dropWhile hstart.trim_eq) hlast

/-- Blanks taken off the back of a range leave it. -/
theorem Range.CompactText.rdropWhile (h : range.CompactText text) :
    range.CompactText (text.rdropWhile isBlank) := by
  cases h with
  | @mk start stop first last hstart hstop hfirst hlast =>
    have hback := rdropWhile_append_cons (c := '.') rfl (first ++ ['.']) last
    rw [← List.append_cons, ← List.append_cons] at hback
    rw [hback]
    exact .mk hstart hstop hfirst (hlast.rdropWhile hstop.trim_eq)

/-- A colon does not stand in ranges. -/
theorem RangesText.colon_notMem (h : RangesText ranges text) : ':' ∉ text := by
  induction h with
  | single h => exact h.notMem.2
  | cons h _ ih => simp [h.notMem.2, ih]

/-- Blanks taken off the front of ranges leave them. -/
theorem RangesText.dropWhile (h : RangesText ranges text) :
    RangesText ranges (text.dropWhile isBlank) := by
  cases h with
  | single h => exact .single h.dropWhile
  | cons h hrest =>
    rw [dropWhile_append_cons rfl]
    exact .cons h.dropWhile hrest

/-- Blanks taken off the back of ranges leave them. -/
theorem RangesText.rdropWhile (h : RangesText ranges text) :
    RangesText ranges (text.rdropWhile isBlank) := by
  induction h with
  | single h => exact .single h.rdropWhile
  | cons h _ ih =>
    rw [rdropWhile_append_cons rfl]
    exact .cons h ih

/-- Ranges are read one by one. -/
theorem RangesText.mapM_readRangeArgument (h : RangesText ranges text) :
    (pieces ',' (String.ofList text)).mapM Spec.readRangeArgument = .ok ranges := by
  induction h with
  | single h =>
    rw [pieces_of_notMem h.notMem.1, List.mapM_cons, h.readRangeArgument_eq]
    rfl
  | cons h _ ih =>
    rw [pieces_append_cons h.notMem.1, List.mapM_cons, h.readRangeArgument_eq, ih]
    rfl

end Ranges

section Options

variable {name : String} {value text : List Char}

/-- A colon stands in an option only if it stands in its name or its value. -/
theorem OptionText.colon_notMem (h : OptionText name value text) (hname : ':' ∉ name.toList)
    (hvalue : ':' ∉ value) : ':' ∉ text := by
  cases h with
  | mk hfirst hlast => simp [hfirst.notMem rfl hname, hlast.notMem rfl hvalue]

/-- An option is cut into its name and its value. -/
theorem OptionText.exists_cut (h : OptionText name value text) (hname : '=' ∉ name.toList)
    (htrim : trimString name = name) :
    ∃ first last, Spec.cutString? "=" (String.ofList text) = some (first, last) ∧
      trimString first = name ∧ trimString last = String.ofList (trim value) := by
  cases h with
  | @mk first last hfirst hlast =>
    refine ⟨_, _, cutString?_equals (hfirst.notMem rfl hname) last, ?_, ?_⟩
    · rw [trimString, String.toList_ofList, hfirst.trim_eq]
      exact htrim
    · rw [trimString, String.toList_ofList, hlast.trim_eq]

/-- The spelling of a number has no colon, and no blanks around it. -/
theorem colon_notMem_of_ofText? {x : Binary64} (h : Binary64.ofText? value = some x) :
    ':' ∉ value ∧ trim value = value := by
  have hpart := Binary64.isFloatPart_of_ofText? h
  refine ⟨fun hcolon => ?_, trim_eq_self_of_forall fun c hc => ?_⟩
  · cases hpart ':' hcolon
  · exact Binary64.isBlank_of_isFloatPart (hpart c hc)

/-- An option is cut into its name and the spelling of its number. -/
theorem OptionText.exists_number {x : Binary64} (h : OptionText name value text)
    (hname : '=' ∉ name.toList) (htrim : trimString name = name)
    (hvalue : Binary64.ofText? value = some x) :
    ∃ first last, Spec.cutString? "=" (String.ofList text) = some (first, last) ∧
      trimString first = name ∧ ∀ label, Spec.readNumberOption label (trimString last) = .ok x := by
  obtain ⟨first, last, hcut, hfirst, hlast⟩ := h.exists_cut hname htrim
  refine ⟨first, last, hcut, hfirst, fun label => ?_⟩
  rw [hlast, (colon_notMem_of_ofText? hvalue).2, Spec.readNumberOption, String.toList_ofList,
    hvalue]

variable (clause : Spec.WrittenClause)

/-- A width is read from its option. -/
theorem OptionText.addOption_interval {x : Binary64} (h : OptionText "interval" value text)
    (hvalue : Binary64.ofText? value = some x) :
    Spec.addOption clause (String.ofList text) = .ok { clause with interval := some x } := by
  obtain ⟨first, last, hcut, hfirst, hread⟩ := h.exists_number (by decide) (by decide) hvalue
  rw [Spec.addOption, hcut]
  simp only [hfirst, hread]
  rfl

/-- A base is read from its option. -/
theorem OptionText.addOption_base {x : Binary64} (h : OptionText "base" value text)
    (hvalue : Binary64.ofText? value = some x) :
    Spec.addOption clause (String.ofList text) = .ok { clause with base := some x } := by
  obtain ⟨first, last, hcut, hfirst, hread⟩ := h.exists_number (by decide) (by decide) hvalue
  rw [Spec.addOption, hcut]
  simp only [hfirst, hread]
  rfl

/-- A component is read from its option, under either name. -/
theorem OptionText.addOption_timeComponent {component : String}
    (hname : name = "time" ∨ name = "timeComponent") (h : OptionText name component.toList text)
    (htrim : trimString component = component) :
    Spec.addOption clause (String.ofList text)
      = .ok { clause with timeComponent := some component } := by
  have hequals : '=' ∉ name.toList ∧ trimString name = name := by
    rcases hname with rfl | rfl <;> decide
  obtain ⟨first, last, hcut, hfirst, hlast⟩ := h.exists_cut hequals.1 hequals.2
  rw [← trimString, htrim] at hlast
  rw [Spec.addOption, hcut]
  rcases hname with rfl | rfl
  · simp only [hfirst, hlast]
    rfl
  · simp only [hfirst, hlast]
    rfl

/-- Ranges are read from their option. -/
theorem OptionText.addOption_ranges {ranges : List Range} (h : OptionText "ranges" value text)
    (hvalue : RangesText ranges value) :
    Spec.addOption clause (String.ofList text) = .ok { clause with ranges := some ranges } := by
  obtain ⟨first, last, hcut, hfirst, hlast⟩ := h.exists_cut (by decide) (by decide)
  have hread := hvalue.dropWhile.rdropWhile.mapM_readRangeArgument
  rw [← trim_eq_rdropWhile, ← hlast] at hread
  rw [Spec.addOption, hcut]
  simp only [hfirst, hread]
  rfl

/-- A colon stands in no option. -/
theorem Bucketing.CompactOptions.colon_notMem {bucketing : Bucketing} {options : List (List Char)}
    (h : bucketing.CompactOptions options) : ∀ option ∈ options, ':' ∉ option := by
  cases h with
  | value => exact List.forall_mem_nil _
  | @timeComponent _ name _ _ hcolon hname h =>
    have hcolonName : ':' ∉ name.toList := by rcases hname with rfl | rfl <;> decide
    exact List.forall_mem_singleton.mpr (h.colon_notMem hcolonName hcolon)
  | interval hwidth h =>
    exact List.forall_mem_singleton.mpr
      (h.colon_notMem (by decide) (colon_notMem_of_ofText? hwidth).1)
  | based hwidth hbase hfirst hsecond h =>
    have hfirst := hfirst.colon_notMem (by decide) (colon_notMem_of_ofText? hwidth).1
    have hsecond := hsecond.colon_notMem (by decide) (colon_notMem_of_ofText? hbase).1
    rcases h with rfl | rfl <;> simp [hfirst, hsecond]
  | ranges h hoption =>
    exact List.forall_mem_singleton.mpr (hoption.colon_notMem (by decide) h.colon_notMem)

/-- Options are read one after the other into the clause that they say. -/
theorem Bucketing.CompactOptions.foldlM_addOption {bucketing : Bucketing}
    {options : List (List Char)} (h : bucketing.CompactOptions options) (field : String) :
    ∃ base, bucketing.HasBase base ∧
      (options.map String.ofList).foldlM Spec.addOption { field }
        = .ok (Clause.writtenWith ⟨field, bucketing⟩ base) := by
  cases h with
  | value => exact ⟨none, rfl, rfl⟩
  | timeComponent htrim _ hname h =>
    refine ⟨none, rfl, ?_⟩
    rw [List.map_singleton, List.foldlM_cons, h.addOption_timeComponent _ hname htrim]
    rfl
  | interval hwidth h =>
    refine ⟨none, Option.getD_none, ?_⟩
    rw [List.map_singleton, List.foldlM_cons, h.addOption_interval _ hwidth]
    rfl
  | @based width base _ _ first second _ hwidth hbase hfirst hsecond h =>
    refine ⟨some base, Option.getD_some, ?_⟩
    rcases h with rfl | rfl
    · simp only [List.map_cons, List.map_nil, List.foldlM_cons, List.foldlM_nil,
        hfirst.addOption_interval _ hwidth, hsecond.addOption_base _ hbase]
      rfl
    · simp only [List.map_cons, List.map_nil, List.foldlM_cons, List.foldlM_nil,
        hfirst.addOption_interval _ hwidth, hsecond.addOption_base _ hbase]
      rfl
  | ranges h hoption =>
    refine ⟨none, rfl, ?_⟩
    rw [List.map_singleton, List.foldlM_cons, hoption.addOption_ranges _ h]
    rfl

end Options

section Clauses

/-- A text is cut at the colons in front of its options. -/
theorem pieces_options {options : List (List Char)} (hoptions : ∀ option ∈ options, ':' ∉ option)
    {field : List Char} (hfield : ':' ∉ field) :
    pieces ':' (String.ofList (field ++ options.flatMap fun option => ':' :: option))
      = String.ofList field :: options.map String.ofList := by
  induction options generalizing field with
  | nil => rw [List.flatMap_nil, List.append_nil, pieces_of_notMem hfield, List.map_nil]
  | cons option options ih =>
    obtain ⟨hoption, hoptions⟩ := List.forall_mem_cons.mp hoptions
    rw [List.flatMap_cons, List.cons_append, pieces_append_cons hfield, ih hoptions hoption,
      List.map_cons]

/-- The clause that an argument says, whether or not it makes sense. -/
def Spec.sayClause (input : String) : Except SpecError Clause := do
  let parts := pieces ':' input
  let written ← (parts.drop 1).foldlM addOption { field := trimString (parts.headD "") }
  written.toClause

/-- What an argument says is judged as if it were the first clause. -/
theorem Spec.readGroupArgument_eq_bind (input : String) :
    readGroupArgument input = do
      let clause ← sayClause input
      refuse (clause.fault? 0)
      return clause := by
  rw [readGroupArgument, sayClause, bind_assoc]

/-- An argument is read as the clause that it says, if nothing is wrong with that. -/
theorem Spec.readGroupArgument_eq_ok_iff {input : String} {clause : Clause} :
    readGroupArgument input = .ok clause ↔
      sayClause input = .ok clause ∧ clause.fault? 0 = none := by
  rw [readGroupArgument_eq_bind, bind_eq_ok_iff]
  constructor
  · rintro ⟨said, hsaid, hrefuse⟩
    obtain ⟨_, hnone, hclause⟩ := bind_eq_ok_iff.mp hrefuse
    cases hclause
    exact ⟨hsaid, refuse_eq_ok_iff.mp hnone⟩
  · rintro ⟨hsaid, hnone⟩
    exact ⟨clause, hsaid, bind_eq_ok_iff.mpr ⟨(), refuse_eq_ok_iff.mpr hnone, rfl⟩⟩

/-- Whatever text is a clause says the clause. -/
theorem Clause.CompactText.sayClause_eq {clause : Clause} {text : List Char}
    (h : clause.CompactText text) (hexpressible : clause.Expressible) :
    Spec.sayClause (String.ofList text) = .ok clause := by
  cases h with
  | @mk field options hfield hoptions =>
    have hcolon := hfield.notMem rfl hexpressible.colon_notMem_field
    have hpath : trimString (String.ofList field) = clause.field := by
      rw [trimString, String.toList_ofList, hfield.trim_eq]
      exact hexpressible.trim_field
    obtain ⟨base, hbase, hfold⟩ := hoptions.foldlM_addOption clause.field
    rw [Spec.sayClause, pieces_options hoptions.colon_notMem hcolon, List.headD_cons,
      List.drop_one, List.tail_cons, hpath, hfold]
    exact Clause.toClause_writtenWith hbase

/-- A bound that can be written is written by its JSON text. -/
theorem Range.Expressible.exists_boundText {range : Range} (h : range.Expressible)
    (hconsistent : range.Consistent) {bound : Option Value}
    (hbound : ∀ value ∈ bound, value ∈ range.bounds) : ∃ text, BoundText bound text := by
  cases bound with
  | none => exact ⟨_, .missing⟩
  | some value =>
    have hmem := hbound value rfl
    have hscalar := hconsistent.isScalar value hmem
    obtain ⟨hwell, hmarks⟩ := h value hmem
    cases value with
    | bool flag => exact ⟨_, .bool flag⟩
    | number n => exact ⟨_, .number hwell⟩
    | string text =>
      obtain ⟨hcomma, hcolon, hpoints⟩ := hmarks text rfl
      exact ⟨_, .string hcomma hcolon hpoints⟩
    | _ => cases hscalar

/-- A range that can be written is written by its bounds. -/
theorem Range.Expressible.exists_compactText {range : Range} (h : range.Expressible)
    (hconsistent : range.Consistent) : ∃ text, range.CompactText text := by
  have hfirst : ∀ value ∈ range.start, value ∈ range.bounds := fun value hvalue =>
    List.mem_append_left _ (Option.mem_toList.mpr hvalue)
  have hlast : ∀ value ∈ range.stop, value ∈ range.bounds := fun value hvalue =>
    List.mem_append_right _ (Option.mem_toList.mpr hvalue)
  obtain ⟨start, hstart⟩ := h.exists_boundText hconsistent hfirst
  obtain ⟨stop, hstop⟩ := h.exists_boundText hconsistent hlast
  exact ⟨_, .mk hstart hstop (padded_self start) (padded_self stop)⟩

/-- Ranges that can be written are written one after the other. -/
theorem exists_rangesText {ranges : List Range} (hne : ranges ≠ [])
    (h : ∀ range ∈ ranges, range.Expressible ∧ range.Consistent) :
    ∃ text, RangesText ranges text := by
  induction ranges with
  | nil => exact absurd rfl hne
  | cons range ranges ih =>
    obtain ⟨⟨hrange, hconsistent⟩, hranges⟩ := List.forall_mem_cons.mp h
    obtain ⟨text, htext⟩ := hrange.exists_compactText hconsistent
    cases ranges with
    | nil => exact ⟨_, .single htext⟩
    | cons next ranges =>
      obtain ⟨rest, hrest⟩ := ih (List.cons_ne_nil _ _) hranges
      exact ⟨_, .cons htext hrest⟩

/-- Every option is written without blanks. -/
theorem optionText_self (name : String) (value : List Char) :
    OptionText name value (name.toList ++ '=' :: value) :=
  .mk (padded_self _) (padded_self _)

/-- A way of bucketing that can be written is written by options. -/
theorem Bucketing.Expressible.exists_compactOptions {bucketing : Bucketing}
    (h : bucketing.Expressible) (hconsistent : bucketing.Consistent) :
    ∃ options, bucketing.CompactOptions options := by
  cases hconsistent with
  | value => exact ⟨_, .value⟩
  | timeComponent component =>
    exact ⟨_, .timeComponent h.1 h.2 (Or.inl rfl) (optionText_self _ _)⟩
  | ranges hne hranges =>
    obtain ⟨text, htext⟩ := exists_rangesText hne fun range hrange =>
      ⟨h range hrange, hranges range hrange⟩
    exact ⟨_, .ranges htext (optionText_self _ _)⟩
  | @interval width base hwidth hbase =>
    obtain ⟨w, rfl, -⟩ := hwidth
    cases base with
    | finite b =>
      exact ⟨_, .based (Binary64.ofText?_plain_finiteText w) (Binary64.ofText?_plain_finiteText b)
        (optionText_self _ _) (optionText_self _ _) (Or.inl rfl)⟩
    | _ => cases hbase

/-- A valid clause that can be written as a text has such texts, and every one of them is read as
the clause. -/
theorem Spec.readGroupArgument_of_compactText {clause : Clause} {index : Nat}
    (hvalid : clause.fault? index = none) (hexpressible : clause.Expressible) :
    (∃ text, clause.CompactText text) ∧
      ∀ text, clause.CompactText text → readGroupArgument (String.ofList text) = .ok clause := by
  have hconsistent := Clause.fault?_iff.1.mp hvalid
  constructor
  · obtain ⟨options, hoptions⟩ :=
      hexpressible.bucketing.exists_compactOptions hconsistent.bucketing
    exact ⟨_, .mk (padded_self _) hoptions⟩
  · intro text h
    exact readGroupArgument_eq_ok_iff.mpr
      ⟨h.sayClause_eq hexpressible, Clause.fault?_iff.1.mpr hconsistent⟩

/-- The number `-2 ^ (-20)`. -/
def smallLoss : Binary64.Finite where
  negative := true
  units := 2 ^ 1054
  representable := ⟨by decide +kernel, 1, 1054, by decide, by decide +kernel⟩

/-- The numbers below `-2 ^ (-20)`. -/
def losses : Range where
  start := none
  stop := some (.number (.float smallLoss))

/-- The strings between two that have a point and a blank in them. -/
def dottedNames : Range where
  start := some (.string "a.b")
  stop := some (.string "c d")

/-- A clause with ranges of different kinds. -/
def codesInRanges : Clause where
  field := "code"
  bucketing := .ranges [losses, dottedNames]

/-- An exponent, a point in a string and blanks around the parts do not matter. -/
theorem Spec.readGroupArgument_codesInRanges :
    codesInRanges.fault? 0 = none ∧ codesInRanges.Expressible ∧
      readGroupArgument "code: ranges = ..-9.5367431640625e-7 , \"a.b\" .. \"c d\""
        = .ok codesInRanges := by
  have hvalid : codesInRanges.fault? 0 = none := by decide +kernel
  have hmarks : ∀ text ∈ ["a.b", "c d"], ',' ∉ Json.write (.string text) ∧
      ':' ∉ Json.write (.string text) ∧ ¬['.', '.'] <:+: Json.write (.string text) := by
    decide
  obtain ⟨hcomma, hcolon, hpoints⟩ := hmarks "a.b" (by decide)
  obtain ⟨hcomma', hcolon', hpoints'⟩ := hmarks "c d" (by decide)
  have hexpressible : codesInRanges.Expressible := by
    refine ⟨by decide, by decide, ?_⟩
    rintro range (_ | ⟨_, _ | ⟨_, ⟨⟩⟩⟩) bound (_ | ⟨_, _ | ⟨_, ⟨⟩⟩⟩)
    · exact ⟨trivial, fun text h => by cases h⟩
    · exact ⟨trivial, fun text _ => ⟨hcomma, hcolon, hpoints⟩⟩
    · exact ⟨trivial, fun text _ => ⟨hcomma', hcolon', hpoints'⟩⟩
  have hstop : BoundText losses.stop "-9.5367431640625e-7".toList := by
    have hnumber : Json.write (.number (.float smallLoss)) = "-9.5367431640625e-7".toList := by
      decide +kernel
    rw [← hnumber]
    exact .number trivial
  have hlosses : losses.CompactText ("".toList ++ '.' :: '.' :: "-9.5367431640625e-7 ".toList) :=
    .mk .missing hstop (padded_self _) ((padded_iff (by decide)).mpr (by decide))
  have hnames : dottedNames.CompactText (" \"a.b\" ".toList ++ '.' :: '.' :: " \"c d\"".toList) :=
    .mk (.string hcomma hcolon hpoints) (.string hcomma' hcolon' hpoints')
      ((padded_iff (by decide)).mpr (by decide)) ((padded_iff (by decide)).mpr (by decide))
  have hname : Padded "ranges".toList " ranges ".toList := (padded_iff (by decide)).mpr (by decide)
  have hoptions : codesInRanges.bucketing.CompactOptions _ :=
    .ranges (.cons hlosses (.single hnames))
      (.mk hname ⟨[' '], [], List.forall_mem_singleton.mpr rfl, List.forall_mem_nil _, rfl⟩)
  have hread := (readGroupArgument_of_compactText hvalid hexpressible).2 _
    (.mk (padded_self "code".toList) hoptions)
  refine ⟨hvalid, hexpressible, (congrArg readGroupArgument ?_).trans hread⟩
  decide +kernel

end Clauses

end Rollup
