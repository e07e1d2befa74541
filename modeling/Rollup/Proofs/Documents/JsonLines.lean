import Rollup.Documents.Reading
import Rollup.Proofs.Traversal

/-!
# Documents in lines of JSON

A file of JSON lines is read in two passes. The first reads the lines that are not blank and fails
at the first one that is not JSON; the second takes the values for documents and fails at the first
one that is not an object. So a line that is not JSON comes before a value that is not an object,
wherever the two stand, and the two errors count differently: the one all lines, from one, and the
other the lines that are not blank, from zero.
-/

namespace Rollup

/-- A line is the JSON text of a value. -/
def LineSpells (line : List Char) (value : Value) : Prop :=
  Json.readNormal? (String.ofList line) = some value

/-- A line is JSON exactly if a value is read from it. -/
theorem exists_lineSpells_iff {line : String} :
    (∃ value, LineSpells line.toList value) ↔ (Json.readNormal? line).isSome = true := by
  simp only [LineSpells, String.ofList_toList, Option.isSome_iff_exists]

/-- A line has a character that is not blank. -/
def isWritten (line : List Char) : Bool :=
  !line.all Text.isBlank

/-- The lines of a text that are not blank. -/
def writtenLines (content : String) : List (List Char) :=
  (Text.lines content.toList).filter isWritten

/-- The first line of a text that is neither blank nor JSON stands at a position among all lines. -/
def FirstMalformedLine (content : String) (index : Nat) : Prop :=
  ∃ line, IsFirstWithout (fun line => isWritten line = true → ∃ value, LineSpells line value)
    (Text.lines content.toList) index line

/-- The first line of a text that is not blank and not an object stands at a position among the
lines that are not blank. -/
def FirstNonObject (content : String) (index : Nat) : Prop :=
  ∃ line, IsFirstWithout (fun line => ∃ members, LineSpells line (.object members))
    (writtenLines content) index line

section Lines

variable {name content : String}

theorem readJsonLine_eq_ok_iff {line : List Char × Nat} {value : Value} :
    readJsonLine name line = .ok value ↔ LineSpells line.1 value := by
  rw [readJsonLine, LineSpells]
  cases Json.readNormal? (String.ofList line.1) <;> simp

theorem readJsonLine_eq_error_iff {line : List Char × Nat} {error : InputError} :
    readJsonLine name line = .error error ↔
      (¬∃ value, LineSpells line.1 value) ∧
        error = .jsonLine name (line.2 + 1) "the line is not valid JSON" := by
  simp only [readJsonLine, LineSpells]
  cases Json.readNormal? (String.ofList line.1) <;> simp [eq_comm]

/-- The lines that are not blank are read with their positions among all lines. -/
theorem readJsonLines_eq_mapM :
    readJsonLines name content =
      ((Text.lines content.toList).zipIdx.filter fun entry => isWritten entry.1).mapM
        (readJsonLine name) :=
  rfl

/-- JSON lines give the values of the lines that are not blank. -/
theorem readJsonLines_eq_ok_iff {items : List Value} :
    readJsonLines name content = .ok items ↔
      List.Forall₂ LineSpells (writtenLines content) items := by
  have hlines : writtenLines content =
      ((Text.lines content.toList).zipIdx.filter fun entry => isWritten entry.1).map Prod.fst := by
    rw [writtenLines]
    conv_lhs => rw [← List.zipIdx_map_fst 0 (Text.lines content.toList), List.filter_map]
    rfl
  rw [readJsonLines_eq_mapM, mapM_eq_ok_iff, hlines, List.forall₂_map_left_iff]
  simp only [readJsonLine_eq_ok_iff]

/-- JSON lines fail at the first line that is neither blank nor JSON. -/
theorem readJsonLines_eq_error_iff {error : InputError} :
    readJsonLines name content = .error error ↔
      ∃ index, FirstMalformedLine content index ∧
        error = .jsonLine name (index + 1) "the line is not valid JSON" := by
  have hstep : ∀ line index, isWritten line = true →
      ((∃ value, readJsonLine name (line, index) = .ok value) ↔ ∃ value, LineSpells line value) :=
    fun line index _ => exists_congr fun value => readJsonLine_eq_ok_iff
  rw [readJsonLines_eq_mapM, mapM_filter_zipIdx_eq_error_iff isWritten hstep]
  simp only [readJsonLine_eq_error_iff, Nat.zero_add, FirstMalformedLine]
  constructor
  · rintro ⟨index, line, hfirst, -, herror⟩
    exact ⟨index, ⟨line, hfirst⟩, herror⟩
  · rintro ⟨index, ⟨line, hfirst⟩, herror⟩
    exact ⟨index, line, hfirst, fun h => hfirst.without fun _ => h, herror⟩

end Lines

section Documents

variable (name : String) {items : List Value}

/-- A value is read as a document exactly if it is an object. -/
theorem readDocument_cases (item : Value × Nat) :
    (∃ members, item.1 = .object members ∧ readDocument name item = .ok ⟨members⟩) ∨
      (∀ members, item.1 ≠ .object members) ∧
        readDocument name item = .error (.notAMapping name item.2) := by
  obtain ⟨value, index⟩ := item
  cases value with
  | object members => exact .inl ⟨members, rfl, rfl⟩
  | _ => exact .inr ⟨by simp, rfl⟩

theorem readDocument_eq_ok_iff {item : Value × Nat} {document : Document} :
    readDocument name item = .ok document ↔ item.1 = document.data := by
  obtain ⟨members⟩ := document
  rcases readDocument_cases name item with ⟨others, hitem, hread⟩ | ⟨hnone, hread⟩
  · rw [hread, hitem, Document.data, Except.ok.injEq, Document.mk.injEq, Value.object.injEq]
  · rw [hread]
    exact iff_of_false (by simp) (hnone members)

theorem readDocument_eq_error_iff {item : Value × Nat} {error : InputError} :
    readDocument name item = .error error ↔
      (∀ members, item.1 ≠ .object members) ∧ error = .notAMapping name item.2 := by
  rcases readDocument_cases name item with ⟨members, hitem, hread⟩ | ⟨hnone, hread⟩
  · rw [hread]
    exact iff_of_false (by simp) fun h => h.1 members hitem
  · rw [hread, Except.error.injEq, and_iff_right hnone, eq_comm]

/-- Values are documents if all of them are objects. -/
theorem mapM_readDocument_eq_ok_iff {documents : List Document} :
    items.zipIdx.mapM (readDocument name) = .ok documents ↔
      items = documents.map Document.data := by
  conv_rhs => rw [← List.zipIdx_map_fst 0 items]
  rw [mapM_eq_ok_iff, ← List.forall₂_eq_eq_eq, List.forall₂_map_left_iff,
    List.forall₂_map_right_iff]
  simp only [readDocument_eq_ok_iff]

/-- If a value is not an object, the first such one is the error. -/
theorem mapM_readDocument_eq_error_iff {error : InputError} :
    items.zipIdx.mapM (readDocument name) = .error error ↔
      ∃ index item,
        IsFirstWithout (fun item => ∃ members, item = .object members) items index item ∧
        error = .notAMapping name index := by
  have hstep : ∀ item index, (∃ document, readDocument name (item, index) = .ok document) ↔
      ∃ members, item = .object members := by
    intro item index
    simp only [readDocument_eq_ok_iff]
    constructor
    · rintro ⟨document, hitem⟩
      exact ⟨document.members, hitem⟩
    · rintro ⟨members, hitem⟩
      exact ⟨⟨members⟩, hitem⟩
  rw [mapM_zipIdx_eq_error_iff hstep]
  simp only [readDocument_eq_error_iff]
  constructor
  · rintro ⟨index, item, hfirst, -, herror⟩
    exact ⟨index, item, hfirst, herror⟩
  · rintro ⟨index, item, hfirst, herror⟩
    exact ⟨index, item, hfirst, fun members h => hfirst.without ⟨members, h⟩, herror⟩

end Documents

/-- The documents of a source come from its items. -/
theorem readDocuments_eq_ok_iff {source : Source} {content : String} {documents : List Document} :
    readDocuments source content = .ok documents ↔
      readItems source content = .ok (documents.map Document.data) := by
  rw [readDocuments, bind_eq_ok_iff]
  simp only [mapM_readDocument_eq_ok_iff]
  exact exists_eq_right

/-- The documents of a source fail if its items do or one of these is not an object. -/
theorem readDocuments_eq_error_iff {source : Source} {content : String} {error : InputError} :
    readDocuments source content = .error error ↔
      readItems source content = .error error ∨
        ∃ items, readItems source content = .ok items ∧ ∃ index item,
          IsFirstWithout (fun item => ∃ members, item = .object members) items index item ∧
            error = .notAMapping source.name index := by
  rw [readDocuments, bind_eq_error_iff]
  simp only [mapM_readDocument_eq_error_iff]

section Objects

variable {content : String}

/-- Whether a line is an object is seen from the one value that it spells. -/
theorem LineSpells.exists_object_iff {line : List Char} {value : Value}
    (h : LineSpells line value) :
    (∃ members, LineSpells line (.object members)) ↔ ∃ members, value = .object members := by
  refine exists_congr fun members => ?_
  rw [LineSpells, show Json.readNormal? (String.ofList line) = some value from h, Option.some.injEq]

/-- If all written lines are JSON, the first one that is not an object spells the first value that
is not one. -/
theorem firstNonObject_iff {items : List Value}
    (h : List.Forall₂ LineSpells (writtenLines content) items) {index : Nat} :
    FirstNonObject content index ↔
      ∃ item, IsFirstWithout (fun item => ∃ members, item = .object members) items index item := by
  constructor
  · rintro ⟨line, hline⟩
    obtain ⟨item, -, hitem⟩ := hline.of_forall₂ h fun _ _ h => h.exists_object_iff
    exact ⟨item, hitem⟩
  · rintro ⟨item, hitem⟩
    obtain ⟨line, -, hline⟩ := hitem.of_forall₂ h.flip fun _ _ hspells =>
      (LineSpells.exists_object_iff hspells).symm
    exact ⟨line, hline⟩

end Objects

section Files

variable {name : String} (hname : InputFormat.ofName name = .jsonLines) (content : String)
include hname

/-- The items of a file of JSON lines are the values of its lines. -/
theorem readItems_jsonLines : readItems (.file name) content = readJsonLines name content := by
  rw [readItems, hname]

/-- A file of JSON lines holds the documents that its lines spell. -/
theorem readDocuments_jsonLines_eq_ok_iff {documents : List Document} :
    readDocuments (.file name) content = .ok documents ↔
      List.Forall₂ (fun line document => LineSpells line document.data) (writtenLines content)
        documents := by
  rw [readDocuments_eq_ok_iff, readItems_jsonLines hname, readJsonLines_eq_ok_iff,
    List.forall₂_map_right_iff]

/-- A file of JSON lines holds documents exactly if its written lines are objects. -/
theorem exists_readDocuments_jsonLines_iff :
    (∃ documents, readDocuments (.file name) content = .ok documents) ↔
      ∀ line ∈ Text.lines content.toList, isWritten line = true →
        ∃ members, LineSpells line (.object members) := by
  simp only [readDocuments_jsonLines_eq_ok_iff hname, exists_forall₂_iff, writtenLines,
    List.mem_filter, and_imp]
  refine forall₃_congr fun line _ _ => ?_
  constructor
  · rintro ⟨document, hline⟩
    exact ⟨document.members, hline⟩
  · rintro ⟨members, hline⟩
    exact ⟨⟨members⟩, hline⟩

/-- A file of JSON lines fails because of a line that is not JSON or, if there is none, because of
one that is not an object. -/
theorem readDocuments_jsonLines_eq_error_iff {error : InputError} :
    readDocuments (.file name) content = .error error ↔
      (∃ index, FirstMalformedLine content index ∧
        error = .jsonLine name (index + 1) "the line is not valid JSON") ∨
      (∀ line ∈ writtenLines content, ∃ value, LineSpells line value) ∧
        ∃ index, FirstNonObject content index ∧ error = .notAMapping name index := by
  rw [readDocuments_eq_error_iff, readItems_jsonLines hname, readJsonLines_eq_error_iff,
    ← exists_forall₂_iff]
  simp only [readJsonLines_eq_ok_iff]
  refine or_congr_right ?_
  constructor
  · rintro ⟨items, hitems, index, item, hfirst, herror⟩
    exact ⟨⟨items, hitems⟩, index, (firstNonObject_iff hitems).mpr ⟨item, hfirst⟩, herror⟩
  · rintro ⟨⟨items, hitems⟩, index, hfirst, herror⟩
    obtain ⟨item, hitem⟩ := (firstNonObject_iff hitems).mp hfirst
    exact ⟨items, hitems, index, item, hitem, herror⟩

end Files

/-- A file of JSON lines holds one document for every line that is not blank, in order, if all of
these lines are objects. Otherwise the error is the first line that is not JSON, counted from one
among all lines, even if a value before it is not an object; if all these lines are JSON, it is the
first one that is not an object, counted from zero among them. -/
theorem readDocuments_jsonLines {name : String} (hname : InputFormat.ofName name = .jsonLines)
    (content : String) :
    ((∃ documents, readDocuments (.file name) content = .ok documents) ↔
      ∀ line ∈ Text.lines content.toList, isWritten line = true →
        ∃ members, LineSpells line (.object members)) ∧
    (∀ documents, readDocuments (.file name) content = .ok documents ↔
      List.Forall₂ (fun line document => LineSpells line document.data) (writtenLines content)
        documents) ∧
    ∀ error, readDocuments (.file name) content = .error error ↔
      (∃ index, FirstMalformedLine content index ∧
        error = .jsonLine name (index + 1) "the line is not valid JSON") ∨
      (∀ line ∈ writtenLines content, ∃ value, LineSpells line value) ∧
        ∃ index, FirstNonObject content index ∧ error = .notAMapping name index :=
  ⟨exists_readDocuments_jsonLines_iff hname content,
    fun _ => readDocuments_jsonLines_eq_ok_iff hname content,
    fun _ => readDocuments_jsonLines_eq_error_iff hname content⟩

/-- Lines of an object, of blanks, of a number and of what is not JSON. -/
def brokenLines : String :=
  "\x7b\"age\": 5\x7d\r\n \n7\n\x7boops\x7d\n"

/-- The first three of these lines. -/
def strayLines : String :=
  "\x7b\"age\": 5\x7d\r\n \n7\n"

/-- Of the broken lines the fourth is the error, although the third is no object; without it the
error is the second value. -/
theorem readDocuments_brokenLines :
    InputFormat.ofName "animals.jsonl" = .jsonLines ∧
    readDocuments (.file "animals.jsonl") brokenLines =
      .error (.jsonLine "animals.jsonl" 4 "the line is not valid JSON") ∧
    readDocuments (.file "animals.jsonl") strayLines = .error (.notAMapping "animals.jsonl" 1) := by
  have hname : InputFormat.ofName "animals.jsonl" = .jsonLines := by decide +kernel
  have hbroken : FirstMalformedLine brokenLines 3 := by
    have hlines : Text.lines brokenLines.toList =
        ["\x7b\"age\": 5\x7d".toList, " ".toList, "7".toList, "\x7boops\x7d".toList] := by
      decide +kernel
    refine ⟨"\x7boops\x7d".toList, by rw [hlines]; rfl, ?_, ?_⟩
    · intro h
      exact absurd (exists_lineSpells_iff.mp (h (by decide))) (by decide +kernel)
    · intro j hj line hline
      rw [hlines] at hline
      obtain rfl | rfl | rfl : j = 0 ∨ j = 1 ∨ j = 2 := by omega
      · cases hline
        exact fun _ => exists_lineSpells_iff.mpr (by decide +kernel)
      · cases hline
        exact fun h => absurd h (by decide)
      · cases hline
        exact fun _ => exists_lineSpells_iff.mpr (by decide +kernel)
  have hstray : writtenLines strayLines = ["\x7b\"age\": 5\x7d".toList, "7".toList] := by
    decide +kernel
  have hobject : ∃ members, LineSpells "\x7b\"age\": 5\x7d".toList (.object members) := by
    refine ⟨[("age", .nat 5)], ?_⟩
    rw [LineSpells]
    decide +kernel
  have hnumber : FirstNonObject strayLines 1 := by
    refine ⟨"7".toList, by rw [hstray]; rfl, ?_, ?_⟩
    · rintro ⟨members, hmembers⟩
      have hseven : Json.readNormal? (String.ofList "7".toList) = some (.nat 7) := by
        decide +kernel
      rw [LineSpells, hseven] at hmembers
      cases hmembers
    · intro j hj line hline
      obtain rfl : j = 0 := by omega
      rw [hstray] at hline
      cases hline
      exact hobject
  refine ⟨hname, ((readDocuments_jsonLines hname brokenLines).2.2 _).mpr (.inl ⟨3, hbroken, rfl⟩),
    ((readDocuments_jsonLines hname strayLines).2.2 _).mpr (.inr ⟨?_, 1, hnumber, rfl⟩)⟩
  rw [hstray, List.forall_mem_cons, List.forall_mem_singleton]
  exact ⟨exists_lineSpells_iff.mpr (by decide +kernel),
    exists_lineSpells_iff.mpr (by decide +kernel)⟩

end Rollup
