import Rollup.Proofs.Documents.JsonLines
import Rollup.Proofs.Json.Opening
import Rollup.Proofs.Text.Lines

/-!
# Documents from standard input

Standard input is read as a JSON array and, if it is none, as JSON lines. No text is both: that of
an array has a line whose first character is an opening bracket, and such a line is no object. So it
never matters that the array comes first, and standard input holds the documents that a file of
either format would hold.
-/

namespace Rollup

variable {name content : String}

/-- A text is read as an array if it spells one. -/
theorem readJsonArray_eq_ok_iff {items : List Value} :
    readJsonArray name content = .ok items ↔ Json.readNormal? content = some (.array items) := by
  rw [readJsonArray]
  cases Json.readNormal? content with
  | none => simp
  | some value => cases value <;> simp [sequenceItems]

/-- The items of standard input are those of an array or else those of JSON lines. -/
theorem readItems_standardInput_eq_ok_iff {items : List Value} :
    readItems .standardInput content = .ok items ↔
      readJsonArray Source.standardInput.name content = .ok items ∨
        (∀ others, readJsonArray Source.standardInput.name content ≠ .ok others) ∧
          readJsonLines Source.standardInput.name content = .ok items := by
  rw [readItems]
  cases readJsonArray Source.standardInput.name content with
  | ok others => simp
  | error error =>
    cases readJsonLines Source.standardInput.name content with
    | ok others =>
      change Except.ok others = _ ↔ _
      simp
    | error cause =>
      change Except.error error = _ ↔ _
      simp

/-- Where both readings fail, the error is that of the array. -/
theorem readItems_standardInput_eq_error {error cause : InputError}
    (harray : readJsonArray Source.standardInput.name content = .error error)
    (hlines : readJsonLines Source.standardInput.name content = .error cause) :
    readItems .standardInput content = .error error := by
  rw [readItems, harray]
  dsimp only
  rw [hlines]
  rfl

section Lines

/-- A line that opens an array is not blank. -/
theorem isWritten_of_opensArray {line : List Char} (h : Json.OpensArray line) :
    isWritten line = true := by
  have hbracket : '[' ∈ line := List.mem_of_find?_eq_some h
  have hblank : Text.isBlank '[' = false := by decide
  rw [isWritten, Bool.not_eq_true', List.all_eq_false]
  exact ⟨'[', hbracket, by simp [hblank]⟩

/-- A line that opens an array is no object. -/
theorem LineSpells.not_opensArray {line : List Char} {members : List (String × Value)}
    (h : LineSpells line (.object members)) : ¬Json.OpensArray line := by
  intro hopens
  rw [← String.toList_ofList (l := line), ← Json.isArray_iff_opensArray h] at hopens
  cases hopens

/-- Not every written line of a text that spells an array is an object. -/
theorem not_forall_object_of_array {items : List Value}
    (h : Json.readNormal? content = some (.array items)) :
    ¬∀ line ∈ Text.lines content.toList, isWritten line = true →
      ∃ members, LineSpells line (.object members) := by
  intro hobjects
  have hopens : Json.OpensArray content.toList := (Json.isArray_iff_opensArray h).mp rfl
  obtain ⟨line, hline, hopens⟩ := Text.exists_line_of_find? (by decide) (by decide) hopens
  obtain ⟨members, hspells⟩ := hobjects line hline (isWritten_of_opensArray hopens)
  exact hspells.not_opensArray hopens

end Lines

section Files

variable {jsonName linesName : String} {documents : List Document}

/-- A file of JSON holds the documents of an array. -/
theorem readDocuments_json_eq_ok_iff (hjson : InputFormat.ofName jsonName = .json) :
    readDocuments (.file jsonName) content = .ok documents ↔
      Json.readNormal? content = some (.array (documents.map Document.data)) := by
  rw [readDocuments_eq_ok_iff, readItems, hjson, readJsonArray_eq_ok_iff]

/-- No text is a file of both formats. -/
theorem not_readDocuments_both (hjson : InputFormat.ofName jsonName = .json)
    (hlines : InputFormat.ofName linesName = .jsonLines) {others : List Document}
    (h : readDocuments (.file jsonName) content = .ok documents) :
    readDocuments (.file linesName) content ≠ .ok others := by
  intro hothers
  exact not_forall_object_of_array ((readDocuments_json_eq_ok_iff hjson).mp h)
    ((exists_readDocuments_jsonLines_iff hlines content).mp ⟨others, hothers⟩)

/-- Standard input holds the documents that a file of one of the formats would hold. -/
theorem readDocuments_standardInput_eq_ok_iff (hjson : InputFormat.ofName jsonName = .json)
    (hlines : InputFormat.ofName linesName = .jsonLines) :
    readDocuments .standardInput content = .ok documents ↔
      readDocuments (.file jsonName) content = .ok documents ∨
        readDocuments (.file linesName) content = .ok documents := by
  rw [readDocuments_eq_ok_iff, readItems_standardInput_eq_ok_iff,
    readDocuments_json_eq_ok_iff hjson, readDocuments_jsonLines_eq_ok_iff hlines,
    readJsonLines_eq_ok_iff, List.forall₂_map_right_iff, readJsonArray_eq_ok_iff]
  refine or_congr_right ⟨And.right, fun hobjects => ⟨?_, hobjects⟩⟩
  intro others harray
  refine not_forall_object_of_array (readJsonArray_eq_ok_iff.mp harray)
    ((exists_readDocuments_jsonLines_iff hlines content).mp ⟨documents, ?_⟩)
  exact (readDocuments_jsonLines_eq_ok_iff hlines content).mpr hobjects

end Files

/-- Standard input holds the documents that a file of JSON or of JSON lines would hold. A text is
never a file of both, and if it can be read neither as an array nor as lines, the error is that of
the array. -/
theorem readDocuments_standardInput {jsonName linesName : String}
    (hjson : InputFormat.ofName jsonName = .json)
    (hlines : InputFormat.ofName linesName = .jsonLines) (content : String) :
    (∀ documents, readDocuments .standardInput content = .ok documents ↔
      readDocuments (.file jsonName) content = .ok documents ∨
        readDocuments (.file linesName) content = .ok documents) ∧
    (∀ documents others, readDocuments (.file jsonName) content = .ok documents →
      readDocuments (.file linesName) content ≠ .ok others) ∧
    ∀ error cause, readJsonArray Source.standardInput.name content = .error error →
      readJsonLines Source.standardInput.name content = .error cause →
        readDocuments .standardInput content = .error error :=
  ⟨fun _ => readDocuments_standardInput_eq_ok_iff hjson hlines,
    fun _ _ => not_readDocuments_both hjson hlines,
    fun _ _ harray hcause =>
      readDocuments_eq_error_iff.mpr (.inl (readItems_standardInput_eq_error harray hcause))⟩

/-- Lines of two objects. -/
def animalLines : String :=
  "\x7b\"age\": 5\x7d\n\x7b\"age\": 7\x7d\n"

/-- Standard input takes the two objects as lines. An array that does not end is neither, and the
error is not that of its line. -/
theorem readDocuments_standardInput_animalLines :
    InputFormat.ofName "animals.json" = .json ∧ InputFormat.ofName "animals.jsonl" = .jsonLines ∧
    readDocuments .standardInput animalLines =
      .ok [⟨[("age", .nat 5)]⟩, ⟨[("age", .nat 7)]⟩] ∧
    readDocuments .standardInput "[7" = .error (.json "-" "the text is not valid JSON") := by
  have hjson : InputFormat.ofName "animals.json" = .json := by decide +kernel
  have hlines : InputFormat.ofName "animals.jsonl" = .jsonLines := by decide +kernel
  have hanimals : readDocuments (.file "animals.jsonl") animalLines =
      .ok [⟨[("age", .nat 5)]⟩, ⟨[("age", .nat 7)]⟩] := by
    have hwritten : writtenLines animalLines =
        ["\x7b\"age\": 5\x7d".toList, "\x7b\"age\": 7\x7d".toList] := by decide +kernel
    rw [readDocuments_jsonLines_eq_ok_iff hlines, hwritten]
    refine .cons ?_ (.cons ?_ .nil) <;> rw [LineSpells] <;> decide +kernel
  have hnone : Json.readNormal? "[7" = none := by decide +kernel
  have harray : readJsonArray Source.standardInput.name "[7" =
      .error (.json "-" "the text is not valid JSON") := by
    rw [readJsonArray, hnone]
    rfl
  have hline : FirstMalformedLine "[7" 0 := by
    have hwhole : Text.lines "[7".toList = ["[7".toList] := by decide +kernel
    refine ⟨"[7".toList, by rw [hwhole]; rfl, ?_, fun j hj => absurd hj (Nat.not_lt_zero j)⟩
    intro h
    exact absurd (exists_lineSpells_iff.mp (h (by decide))) (by simp [hnone])
  exact ⟨hjson, hlines,
    ((readDocuments_standardInput hjson hlines animalLines).1 _).mpr (.inr hanimals),
    (readDocuments_standardInput hjson hlines "[7").2.2 _ _ harray
      (readJsonLines_eq_error_iff.mpr ⟨0, hline, rfl⟩)⟩

end Rollup
