import CaptureAudit.Proofs.Json.RoundTrip

/-! # The JSON report is recovered

Reading the JSON report gives every field of the summary back, unchanged and in order. The
document is spelled out here field by field, without the tree that is printed. -/
namespace CaptureAudit

open Report

/-- Counts that a 64-bit counter can hold. -/
structure Summary.Within64Bits (summary : Summary) : Prop where
  files : summary.filesAnalyzed < 2 ^ 64
  captures : summary.totalCaptures < 2 ^ 64
  violations : summary.totalViolations < 2 ^ 64
  flagged : ∀ file ∈ summary.filesWithViolations, file.result.capturesFound < 2 ^ 64

namespace Document

def strings (values : List String) : Document := array (values.map string)

def ofViolation (violation : Violation) : Document :=
  object
    [ ("location", string violation.location),
      ("invalid_key", string violation.invalidKey),
      ("all_keys", strings violation.allKeys) ]

def ofResult (result : FileResult) : Document :=
  object <|
    [ ("captures_found", integer result.capturesFound),
      ("numeric_keys", strings (result.numericKeys.toList.map NumericKey.text)),
      ("special_keys", strings result.specialKeys.toList),
      ("violations", array (result.violations.map ofViolation)) ] ++
    result.error.toList.map fun error => ("error", string error)

def ofFlaggedFile (file : FlaggedFile) : Document :=
  object [("name", string file.name), ("result", ofResult file.result)]

def ofFailedFile (file : FailedFile) : Document :=
  object [("name", string file.name), ("error", string file.error)]

def rangeMembers (summary : Summary) : Members :=
  match summary.numericKeys.toList with
  | [] => []
  | least :: others =>
    [("numeric_range", strings [least.normalized, (others.getLastD least).normalized])]

def ofReport (directory : String) (summary : Summary) : Document :=
  object <|
    [("grammar_dir", string directory), ("passed", bool (summary.totalViolations == 0))] ++
    rangeMembers summary ++
    [ ("files_analyzed", integer summary.filesAnalyzed),
      ("total_captures", integer summary.totalCaptures),
      ("total_violations", integer summary.totalViolations),
      ("numeric_keys", strings (summary.numericKeys.toList.map NumericKey.text)),
      ("special_keys", strings summary.specialKeys.toList),
      ("files_with_violations", array (summary.filesWithViolations.map ofFlaggedFile)),
      ("failed_files", array (summary.failedFiles.map ofFailedFile)) ]

end Document

namespace Report.Tree

theorem documents_map {α : Type} (values : List α) (tree : α → Tree) :
    documents (values.map tree) = values.map fun value => (tree value).document := by
  rw [documents_eq_map, List.map_map]
  rfl

theorem document_texts (values : List String) :
    (texts values).document = Document.strings values := by
  simp only [texts, document, documents_map, Document.strings]

theorem document_violation (violation : Violation) :
    (ofViolation violation).document = Document.ofViolation violation := by
  simp only [ofViolation, document, members, document_texts, Document.ofViolation]

theorem document_result (result : FileResult) :
    (ofResult result).document = Document.ofResult result := by
  rw [ofResult, Document.ofResult]
  cases result.error <;>
    simp [document, members_eq_map, document_texts, documents_map, document_violation]

theorem document_flagged (file : FlaggedFile) :
    (ofFlaggedFile file).document = Document.ofFlaggedFile file := by
  simp only [ofFlaggedFile, document, members, document_result, Document.ofFlaggedFile]

theorem document_failed (file : FailedFile) :
    (ofFailedFile file).document = Document.ofFailedFile file := by
  simp only [ofFailedFile, document, members, Document.ofFailedFile]

theorem document_range (summary : Summary) :
    members (rangeFields summary) = Document.rangeMembers summary := by
  have hrange : summary.numericRange = summary.numericKeys.toList.head?.bind fun least =>
      summary.numericKeys.toList.getLast?.map fun greatest => (least, greatest) := by
    rw [Summary.numericRange]
    rw [Std.ExtTreeSet.min?_eq_head?_toList, Std.ExtTreeSet.max?_eq_getLast?_toList]
    cases summary.numericKeys.toList.head? <;> cases summary.numericKeys.toList.getLast? <;> rfl
  rw [rangeFields, Document.rangeMembers]
  rw [hrange]
  cases summary.numericKeys.toList with
  | nil => rfl
  | cons least others => simp [List.getLast?_cons, members, document_texts]

theorem document_summary (directory : String) (summary : Summary) :
    (ofSummary directory summary).document = Document.ofReport directory summary := by
  have happend (first second : List (String × Tree)) :
      members (first ++ second) = members first ++ members second := by
    simp [members_eq_map]
  simp only [ofSummary, document, happend, document_range, summaryFields, members, document_texts,
    documents_map, document_flagged, document_failed, Document.ofReport, Summary.passed]

theorem printable_texts (values : List String) : (texts values).Printable := by
  refine .list fun item hi => ?_
  obtain ⟨value, _, rfl⟩ := List.mem_map.mp hi
  exact .text

theorem printable_violation (violation : Violation) : (ofViolation violation).Printable := by
  refine .record (by simp) ?_
  simp [Printable.text, printable_texts]

theorem printable_result {result : FileResult} (h : result.capturesFound < 2 ^ 64) :
    (ofResult result).Printable := by
  have hviolations : (list (result.violations.map ofViolation)).Printable := by
    refine .list fun item hi => ?_
    obtain ⟨violation, _, rfl⟩ := List.mem_map.mp hi
    exact printable_violation violation
  rw [ofResult]
  cases result.error with
  | none =>
    refine .record (by simp) ?_
    simp [printable_texts, hviolations, Printable.count h]
  | some error =>
    refine .record (by simp) ?_
    simp [printable_texts, hviolations, Printable.count h, Printable.text]

theorem printable_flagged {file : FlaggedFile} (h : file.result.capturesFound < 2 ^ 64) :
    (ofFlaggedFile file).Printable := by
  refine .record (by simp) ?_
  simp [Printable.text, printable_result h]

theorem printable_failed (file : FailedFile) : (ofFailedFile file).Printable := by
  refine .record (by simp) ?_
  simp [Printable.text]

theorem printable_summary (directory : String) {summary : Summary} (h : summary.Within64Bits) :
    (ofSummary directory summary).Printable := by
  have hflagged : (list (summary.filesWithViolations.map ofFlaggedFile)).Printable := by
    refine .list fun item hi => ?_
    obtain ⟨file, hf, rfl⟩ := List.mem_map.mp hi
    exact printable_flagged (h.flagged file hf)
  have hfailed : (list (summary.failedFiles.map ofFailedFile)).Printable := by
    refine .list fun item hi => ?_
    obtain ⟨file, _, rfl⟩ := List.mem_map.mp hi
    exact printable_failed file
  rw [ofSummary, rangeFields, summaryFields]
  cases summary.numericRange with
  | none =>
    refine .record (by simp) ?_
    simp [Printable.text, Printable.flag, printable_texts, hflagged, hfailed,
      Printable.count h.files, Printable.count h.captures, Printable.count h.violations]
  | some range =>
    refine .record (by simp) ?_
    simp [Printable.text, Printable.flag, printable_texts, hflagged, hfailed,
      Printable.count h.files, Printable.count h.captures, Printable.count h.violations]

end Report.Tree

/-- The JSON report of any summary is read back as the document that says the same. -/
theorem report_recovered (directory : String) {summary : Summary} (h : summary.Within64Bits) :
    Json.read (Json.print (.ofSummary directory summary)) =
      .ok (.ofReport directory summary) := by
  rw [← Tree.document_summary]
  exact Json.read_print (Tree.printable_summary directory h)

/-- A summary with full counters, escaped characters and an error beside leftovers. -/
def crowdedSummary : Summary where
  filesAnalyzed := 2 ^ 64 - 1
  totalCaptures := 0
  totalViolations := 1
  numericKeys := (∅ : NumericKeys).insert ⟨"007", by decide⟩
  specialKeys := ∅
  filesWithViolations :=
    [⟨"a\".json", ⟨2 ^ 64 - 1, ∅, ∅, [⟨"root\n", "\x00", ["\\", "𝄞"]⟩], some "\t"⟩⟩]
  failedFiles := [⟨"", "\x7f"⟩]

theorem crowded_report_recovered : crowdedSummary.Within64Bits ∧
    Json.read (Json.print (.ofSummary "g/\r" crowdedSummary)) =
      .ok (.ofReport "g/\r" crowdedSummary) := by
  have h : crowdedSummary.Within64Bits := by
    refine ⟨by decide, by decide, by decide, ?_⟩
    simp [crowdedSummary]
  exact ⟨h, report_recovered "g/\r" h⟩

end CaptureAudit
