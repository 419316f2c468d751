import CaptureAudit.Summary

/-! # The report for machines

The whole summary as one tree of records, lists and scalars. The formats that print it decide
nothing about its content.
-/
namespace CaptureAudit.Report

inductive Tree where
  | flag (value : Bool)
  | count (value : Nat)
  | text (value : String)
  | list (items : List Tree)
  | record (fields : List (String × Tree))
  deriving Repr

namespace Tree

def texts (values : List String) : Tree := list (values.map text)

def ofViolation (violation : Violation) : Tree :=
  record
    [ ("location", text violation.location),
      ("invalid_key", text violation.invalidKey),
      ("all_keys", texts violation.allKeys) ]

def ofResult (result : FileResult) : Tree :=
  record <|
    [ ("captures_found", count result.capturesFound),
      ("numeric_keys", texts (result.numericKeys.toList.map NumericKey.text)),
      ("special_keys", texts result.specialKeys.toList),
      ("violations", list (result.violations.map ofViolation)) ] ++
    match result.error with
    | some error => [("error", text error)]
    | none => []

def ofFlaggedFile (flagged : FlaggedFile) : Tree :=
  record [("name", text flagged.name), ("result", ofResult flagged.result)]

def ofFailedFile (failed : FailedFile) : Tree :=
  record [("name", text failed.name), ("error", text failed.error)]

def summaryFields (summary : Summary) : List (String × Tree) :=
  [ ("files_analyzed", count summary.filesAnalyzed),
    ("total_captures", count summary.totalCaptures),
    ("total_violations", count summary.totalViolations),
    ("numeric_keys", texts (summary.numericKeys.toList.map NumericKey.text)),
    ("special_keys", texts summary.specialKeys.toList),
    ("files_with_violations", list (summary.filesWithViolations.map ofFlaggedFile)),
    ("failed_files", list (summary.failedFiles.map ofFailedFile)) ]

def rangeFields (summary : Summary) : List (String × Tree) :=
  match summary.numericRange with
  | some (least, greatest) => [("numeric_range", texts [least.normalized, greatest.normalized])]
  | none => []

def ofSummary (directory : String) (summary : Summary) : Tree :=
  record <|
    [("grammar_dir", text directory), ("passed", flag summary.passed)] ++
      rangeFields summary ++ summaryFields summary

end Tree

end CaptureAudit.Report
