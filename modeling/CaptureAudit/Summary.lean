import CaptureAudit.Analysis

/-! # Totals over many grammars

A summary is a fold over the results of the files. A file with an error counts as analysed and
contributes nothing else, whatever its result holds.
-/
namespace CaptureAudit

structure FlaggedFile where
  name : String
  result : FileResult

structure FailedFile where
  name : String
  error : String
  deriving DecidableEq, Repr

structure Summary where
  filesAnalyzed : Nat
  totalCaptures : Nat
  totalViolations : Nat
  numericKeys : NumericKeys
  specialKeys : SpecialKeys
  filesWithViolations : List FlaggedFile
  failedFiles : List FailedFile

namespace Summary

def empty : Summary := ⟨0, 0, 0, ∅, ∅, [], []⟩

instance : EmptyCollection Summary := ⟨empty⟩

def recordFailed (summary : Summary) (name error : String) : Summary :=
  { summary with
    filesAnalyzed := summary.filesAnalyzed + 1
    failedFiles := summary.failedFiles ++ [⟨name, error⟩] }

def recordRead (summary : Summary) (name : String) (result : FileResult) : Summary :=
  { filesAnalyzed := summary.filesAnalyzed + 1
    totalCaptures := summary.totalCaptures + result.capturesFound
    totalViolations := summary.totalViolations + result.violations.length
    numericKeys := summary.numericKeys.insertMany result.numericKeys.toList
    specialKeys := summary.specialKeys.insertMany result.specialKeys.toList
    filesWithViolations :=
      if result.hasViolations then summary.filesWithViolations ++ [⟨name, result⟩]
      else summary.filesWithViolations
    failedFiles := summary.failedFiles }

def record (summary : Summary) (name : String) (result : FileResult) : Summary :=
  match result.error with
  | some error => summary.recordFailed name error
  | none => summary.recordRead name result

def passed (summary : Summary) : Bool := summary.totalViolations == 0

def exitCode (summary : Summary) : Nat := if summary.passed then 0 else 1

def numericRange (summary : Summary) : Option (NumericKey × NumericKey) :=
  match summary.numericKeys.min?, summary.numericKeys.max? with
  | some least, some greatest => some (least, greatest)
  | _, _ => none

end Summary

end CaptureAudit
