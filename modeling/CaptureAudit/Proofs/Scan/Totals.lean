import CaptureAudit.Proofs.Analysis.Keys
import CaptureAudit.Scan

/-! # What the totals say

A file is clean if all keys in its document are allowed; one that is not read has no keys. The
totals over some files pass if and only if each of them is clean. -/
namespace CaptureAudit

/-- If the file is read and holds a document, all its keys are allowed. -/
def GrammarFile.Clean (file : GrammarFile) : Prop :=
  ∀ text document, file.content = .ok text → Json.read text = .ok document → document.KeysAllowed

theorem clean_iff (file : GrammarFile) : file.Clean ↔
    (file.analyze.result.error = none → file.analyze.result.violations = []) := by
  rw [GrammarFile.Clean, GrammarFile.analyze]
  cases hc : file.content with
  | error error => simp [Analysis.ofFailure, FileResult.failed]
  | ok text =>
    simp only [Analysis.ofText, Except.ok.injEq]
    cases hr : Json.read text with
    | error fault =>
      refine iff_of_true ?_ (by simp [Analysis.ofFailure, FileResult.failed])
      rintro _ document rfl hf
      rw [hr] at hf
      cases hf
    | ok document =>
      have herror : (Analysis.ofDocument file.path document).result.error = none := rfl
      simp only [herror, no_violations_iff, true_imp_iff]
      constructor
      · intro h
        exact h text document rfl hr
      · rintro h _ found rfl hf
        rw [hr] at hf
        cases hf
        exact h

namespace Summary

def ofFiles (summary : Summary) (files : List GrammarFile) : Summary :=
  files.foldl (fun summary file => summary.record file.name file.analyze.result) summary

theorem no_violations_record (summary : Summary) (name : String) (result : FileResult) :
    (summary.record name result).totalViolations = 0 ↔
      summary.totalViolations = 0 ∧ (result.error = none → result.violations = []) := by
  rw [record]
  cases he : result.error with
  | none => simp [recordRead]
  | some error => simp [recordFailed]

/-- The totals pass if and only if they started so and each file is clean. -/
theorem no_violations_ofFiles (summary : Summary) (files : List GrammarFile) :
    (summary.ofFiles files).totalViolations = 0 ↔
      summary.totalViolations = 0 ∧ ∀ file ∈ files, file.Clean := by
  induction files generalizing summary with
  | nil => simp [ofFiles]
  | cons file rest ih =>
    rw [ofFiles, List.foldl_cons]
    refine (ih (summary.record file.name file.analyze.result)).trans ?_
    rw [no_violations_record, ← clean_iff, List.forall_mem_cons, and_assoc]

end Summary

end CaptureAudit
