import CaptureAudit.Summary
import Mathlib.Algebra.BigOperators.Group.List.Basic
import Mathlib.Algebra.GroupWithZero.Nat

/-! # Recording many results

Each field of a summary grows by what one result adds to it, so after many results it has grown by
what all of them add. A result with an error adds its name and the error, and nothing else. -/
namespace CaptureAudit

namespace FileResult

def countedCaptures (result : FileResult) : Nat :=
  if result.isError then 0 else result.capturesFound

def countedViolations (result : FileResult) : Nat :=
  if result.isError then 0 else result.violations.length

end FileResult

namespace Summary

def failure? (named : String × FileResult) : Option FailedFile :=
  named.2.error.map fun error => ⟨named.1, error⟩

def flagged? (named : String × FileResult) : Option FlaggedFile :=
  if named.2.isError then none
  else if named.2.hasViolations then some ⟨named.1, named.2⟩
  else none

def recordAll (summary : Summary) (results : List (String × FileResult)) : Summary :=
  results.foldl (fun summary named => summary.record named.1 named.2) summary

theorem recordAll_cons (summary : Summary) (first : String × FileResult)
    (rest : List (String × FileResult)) : summary.recordAll (first :: rest) =
      (summary.record first.1 first.2).recordAll rest := rfl

theorem count_recordAll {count : Summary → Nat} {part : String × FileResult → Nat}
    (hstep : ∀ summary named, count (summary.record named.1 named.2) = count summary + part named)
    (summary : Summary) (results : List (String × FileResult)) :
    count (summary.recordAll results) = count summary + (results.map part).sum := by
  induction results generalizing summary with
  | nil => rfl
  | cons first rest ih =>
    rw [recordAll_cons, ih, hstep, List.map_cons, List.sum_cons, Nat.add_assoc]

theorem list_recordAll {α : Type} {list : Summary → List α} {part : String × FileResult → Option α}
    (hstep : ∀ summary named,
      list (summary.record named.1 named.2) = list summary ++ (part named).toList)
    (summary : Summary) (results : List (String × FileResult)) :
    list (summary.recordAll results) = list summary ++ results.filterMap part := by
  induction results generalizing summary with
  | nil => exact (List.append_nil _).symm
  | cons first rest ih =>
    rw [recordAll_cons, ih, hstep, List.append_assoc, List.filterMap_cons]
    cases part first <;> rfl

variable (summary : Summary) (results : List (String × FileResult))

theorem filesAnalyzed_recordAll :
    (summary.recordAll results).filesAnalyzed = summary.filesAnalyzed + results.length := by
  have hlength : results.length = (results.map fun _ => 1).sum := by simp
  rw [hlength]
  refine count_recordAll (fun summary named => ?_) summary results
  rw [record]
  cases named.2.error <;> rfl

theorem totalCaptures_recordAll : (summary.recordAll results).totalCaptures =
    summary.totalCaptures + (results.map (·.2.countedCaptures)).sum := by
  refine count_recordAll (fun summary named => ?_) summary results
  rw [record, FileResult.countedCaptures, FileResult.isError]
  cases named.2.error <;> rfl

theorem totalViolations_recordAll : (summary.recordAll results).totalViolations =
    summary.totalViolations + (results.map (·.2.countedViolations)).sum := by
  refine count_recordAll (fun summary named => ?_) summary results
  rw [record, FileResult.countedViolations, FileResult.isError]
  cases named.2.error <;> rfl

theorem failedFiles_recordAll : (summary.recordAll results).failedFiles =
    summary.failedFiles ++ results.filterMap failure? := by
  refine list_recordAll (fun summary named => ?_) summary results
  rw [record, failure?]
  cases named.2.error with
  | none => exact (List.append_nil _).symm
  | some error => rfl

theorem filesWithViolations_recordAll : (summary.recordAll results).filesWithViolations =
    summary.filesWithViolations ++ results.filterMap flagged? := by
  refine list_recordAll (fun summary named => ?_) summary results
  rw [record, flagged?, FileResult.isError]
  cases named.2.error with
  | some error => exact (List.append_nil _).symm
  | none =>
    rw [recordRead]
    cases named.2.hasViolations with
    | false => exact (List.append_nil _).symm
    | true => rfl

end Summary

end CaptureAudit
