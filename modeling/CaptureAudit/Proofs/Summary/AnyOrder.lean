import CaptureAudit.Proofs.Summary.Coherence
import CaptureAudit.Report.Text

/-! # Results recorded in any order

Sums, lengths and sets do not depend on the order of what is put in, and the lists have the same
entries. The text of a summary that passes shows no entry of a list, so it is the same text. -/
namespace CaptureAudit.Summary

structure SameTotals (summary other : Summary) : Prop where
  filesAnalyzed : summary.filesAnalyzed = other.filesAnalyzed
  totalCaptures : summary.totalCaptures = other.totalCaptures
  totalViolations : summary.totalViolations = other.totalViolations
  numericKeys : summary.numericKeys = other.numericKeys
  specialKeys : summary.specialKeys = other.specialKeys
  filesWithViolations : summary.filesWithViolations.Perm other.filesWithViolations
  failedFiles : summary.failedFiles.Perm other.failedFiles

section Permuted

variable {results others : List (String × FileResult)} {start final final' : Summary}

theorem Accumulated.same_totals (h : results.Perm others) (ha : Accumulated start results final)
    (hb : Accumulated start others final') : final.SameTotals final' := by
  have hcounted : (withoutError results).Perm (withoutError others) := h.filter _
  constructor
  · rw [ha.files, hb.files, h.length_eq]
  · rw [ha.captures, hb.captures, (hcounted.map (·.2.capturesFound)).sum_eq]
  · rw [ha.violations, hb.violations, (hcounted.map (·.2.violations.length)).sum_eq]
  · apply Std.ExtTreeSet.ext_mem
    intro key
    rw [ha.numeric, hb.numeric]
    simp only [hcounted.mem_iff]
  · apply Std.ExtTreeSet.ext_mem
    intro key
    rw [ha.special, hb.special]
    simp only [hcounted.mem_iff]
  · rw [ha.flagged, hb.flagged]
    exact ((hcounted.filter _).map _).append_left _
  · rw [ha.failures, hb.failures]
    exact (h.filterMap _).append_left _

end Permuted

section Shown

variable {summary other : Summary}

theorem SameTotals.passed_eq (h : summary.SameTotals other) : summary.passed = other.passed := by
  rw [passed, passed, h.totalViolations]

theorem SameTotals.exitCode_eq (h : summary.SameTotals other) :
    summary.exitCode = other.exitCode := by
  rw [exitCode, exitCode, h.passed_eq]

theorem SameTotals.numericRange_eq (h : summary.SameTotals other) :
    summary.numericRange = other.numericRange := by
  rw [numericRange, numericRange, h.numericKeys]

/-- Of the lists, the totals show the lengths alone. -/
theorem SameTotals.totals_eq (h : summary.SameTotals other) :
    Report.totals summary = Report.totals other := by
  rw [Report.totals, Report.totals, h.filesAnalyzed, h.totalCaptures, h.totalViolations,
    h.filesWithViolations.length_eq, h.failedFiles.length_eq, h.failedFiles.isEmpty_eq]

theorem SameTotals.conclusion_eq (h : summary.SameTotals other) (hpassed : summary.passed = true) :
    Report.conclusion summary = Report.conclusion other := by
  have hkeys : Report.keyInventories summary = Report.keyInventories other := by
    rw [Report.keyInventories, Report.keyInventories, h.numericKeys, h.specialKeys]
  have hsuccess : Report.success summary = Report.success other := by
    rw [Report.success, Report.success, h.numericRange_eq]
  have hpassed' : other.passed = true := h.passed_eq ▸ hpassed
  rw [Report.conclusion, Report.conclusion, if_pos hpassed, if_pos hpassed', h.totals_eq, hkeys,
    hsuccess]

end Shown

/-- In whichever order results are recorded, the summary has the same totals, keys, verdict and
range, and lists the same files. If it passes, the report on it is the same text. -/
theorem recording_order_immaterial {results others : List (String × FileResult)}
    (h : results.Perm others) (start : Summary) :
    let first := start.recordAll results
    let second := start.recordAll others
    first.SameTotals second ∧ first.passed = second.passed ∧ first.exitCode = second.exitCode ∧
      first.numericRange = second.numericRange ∧
      (first.passed = true → Report.conclusion first = Report.conclusion second) := by
  intro first second
  have hsame : first.SameTotals second :=
    (accumulated_recordAll start results).same_totals h (accumulated_recordAll start others)
  exact ⟨hsame, hsame.passed_eq, hsame.exitCode_eq, hsame.numericRange_eq, hsame.conclusion_eq⟩

/-- Two spellings of one and a file that was not read, recorded first to last and last to first. -/
theorem spellings_in_any_order :
    let holding (key : NumericKey) : FileResult := ⟨1, Std.ExtTreeSet.ofList [key], ∅, [], none⟩
    let results := [("a.json", holding ⟨"1", by decide⟩), ("b.json", holding ⟨"01", by decide⟩),
      ("c.json", .failed "broken")]
    (Summary.recordAll ∅ results).passed = true ∧
      Report.conclusion (Summary.recordAll ∅ results) =
        Report.conclusion (Summary.recordAll ∅ results.reverse) := by
  intro holding results
  have hpassed : (Summary.recordAll ∅ results).passed = true := rfl
  have hperm : results.Perm results.reverse := (List.reverse_perm results).symm
  exact ⟨hpassed, (recording_order_immaterial hperm ∅).2.2.2.2 hpassed⟩

end CaptureAudit.Summary
