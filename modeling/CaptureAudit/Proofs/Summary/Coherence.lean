import CaptureAudit.Proofs.Summary.Accumulation

/-! # Totals and lists that agree

Recording results adds to each field what they hold, in order; an error keeps all of a result out
but its name and the error. The verdict is read off a counter and the details are read off a list.
In a summary that has only ever been recorded into, they say the same. -/
namespace CaptureAudit.Summary

variable {summary : Summary}

def withoutError (results : List (String × FileResult)) : List (String × FileResult) :=
  results.filter fun named => named.2.error.isNone

theorem withoutError_cons (named : String × FileResult) (rest : List (String × FileResult)) :
    withoutError (named :: rest) =
      if named.2.error.isNone then named :: withoutError rest else withoutError rest :=
  List.filter_cons

/-- What has become of a summary when the results were recorded. -/
structure Accumulated (start : Summary) (results : List (String × FileResult))
    (final : Summary) : Prop where
  files : final.filesAnalyzed = start.filesAnalyzed + results.length
  failures : final.failedFiles = start.failedFiles ++
    results.filterMap fun named => named.2.error.map fun error => ⟨named.1, error⟩
  captures : final.totalCaptures =
    start.totalCaptures + ((withoutError results).map (·.2.capturesFound)).sum
  violations : final.totalViolations =
    start.totalViolations + ((withoutError results).map (·.2.violations.length)).sum
  numeric : ∀ key, key ∈ final.numericKeys ↔
    key ∈ start.numericKeys ∨ ∃ named ∈ withoutError results, key ∈ named.2.numericKeys
  special : ∀ key, key ∈ final.specialKeys ↔
    key ∈ start.specialKeys ∨ ∃ named ∈ withoutError results, key ∈ named.2.specialKeys
  flagged : final.filesWithViolations = start.filesWithViolations ++
    ((withoutError results).filter (·.2.violations ≠ [])).map fun named => ⟨named.1, named.2⟩

/-- Only what counts is added up. -/
theorem sum_withoutError (count : FileResult → Nat) (results : List (String × FileResult)) :
    (results.map fun named => if named.2.isError then 0 else count named.2).sum =
      ((withoutError results).map fun named => count named.2).sum := by
  induction results with
  | nil => rfl
  | cons named rest ih =>
    rw [List.map_cons, List.sum_cons, ih, withoutError_cons, FileResult.isError]
    cases named.2.error with
    | none => rfl
    | some error => exact Nat.zero_add _

theorem flagged_withoutError (results : List (String × FileResult)) :
    results.filterMap flagged? = ((withoutError results).filter (·.2.violations ≠ [])).map
      fun named => ⟨named.1, named.2⟩ := by
  induction results with
  | nil => rfl
  | cons named rest ih =>
    rw [List.filterMap_cons, ih, withoutError_cons, flagged?, FileResult.isError,
      FileResult.hasViolations]
    cases named.2.error with
    | some error => rfl
    | none => cases hv : named.2.violations <;> simp [hv]

/-- What is so as soon as one result brings it about, and stays so. -/
theorem brought_about {holds : Summary → Prop} {part : String × FileResult → Prop}
    (hstep : ∀ summary named, holds (summary.record named.1 named.2) ↔ holds summary ∨ part named)
    (summary : Summary) (results : List (String × FileResult)) :
    holds (summary.recordAll results) ↔ holds summary ∨ ∃ named ∈ results, part named := by
  induction results generalizing summary with
  | nil => simp [recordAll]
  | cons first rest ih =>
    rw [recordAll_cons, ih, hstep, or_assoc]
    simp

/-- A set of keys that takes in the keys of each result without an error. -/
theorem keys_recordAll {α : Type} [Ord α] [Std.TransOrd α] [Std.LawfulEqOrd α] [DecidableEq α]
    {keys : Summary → Std.ExtTreeSet α} {part : FileResult → Std.ExtTreeSet α}
    (hfailed : ∀ summary name error, keys (recordFailed summary name error) = keys summary)
    (hread : ∀ summary name result, keys (recordRead summary name result) =
      (keys summary).insertMany (part result).toList)
    (summary : Summary) (results : List (String × FileResult)) (key : α) :
    key ∈ keys (summary.recordAll results) ↔
      key ∈ keys summary ∨ ∃ named ∈ withoutError results, key ∈ part named.2 := by
  have hstep (summary : Summary) (named : String × FileResult) :
      key ∈ keys (summary.record named.1 named.2) ↔
        key ∈ keys summary ∨ named.2.error = none ∧ key ∈ part named.2 := by
    rw [record]
    cases named.2.error with
    | some error => simp [hfailed]
    | none => simp [hread, Std.ExtTreeSet.mem_insertMany_list]
  have hall := @brought_about (fun summary => key ∈ keys summary)
    (fun named => named.2.error = none ∧ key ∈ part named.2) hstep summary results
  refine hall.trans (or_congr_right ?_)
  simp [withoutError, and_assoc]

theorem accumulated_recordAll (start : Summary) (results : List (String × FileResult)) :
    Accumulated start results (start.recordAll results) where
  files := filesAnalyzed_recordAll start results
  failures := failedFiles_recordAll start results
  captures := (totalCaptures_recordAll start results).trans
    (congrArg (start.totalCaptures + ·) (sum_withoutError FileResult.capturesFound results))
  violations := (totalViolations_recordAll start results).trans
    (congrArg (start.totalViolations + ·) (sum_withoutError (·.violations.length) results))
  numeric := keys_recordAll (fun _ _ _ => rfl) (fun _ _ _ => rfl) start results
  special := keys_recordAll (fun _ _ _ => rfl) (fun _ _ _ => rfl) start results
  flagged := (filesWithViolations_recordAll start results).trans
    (congrArg (start.filesWithViolations ++ ·) (flagged_withoutError results))

/-- A summary that results were recorded into, and nothing else was done to. -/
inductive Recorded : Summary → Prop
  | empty : Recorded ∅
  | record {summary : Summary} (name : String) (result : FileResult) :
      Recorded summary → Recorded (summary.record name result)

/-- The counter of violations and the list of files with violations agree. -/
structure Coherent (summary : Summary) : Prop where
  total : summary.totalViolations =
    (summary.filesWithViolations.map (·.result.violations.length)).sum
  stored : ∀ flagged ∈ summary.filesWithViolations,
    flagged.result.error = none ∧ flagged.result.violations ≠ []

theorem coherent_empty : Coherent ∅ := ⟨rfl, fun _ h => nomatch h⟩

/-- One more result, whatever it holds, leaves them in agreement. -/
theorem Coherent.record (h : summary.Coherent) (name : String) (result : FileResult) :
    (summary.record name result).Coherent := by
  rw [Summary.record]
  cases he : result.error with
  | some error => exact ⟨h.total, h.stored⟩
  | none =>
    rw [recordRead]
    cases hv : result.violations with
    | nil =>
      simp only [FileResult.hasViolations, hv]
      exact ⟨h.total, h.stored⟩
    | cons first rest =>
      simp only [FileResult.hasViolations, hv]
      constructor
      · simp [h.total, hv]
      · intro flagged hf
        rcases List.mem_append.mp hf with hf | hf
        · exact h.stored flagged hf
        · obtain rfl := List.mem_singleton.mp hf
          exact ⟨he, by simp [hv]⟩

theorem Recorded.coherent (h : Recorded summary) : summary.Coherent := by
  induction h with
  | empty => exact coherent_empty
  | record name result _ ih => exact ih.record name result

/-- The verdict can be read off the list. -/
theorem Coherent.passed_iff (h : summary.Coherent) :
    summary.passed = true ↔ summary.filesWithViolations = [] := by
  rw [passed, beq_iff_eq, h.total]
  cases hf : summary.filesWithViolations with
  | nil => exact iff_of_true rfl rfl
  | cons flagged rest =>
    have hstored := (h.stored flagged (hf ▸ List.mem_cons_self)).2
    have hsome := List.length_pos_iff.mpr hstored
    refine iff_of_false ?_ (List.cons_ne_nil _ _)
    rw [List.map_cons, List.sum_cons]
    omega

theorem exitCode_zero_iff (summary : Summary) : summary.exitCode = 0 ↔ summary.passed = true := by
  rw [exitCode]
  cases summary.passed <;> simp

/-- Recording adds what the results without an error hold, and of the others the error alone. So in
a summary that was only recorded into, the counter of violations is the sum over the files that are
listed, none of these has an error or no violations, and the summary passes, with the exit code 0,
exactly if no file is listed. -/
theorem recording_keeps_coherent :
    (∀ start results, Accumulated start results (start.recordAll results)) ∧
    ∀ summary, Recorded summary → summary.Coherent ∧
      (summary.passed = true ↔ summary.filesWithViolations = []) ∧
      (summary.exitCode = 0 ↔ summary.filesWithViolations = []) := by
  constructor
  · exact accumulated_recordAll
  · intro summary h
    have hpassed := h.coherent.passed_iff
    have hcode := (exitCode_zero_iff summary).trans hpassed
    exact ⟨h.coherent, hpassed, hcode⟩

def blemished : Summary :=
  (Summary.record ∅ "a.json" ⟨3, ∅, ∅, [⟨"root.captures", "x", ["x"]⟩], some "broken"⟩).record
    "b.json" ⟨1, ∅, ∅, [⟨"root.captures", "y", ["1", "y"]⟩], none⟩

theorem blemished_coherent : Recorded blemished ∧ blemished.Coherent ∧
    (blemished.passed = true ↔ blemished.filesWithViolations = []) ∧
    (blemished.exitCode = 0 ↔ blemished.filesWithViolations = []) ∧
    blemished.filesWithViolations.length = 1 := by
  have hrecorded : Recorded blemished := .record _ _ (.record _ _ .empty)
  obtain ⟨hcoherent, hpassed, hcode⟩ := recording_keeps_coherent.2 blemished hrecorded
  exact ⟨hrecorded, hcoherent, hpassed, hcode, rfl⟩

end CaptureAudit.Summary
