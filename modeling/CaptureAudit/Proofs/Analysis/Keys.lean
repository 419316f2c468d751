import CaptureAudit.Analysis
import Mathlib.Data.List.Basic

/-! # The keys that an analysis sorts out

Each class of keys, and what an analysis makes of the keys of one capture object: which of them it
collects, logs or reports, and in which order. -/
namespace CaptureAudit

def AllowedKey (key : String) : Prop :=
  (key ≠ "" ∧ ∀ c ∈ key.toList, c.isDigit = true) ∨ key = "comment" ∨ key = "//"

theorem annotation_iff (key : String) :
    annotationKeys.contains key = true ↔ key = "comment" ∨ key = "//" := by
  simp [annotationKeys]

theorem numeric_iff (key : String) : classifyKey key = .numeric ↔ isGroupIndex key = true := by
  rw [classifyKey]
  split
  · rename_i hindex
    exact iff_of_true rfl hindex
  · rename_i hindex
    refine iff_of_false ?_ hindex
    split <;> simp

theorem special_iff (key : String) :
    classifyKey key = .special ↔ key = "comment" ∨ key = "//" := by
  constructor
  · intro h
    rw [classifyKey] at h
    split at h
    · cases h
    · split at h
      · rename_i hkey
        exact (annotation_iff key).mp hkey
      · cases h
  · rintro (rfl | rfl) <;> decide

theorem allowed_iff (key : String) : classifyKey key ≠ .invalid ↔ AllowedKey key := by
  rw [AllowedKey, ← isGroupIndex_iff, ← annotation_iff, classifyKey]
  by_cases hi : isGroupIndex key = true
  · simp [hi]
  · by_cases ha : annotationKeys.contains key = true <;> simp only [hi, ha] <;> decide

instance : DecidablePred AllowedKey := fun key =>
  decidable_of_iff (classifyKey key ≠ .invalid) (allowed_iff key)

def Document.KeysAllowed (document : Document) : Prop :=
  ∀ capture ∈ document.captureObjects "root", ∀ key ∈ capture.members.map Prod.fst, AllowedKey key

/-- One record for each annotation key of each capture object, in the order of the walk. -/
def annotationRecords (path : String) (document : Document) : List LogRecord :=
  (document.captureObjects "root").flatMap fun capture =>
    ((capture.members.map Prod.fst).filter fun key => key = "comment" ∨ key = "//").map fun key =>
      ⟨.info, .analysis, "Special capture key '" ++ key ++ "' in " ++ path⟩

def CaptureObject.violations (capture : CaptureObject) : List Violation :=
  ((capture.members.map Prod.fst).filter (¬AllowedKey ·)).map fun key =>
    ⟨capture.path, key, capture.members.map Prod.fst⟩

theorem specialKeys_eq (capture : CaptureObject) :
    capture.occurrences.filterMap Occurrence.specialKey? =
      (capture.members.map Prod.fst).filter fun key => key = "comment" ∨ key = "//" := by
  rw [CaptureObject.occurrences, CaptureObject.keys, List.filterMap_map, ← List.filterMap_eq_filter]
  apply List.filterMap_congr
  intro key _
  simp only [Function.comp_apply, Occurrence.specialKey?, special_iff, Option.guard,
    decide_eq_true_eq]

theorem violations_eq (capture : CaptureObject) :
    capture.occurrences.filterMap Occurrence.violation? = capture.violations := by
  have hinvalid (key : String) : classifyKey key = .invalid ↔ ¬AllowedKey key := by
    rw [← allowed_iff, Classical.not_not]
  have hkeys : capture.members.map Prod.fst = capture.keys := rfl
  rw [CaptureObject.occurrences, List.filterMap_map, CaptureObject.violations, hkeys,
    ← List.filterMap_eq_map, ← List.filterMap_eq_filter, List.filterMap_filterMap]
  apply List.filterMap_congr
  intro key _
  simp only [Function.comp_apply, Occurrence.violation?, hinvalid, Option.guard,
    decide_eq_true_eq]
  split <;> rfl

theorem log_ofDocument (path : String) (document : Document) :
    (Analysis.ofDocument path document).log = annotationRecords path document := by
  change (document.occurrences.filterMap Occurrence.specialKey?).map (specialKeyRecord path) = _
  rw [annotationRecords, Document.occurrences, List.filterMap_flatMap, List.map_flatMap]
  apply List.flatMap_congr
  intro capture _
  rw [specialKeys_eq]
  rfl

theorem violations_ofDocument (source : String) (document : Document) :
    (Analysis.ofDocument source document).result.violations =
      (document.captureObjects "root").flatMap CaptureObject.violations := by
  change document.occurrences.filterMap Occurrence.violation? = _
  rw [Document.occurrences, List.filterMap_flatMap]
  exact List.flatMap_congr fun capture _ => violations_eq capture

theorem no_violations_iff (source : String) (document : Document) :
    (Analysis.ofDocument source document).result.violations = [] ↔ document.KeysAllowed := by
  rw [violations_ofDocument, List.flatMap_eq_nil_iff]
  refine forall₂_congr fun capture _ => ?_
  rw [CaptureObject.violations, List.map_eq_nil_iff, List.filter_eq_nil_iff]
  simp

end CaptureAudit
