import CaptureAudit.Analysis
import CaptureAudit.Proofs.Capture.Reordering

/-! # An analysis does not depend on the order of members

Every key stands in the same capture object, wherever its members are written. Sets and counts are
therefore the same, and the log and the violations have the same entries. -/
namespace CaptureAudit

variable {v w : Document}

structure Occurrence.SameKey (occurrence other : Occurrence) : Prop where
  capture : occurrence.capture.SameKeys other.capture
  key : occurrence.key = other.key

theorem occurrences_matched {capture other : CaptureObject} (h : capture.SameKeys other) :
    Matched Occurrence.SameKey capture.occurrences other.occurrences := by
  refine ⟨capture.keys.map (⟨other, ·⟩), ?_, h.keys.map _⟩
  rw [CaptureObject.occurrences, List.forall₂_map_left_iff, List.forall₂_map_right_iff,
    List.forall₂_same]
  intro key _
  exact ⟨h, rfl⟩

theorem Document.Reordered.occurrences (h : Reordered v w) (hv : v.DistinctNames) :
    Matched Occurrence.SameKey v.occurrences w.occurrences := by
  have hcaptures := h.captures hv rootLabel
  exact hcaptures.flatMap fun _ _ => occurrences_matched

theorem ofList_perm {α : Type} [Ord α] [Std.TransOrd α] [Std.LawfulEqOrd α] [DecidableEq α]
    {keys others : List α} (h : keys.Perm others) :
    (Std.ExtTreeSet.ofList keys : Std.ExtTreeSet α) = Std.ExtTreeSet.ofList others := by
  apply Std.ExtTreeSet.ext_mem
  intro key
  rw [Std.ExtTreeSet.mem_ofList, Std.ExtTreeSet.mem_ofList, List.contains_iff_mem,
    List.contains_iff_mem, h.mem_iff]

/-- An invalid key at one location, among the same keys in some order. -/
structure Violation.SameKey (violation other : Violation) : Prop where
  location : violation.location = other.location
  invalidKey : violation.invalidKey = other.invalidKey
  allKeys : violation.allKeys.Perm other.allKeys

theorem violation_matched {occurrence other : Occurrence} (h : occurrence.SameKey other) :
    Option.Rel Violation.SameKey occurrence.violation? other.violation? := by
  rw [Occurrence.violation?, Occurrence.violation?, h.key]
  by_cases hclass : classifyKey other.key = .invalid
  · rw [if_pos hclass, if_pos hclass]
    exact .some ⟨h.capture.path, rfl, h.capture.keys⟩
  · rw [if_neg hclass, if_neg hclass]
    exact .none

/-- What two analyses have in common that tell of the same keys. -/
structure Analysis.SameKeys (analysis other : Analysis) : Prop where
  capturesFound : analysis.result.capturesFound = other.result.capturesFound
  numericKeys : analysis.result.numericKeys = other.result.numericKeys
  specialKeys : analysis.result.specialKeys = other.result.specialKeys
  hasViolations : analysis.result.hasViolations = other.result.hasViolations
  error : analysis.result.error = other.result.error
  log : analysis.log.Perm other.log
  violations : ∃ shuffled, shuffled.Perm other.result.violations ∧
    List.Forall₂ Violation.SameKey analysis.result.violations shuffled

/-- Two documents that differ only in the order of members have the same capture objects, the same
keys and the same verdict. Log records and violations come in another order, and the keys beside a
violation are listed in another order. -/
theorem member_order_immaterial (hv : v.DistinctNames) (h : v.Reordered w) (source : String) :
    (Analysis.ofDocument source v).SameKeys (Analysis.ofDocument source w) := by
  have hmet := h.occurrences hv
  have hviolations : Matched Violation.SameKey
      (Analysis.ofDocument source v).result.violations
      (Analysis.ofDocument source w).result.violations :=
    hmet.filterMap fun _ _ => violation_matched
  have hnumeric : (v.occurrences.filterMap Occurrence.numericKey?).Perm
      (w.occurrences.filterMap Occurrence.numericKey?) := by
    apply hmet.filterMap_perm
    intro a b hab
    rw [Occurrence.numericKey?, Occurrence.numericKey?, hab.key]
  have hspecial : (v.occurrences.filterMap Occurrence.specialKey?).Perm
      (w.occurrences.filterMap Occurrence.specialKey?) := by
    apply hmet.filterMap_perm
    intro a b hab
    rw [Occurrence.specialKey?, Occurrence.specialKey?, hab.key]
  constructor
  · exact (h.captures hv rootLabel).length_eq
  · exact ofList_perm hnumeric
  · exact ofList_perm hspecial
  · have hempty : (Analysis.ofDocument source v).result.violations = [] ↔
        (Analysis.ofDocument source w).result.violations = [] := by
      rw [← List.length_eq_zero_iff, hviolations.length_eq, List.length_eq_zero_iff]
    rw [Bool.eq_iff_iff]
    simp [FileResult.hasViolations, hempty]
  · rfl
  · exact hspecial.map (specialKeyRecord source)
  · obtain ⟨shuffled, hpairs, hperm⟩ := hviolations
    exact ⟨shuffled, hperm, hpairs⟩

def capturesFirst : Document :=
  .object [("captures", .object [("x", .null), ("comment", .null)]),
    ("patterns", .array [.object [("captures", .object [("1", .null), ("y", .null)])]])]

def patternsFirst : Document :=
  .object [("patterns", .array [.object [("captures", .object [("y", .null), ("1", .null)])]]),
    ("captures", .object [("x", .null), ("comment", .null)])]

theorem rule_order_immaterial : capturesFirst.DistinctNames ∧
    capturesFirst.Reordered patternsFirst ∧
    (Analysis.ofDocument "a.json" capturesFirst).SameKeys
      (Analysis.ofDocument "a.json" patternsFirst) := by
  have hscalar : Document.null.DistinctNames := .scalar rfl
  have hsame : Document.null.Reordered .null := .scalar rfl
  have hdistinct : capturesFirst.DistinctNames := by
    simp [capturesFirst, Document.distinct_object, Document.distinct_array, hscalar]
  have hkeys : (Document.object [("1", .null), ("y", .null)]).Reordered
      (.object [("y", .null), ("1", .null)]) :=
    .object (.swap _ _ _) rfl (.cons hsame (.cons hsame .nil))
  have hpatterns : (Document.array
        [.object [("captures", .object [("1", .null), ("y", .null)])]]).Reordered
      (.array [.object [("captures", .object [("y", .null), ("1", .null)])]]) :=
    .array (.cons (.object (.refl _) rfl (.cons hkeys .nil)) .nil)
  have hcaptures : (Document.object [("x", .null), ("comment", .null)]).Reordered
      (.object [("x", .null), ("comment", .null)]) :=
    .object (.refl _) rfl (.cons hsame (.cons hsame .nil))
  have hreordered : capturesFirst.Reordered patternsFirst :=
    .object (.swap _ _ _) rfl (.cons hpatterns (.cons hcaptures .nil))
  exact ⟨hdistinct, hreordered, member_order_immaterial hdistinct hreordered "a.json"⟩

end CaptureAudit
