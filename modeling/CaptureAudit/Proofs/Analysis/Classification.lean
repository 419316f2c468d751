import CaptureAudit.Proofs.Analysis.Keys
import CaptureAudit.Proofs.Capture.Findings
import Mathlib.Algebra.BigOperators.Group.List.Basic
import Mathlib.Algebra.GroupWithZero.Nat

/-! # Every key is classified once

The keys are met in two nested loops, over the capture objects and over the keys of each. Each key
is put into one of three classes, and adds to a set, to a set and the log, or to the violations.
What has been told after some keys depends on these keys alone, so the loops tell of every key
once. -/
namespace CaptureAudit

namespace Analysis

/-- What has been told when some keys were met in a document with `count` capture objects. -/
def told (source : String) (count : Nat) (met : List Occurrence) : Analysis where
  result :=
    { capturesFound := count
      numericKeys := Std.ExtTreeSet.ofList (met.filterMap Occurrence.numericKey?)
      specialKeys := Std.ExtTreeSet.ofList (met.filterMap Occurrence.specialKey?)
      violations := met.filterMap Occurrence.violation?
      error := none }
  log := (met.filterMap Occurrence.specialKey?).map (specialKeyRecord source)

def meet (source : String) (analysis : Analysis) (capture : CaptureObject) (key : String) :
    Analysis :=
  let result := analysis.result
  match classifyKey key with
  | .numeric =>
    match NumericKey.ofString? key with
    | some numeric =>
      { analysis with result := { result with numericKeys := result.numericKeys.insert numeric } }
    | none => analysis
  | .special =>
    { result := { result with specialKeys := result.specialKeys.insert key }
      log := analysis.log ++ [specialKeyRecord source key] }
  | .invalid =>
    { analysis with result :=
        { result with violations :=
            result.violations ++ [⟨capture.path, key, capture.members.map Prod.fst⟩] } }

def loops (source : String) (captures : List CaptureObject) : Analysis :=
  captures.foldl (fun analysis capture => capture.members.foldl
      (fun analysis member => meet source analysis capture member.1) analysis)
    ⟨⟨captures.length, ∅, ∅, [], none⟩, []⟩

theorem ofList_concat {α : Type} [Ord α] [Std.TransOrd α] [Std.LawfulEqOrd α] [DecidableEq α]
    (keys : List α) (key : α) :
    (Std.ExtTreeSet.ofList (keys ++ [key]) : Std.ExtTreeSet α) =
      (Std.ExtTreeSet.ofList keys).insert key := by
  apply Std.ExtTreeSet.ext_mem
  intro other
  rw [Std.ExtTreeSet.mem_insert, Std.ExtTreeSet.mem_ofList, Std.ExtTreeSet.mem_ofList,
    List.contains_iff_mem, List.contains_iff_mem, List.mem_append, List.mem_singleton,
    Std.compare_eq_iff_eq, or_comm, eq_comm]

section OtherClass

variable (occurrence : Occurrence)

theorem no_numeric (h : classifyKey occurrence.key ≠ .numeric) : occurrence.numericKey? = none :=
  dif_neg ((numeric_iff occurrence.key).not.mp h)

theorem no_special (h : classifyKey occurrence.key ≠ .special) : occurrence.specialKey? = none :=
  if_neg h

theorem no_violation (h : classifyKey occurrence.key ≠ .invalid) : occurrence.violation? = none :=
  if_neg h

end OtherClass

theorem meet_told (source : String) (count : Nat) (met : List Occurrence)
    (occurrence : Occurrence) :
    meet source (told source count met) occurrence.capture occurrence.key =
      told source count (met ++ [occurrence]) := by
  rw [meet]
  cases hclass : classifyKey occurrence.key with
  | numeric =>
    have hindex := (numeric_iff occurrence.key).mp hclass
    have hkey : NumericKey.ofString? occurrence.key = some ⟨occurrence.key, hindex⟩ :=
      dif_pos hindex
    have hnumeric : occurrence.numericKey? = some ⟨occurrence.key, hindex⟩ := hkey
    have hspecial := no_special occurrence (by simp [hclass])
    have hvalid := no_violation occurrence (by simp [hclass])
    simp [told, hkey, hnumeric, hspecial, hvalid, ofList_concat]
  | special =>
    have hnumeric := no_numeric occurrence (by simp [hclass])
    have hspecial : occurrence.specialKey? = some occurrence.key := if_pos hclass
    have hvalid := no_violation occurrence (by simp [hclass])
    simp [told, hnumeric, hspecial, hvalid, ofList_concat]
  | invalid =>
    have hnumeric := no_numeric occurrence (by simp [hclass])
    have hspecial := no_special occurrence (by simp [hclass])
    have hviolation : occurrence.violation? =
        some ⟨occurrence.capture.path, occurrence.key, occurrence.capture.members.map Prod.fst⟩ :=
      if_pos hclass
    simp [told, hnumeric, hspecial, hviolation]

theorem foldl_told (source : String) (count : Nat) (met more : List Occurrence) :
    more.foldl (fun analysis occurrence => meet source analysis occurrence.capture occurrence.key)
      (told source count met) = told source count (met ++ more) := by
  induction more generalizing met with
  | nil => rw [List.append_nil, List.foldl_nil]
  | cons occurrence rest ih =>
    rw [List.foldl_cons, meet_told, ih, List.append_assoc, List.singleton_append]

theorem ofDocument_eq_loops (source : String) (document : Document) :
    ofDocument source document = loops source (document.captureObjects "root") := by
  have hall := foldl_told source (document.captureObjects "root").length [] document.occurrences
  rw [Document.occurrences, List.foldl_flatMap] at hall
  simp only [CaptureObject.occurrences, CaptureObject.keys, List.foldl_map] at hall
  exact hall.symm

end Analysis

/-- What an analysis tells of the keys of some capture objects. -/
structure ClassifiedOnce (source : String) (captures : List CaptureObject) (analysis : Analysis) :
    Prop where
  found : analysis.result.capturesFound = captures.length
  read : analysis.result.error = none
  /-- The keys that are not allowed, with all keys beside them, one capture object after another. -/
  violations : analysis.result.violations = captures.flatMap fun capture =>
    ((capture.members.map Prod.fst).filter (¬AllowedKey ·)).map fun key =>
      ⟨capture.path, key, capture.members.map Prod.fst⟩
  numeric_increasing : analysis.result.numericKeys.toList.Pairwise fun a b => compare a b = .lt
  numeric : ∀ text, text ∈ analysis.result.numericKeys.toList.map NumericKey.text ↔
    (text ≠ "" ∧ ∀ c ∈ text.toList, c.isDigit = true) ∧
      ∃ capture ∈ captures, text ∈ capture.members.map Prod.fst
  special_increasing : analysis.result.specialKeys.toList.Pairwise fun a b => a < b
  special : ∀ key, key ∈ analysis.result.specialKeys.toList ↔
    (key = "comment" ∨ key = "//") ∧
      ∃ capture ∈ captures, key ∈ capture.members.map Prod.fst
  logged : analysis.log = captures.flatMap fun capture =>
    ((capture.members.map Prod.fst).filter fun key => key = "comment" ∨ key = "//").map fun key =>
      ⟨.info, .analysis, "Special capture key '" ++ key ++ "' in " ++ source⟩
  counted : (captures.map (·.members.length)).sum =
    (captures.map (·.members.countP (isGroupIndex ·.1))).sum + analysis.log.length +
      analysis.result.violations.length

section Document

variable (source : String) (document : Document)

theorem mem_occurrences (key : String) :
    (∃ occurrence ∈ document.occurrences, occurrence.key = key) ↔
      ∃ capture ∈ document.captureObjects "root", key ∈ capture.members.map Prod.fst := by
  change _ ↔ ∃ capture ∈ document.captureObjects "root", key ∈ capture.keys
  simp only [Document.occurrences, CaptureObject.occurrences, List.mem_flatMap, List.mem_map]
  constructor
  · rintro ⟨_, ⟨capture, hc, _, hk, rfl⟩, rfl⟩
    exact ⟨capture, hc, hk⟩
  · rintro ⟨capture, hc, hk⟩
    exact ⟨_, ⟨capture, hc, key, hk, rfl⟩, rfl⟩

theorem numeric_told (text : String) :
    text ∈ (Analysis.ofDocument source document).result.numericKeys.toList.map NumericKey.text ↔
      (text ≠ "" ∧ ∀ c ∈ text.toList, c.isDigit = true) ∧
        ∃ capture ∈ document.captureObjects "root", text ∈ capture.members.map Prod.fst := by
  rw [← isGroupIndex_iff, ← mem_occurrences]
  have hmem (key : NumericKey) :
      key ∈ (Analysis.ofDocument source document).result.numericKeys.toList ↔
        ∃ occurrence ∈ document.occurrences, occurrence.numericKey? = some key := by
    simp [Analysis.ofDocument, Std.ExtTreeSet.mem_toList, Std.ExtTreeSet.mem_ofList]
  have hkey (occurrence : Occurrence) (key : NumericKey) :
      occurrence.numericKey? = some key ↔ occurrence.key = key.text := by
    rw [Occurrence.numericKey?, NumericKey.ofString?]
    obtain ⟨text, hindex⟩ := key
    constructor
    · intro h
      split at h <;> simp_all
    · rintro rfl
      rw [dif_pos hindex]
  simp only [List.mem_map, hmem, hkey]
  constructor
  · rintro ⟨key, ⟨occurrence, ho, htext⟩, rfl⟩
    exact ⟨key.isIndex, occurrence, ho, htext⟩
  · rintro ⟨hindex, occurrence, ho, htext⟩
    exact ⟨⟨text, hindex⟩, ⟨occurrence, ho, htext⟩, rfl⟩

theorem special_told (key : String) :
    key ∈ (Analysis.ofDocument source document).result.specialKeys.toList ↔
      (key = "comment" ∨ key = "//") ∧
        ∃ capture ∈ document.captureObjects "root", key ∈ capture.members.map Prod.fst := by
  have hmem : key ∈ (Analysis.ofDocument source document).result.specialKeys.toList ↔
      ∃ occurrence ∈ document.occurrences, occurrence.specialKey? = some key := by
    simp [Analysis.ofDocument, Std.ExtTreeSet.mem_toList, Std.ExtTreeSet.mem_ofList]
  have hkey (occurrence : Occurrence) : occurrence.specialKey? = some key ↔
      (key = "comment" ∨ key = "//") ∧ occurrence.key = key := by
    rw [← special_iff, Occurrence.specialKey?]
    split
    · rename_i hclass
      constructor
      · intro h
        cases h
        exact ⟨hclass, rfl⟩
      · rintro ⟨-, rfl⟩
        rfl
    · rename_i hclass
      refine iff_of_false (by simp) ?_
      rintro ⟨hspecial, rfl⟩
      exact hclass hspecial
  simp only [hmem, hkey, ← mem_occurrences]
  constructor
  · rintro ⟨occurrence, ho, hspecial, hk⟩
    exact ⟨hspecial, occurrence, ho, hk⟩
  · rintro ⟨hspecial, occurrence, ho, hk⟩
    exact ⟨occurrence, ho, hspecial, hk⟩

end Document

/-- Among any keys, each is a group index, an annotation or neither, and no two of these. -/
theorem keys_partitioned (keys : List String) :
    keys.length = keys.countP isGroupIndex +
      (keys.filter fun key => key = "comment" ∨ key = "//").length +
      (keys.filter (¬AllowedKey ·)).length := by
  induction keys with
  | nil => rfl
  | cons key rest ih =>
    have hindex := numeric_iff key
    have hspecial := special_iff key
    have hallowed := allowed_iff key
    rw [List.length_cons, List.countP_cons, List.filter_cons, List.filter_cons, ih]
    cases hclass : classifyKey key <;> rw [hclass] at hindex hspecial hallowed <;>
      simp [← hindex, ← hspecial, ← hallowed] <;> omega

theorem keys_counted (source : String) (document : Document) :
    ((document.captureObjects "root").map (·.members.length)).sum =
      ((document.captureObjects "root").map (·.members.countP (isGroupIndex ·.1))).sum +
        (Analysis.ofDocument source document).log.length +
        (Analysis.ofDocument source document).result.violations.length := by
  rw [log_ofDocument, violations_ofDocument, annotationRecords, List.length_flatMap,
    List.length_flatMap]
  simp only [List.length_map, CaptureObject.violations, ← List.sum_map_add]
  refine congrArg List.sum (List.map_congr_left fun capture _ => ?_)
  have hkeys := keys_partitioned (capture.members.map Prod.fst)
  rw [List.length_map, List.countP_map] at hkeys
  exact hkeys

theorem special_sorted (keys : SpecialKeys) : keys.toList.Pairwise fun a b => a < b := by
  have hsorted : keys.toList.Pairwise fun a b => compare a b = .lt :=
    Std.ExtTreeSet.ordered_toList
  exact hsorted.imp compareOfLessAndEq_eq_lt.mp

theorem classified_once (source : String) (document : Document) :
    ClassifiedOnce source (document.captureObjects "root")
      (Analysis.ofDocument source document) where
  found := rfl
  read := rfl
  violations := violations_ofDocument source document
  numeric_increasing := Std.ExtTreeSet.ordered_toList
  numeric := numeric_told source document
  special_increasing := special_sorted _
  special := special_told source document
  logged := log_ofDocument source document
  counted := keys_counted source document

/-- The analysis of a document is what the two loops over its capture objects and their keys leave
behind, and tells of every key once: sets, violations and log have each key of their class and no
other, the violations and the log in the order of the walk. A text that is no document has a result
with the reader's message and nothing else, and nothing is logged. -/
theorem every_key_classified_once (source : String) :
    (∀ document : Document,
      Analysis.ofDocument source document =
        Analysis.loops source (document.captureObjects "root") ∧
      ClassifiedOnce source (document.captureObjects "root")
        (Analysis.ofDocument source document)) ∧
    ∀ text : String, match Json.read text with
      | .ok document => Analysis.ofText source text = Analysis.ofDocument source document
      | .error fault => Analysis.ofText source text =
        ⟨⟨0, ∅, ∅, [], some ("Failed to parse JSON: " ++ fault.message text)⟩, []⟩ := by
  constructor
  · intro document
    exact ⟨Analysis.ofDocument_eq_loops source document, classified_once source document⟩
  · intro text
    rw [Analysis.ofText]
    cases Json.read text with
    | ok document => rfl
    | error fault => rfl

def annotated : Document :=
  .object
    [ ("captures", .object [("1", .object []), ("comment", .null), ("x", .null), ("01", .null)]),
      ("patterns", .array
        [.object [("endCaptures", .object [("//", .null), ("1", .null), ("", .null)])]]) ]

theorem annotated_captures : annotated.captureObjects "root" =
    [ ⟨"root.captures", [("1", .object []), ("comment", .null), ("x", .null), ("01", .null)]⟩,
      ⟨"root.patterns[0].endCaptures", [("//", .null), ("1", .null), ("", .null)]⟩ ] := by
  have hfound : Document.findings true annotated =
      [ ([.member "captures"],
          [("1", .object []), ("comment", .null), ("x", .null), ("01", .null)]),
        ([.member "patterns", .item 0, .member "endCaptures"],
          [("//", .null), ("1", .null), ("", .null)]) ] := by rfl
  rw [Document.capture_objects_eq_findings, hfound]
  rfl

theorem annotated_keys_classified :
    let analysis := Analysis.ofDocument "a.json" annotated
    analysis.result.capturesFound = 2 ∧
    analysis.result.violations =
      [ ⟨"root.captures", "x", ["1", "comment", "x", "01"]⟩,
        ⟨"root.patterns[0].endCaptures", "", ["//", "1", ""]⟩ ] ∧
    (∀ text, text ∈ analysis.result.numericKeys.toList.map NumericKey.text ↔
      text = "1" ∨ text = "01") ∧
    (∀ key, key ∈ analysis.result.specialKeys.toList ↔ key = "comment" ∨ key = "//") ∧
    analysis.log =
      [ ⟨.info, .analysis, "Special capture key 'comment' in a.json"⟩,
        ⟨.info, .analysis, "Special capture key '//' in a.json"⟩ ] := by
  intro analysis
  obtain ⟨-, h⟩ := (every_key_classified_once "a.json").1 annotated
  rw [annotated_captures] at h
  refine ⟨h.found, h.violations.trans (by decide), fun text => ?_, fun key => ?_,
    h.logged.trans (by decide)⟩
  · rw [h.numeric]
    constructor
    · rintro ⟨⟨hne, hdigits⟩, capture, hc, hk⟩
      rcases List.mem_pair.mp hc with rfl | rfl
      · simp only [List.map_cons, List.map_nil, List.mem_cons, List.not_mem_nil, or_false] at hk
        rcases hk with rfl | rfl | rfl | rfl
        · exact .inl rfl
        · exact absurd (hdigits 'c' (by simp)) (by decide)
        · exact absurd (hdigits 'x' (by simp)) (by decide)
        · exact .inr rfl
      · simp only [List.map_cons, List.map_nil, List.mem_cons, List.not_mem_nil, or_false] at hk
        rcases hk with rfl | rfl | rfl
        · exact absurd (hdigits '/' (by simp)) (by decide)
        · exact .inl rfl
        · exact absurd rfl hne
    · rintro (rfl | rfl)
      · exact ⟨(isGroupIndex_iff "1").mp rfl, _, List.mem_cons_self, by simp⟩
      · exact ⟨(isGroupIndex_iff "01").mp rfl, _, List.mem_cons_self, by simp⟩
  · rw [h.special]
    refine ⟨fun hkey => hkey.1, ?_⟩
    rintro (rfl | rfl)
    · exact ⟨.inl rfl, _, List.mem_cons_self, by simp⟩
    · exact ⟨.inr rfl, _, List.mem_cons_of_mem _ List.mem_cons_self, by simp⟩

end CaptureAudit
