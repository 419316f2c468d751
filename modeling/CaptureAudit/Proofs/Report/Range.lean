import CaptureAudit.Proofs.Command.Formats
import CaptureAudit.Proofs.Report.VerdictLines
import CaptureAudit.Proofs.Summary.Range

/-! # The range in the reports

All reports show the range of the group indices without leading zeros. In the two for machines it
stands between the verdict and the number of files, and is left out if there is none; for readers it
is the last line of a success. -/
namespace CaptureAudit

open Command (jsonLead yamlLead)
open Summary (recordedKeys recordedNumbers Spans)
open Text (separated_unique)

namespace Report

section Machines

def jsonRange (range : Option (String × String)) : List Char :=
  range.elim [] fun ends =>
    (",\n  \"numeric_range\": [\n    \"" ++ ends.1 ++ "\",\n    \"" ++ ends.2 ++ "\"\n  ]").toList

def yamlRange (range : Option (String × String)) : List Char :=
  range.elim [] fun ends =>
    "numeric_range:\n- ".toList ++ Yaml.scalarLine 2 ends.1.toList ++
      ("- ".toList ++ Yaml.scalarLine 2 ends.2.toList)

theorem escape_digit {c : Char} (h : c.isDigit = true) : Json.escapeChar c = [c] := by
  have hlow := (Char.isDigit_iff_toNat.mp h).1
  have hprinted : ¬c.toNat < 0x20 := by
    intro hc
    have hzero : '0'.toNat = 48 := rfl
    omega
  unfold Json.escapeChar
  split <;> simp_all

theorem quote_digits (key : NumericKey) :
    Json.stringChars key.normalized = '"' :: (key.normalized.toList ++ ['"']) := by
  have hdigits : key.normalized.toList.flatMap Json.escapeChar = key.normalized.toList := by
    rw [List.flatMap_congr fun c hc => escape_digit (key.normalized_digits c hc)]
    exact List.flatMap_singleton' _
  rw [Json.stringChars, hdigits]
  rfl

variable (directory : String) (summary : Summary)

theorem json_range_field :
    Json.memberChars 1 (Command.fieldsBehind summary) =
      jsonRange summary.shownRange ++ Json.memberChars 1 (Tree.summaryFields summary) := by
  have hopen : ",\n  \"numeric_range\": [\n    \"".toList =
      ',' :: (Json.newLine 1 ++ Json.stringChars "numeric_range" ++ [':', ' '] ++
        '[' :: (Json.newLine 2 ++ ['"'])) := rfl
  have hnext : "\",\n    \"".toList = '"' :: ',' :: (Json.newLine 2 ++ ['"']) := rfl
  have hclose : "\"\n  ]".toList = '"' :: (Json.newLine 1 ++ [']']) := rfl
  rw [Command.fieldsBehind, Tree.rangeFields, Summary.shownRange]
  generalize Tree.summaryFields summary = fields
  cases summary.numericRange with
  | none => rfl
  | some range =>
    simp only [Option.map_some, jsonRange, Option.elim_some, List.cons_append, List.nil_append,
      Json.memberChars, Tree.texts, List.map_cons, List.map_nil, Json.treeChars, Json.itemChars,
      quote_digits, String.toList_append, hopen, hnext, hclose, List.append_assoc, Nat.reduceAdd]

theorem yaml_range_field :
    Yaml.fieldLines 0 (Command.fieldsBehind summary) =
      yamlRange summary.shownRange ++ Yaml.fieldLines 0 (Tree.summaryFields summary) := by
  have hopen : "numeric_range:\n- ".toList =
      Yaml.spaces 0 ++ "numeric_range".toList ++ [':', '\n'] ++ (Yaml.spaces 0 ++ ['-', ' ']) := rfl
  have hnext : "- ".toList = Yaml.spaces 0 ++ ['-', ' '] := rfl
  rw [Command.fieldsBehind, Tree.rangeFields, Summary.shownRange]
  generalize Tree.summaryFields summary = fields
  cases summary.numericRange with
  | none => rfl
  | some range =>
    simp only [Option.map_some, yamlRange, Option.elim_some, List.cons_append, List.nil_append,
      Yaml.fieldLines, Tree.texts, List.map_cons, List.map_nil, Yaml.fieldValue, Yaml.itemLines,
      Yaml.itemValue, hopen, hnext, List.append_assoc, Nat.zero_add]

theorem json_shows_range :
    jsonLead directory ++ ((toString summary.passed).toList ++
      (jsonRange summary.shownRange ++ ",\n  \"files_analyzed\": ".toList)) <+:
    (Json.print (.ofSummary directory summary)).toList := by
  obtain ⟨more, hfiles⟩ : ∃ more, Json.memberChars 1 (Tree.summaryFields summary) =
      ",\n  \"files_analyzed\": ".toList ++ more := ⟨_, rfl⟩
  rw [Command.json_begins, json_range_field, hfiles, List.prefix_append_right_inj,
    List.prefix_append_right_inj, List.append_assoc, List.prefix_append_right_inj, List.append_assoc]
  exact List.prefix_append _ _

theorem yaml_shows_range :
    yamlLead directory ++ ((toString summary.passed).toList ++
      '\n' :: (yamlRange summary.shownRange ++ "files_analyzed: ".toList)) <+:
    (Yaml.print (.ofSummary directory summary)).toList := by
  obtain ⟨more, hfiles⟩ : ∃ more, Yaml.fieldLines 0 (Tree.summaryFields summary) =
      "files_analyzed: ".toList ++ more := ⟨_, rfl⟩
  rw [Command.yaml_begins, yaml_range_field, hfiles, List.prefix_append_right_inj,
    List.prefix_append_right_inj, List.cons_prefix_cons, List.prefix_append_right_inj]
  exact ⟨rfl, List.prefix_append _ _⟩

end Machines

section Readers

variable {line last : String} {summary : Summary}

/-- The line is the last one of the text, and not the only one. -/
def EndsInLine (line text : String) : Prop := ("\n" ++ line ++ "\n").toList <:+ text.toList

/-- Read backwards, a text tells its last line by the line feed before it. -/
theorem endsInLine_iff (hline : OneLine line) (hlast : OneLine last) {texts : List String}
    (htexts : texts ≠ []) : EndsInLine line (lines (texts ++ [last])) ↔ line = last := by
  obtain ⟨above, hsplit⟩ : ∃ above, texts.flatMap ended = above ++ ['\n'] := by
    refine ⟨texts.dropLast.flatMap ended ++ (texts.getLast htexts).toList, ?_⟩
    conv => lhs; rw [← List.dropLast_concat_getLast htexts]
    simp [ended]
  have hchars : (lines (texts ++ [last])).toList = above ++ '\n' :: last.toList ++ ['\n'] := by
    rw [lines_chars, List.flatMap_append, hsplit]
    simp [ended]
  have hshown : ("\n" ++ line ++ "\n").toList = '\n' :: line.toList ++ ['\n'] := by simp
  rw [EndsInLine, hchars, hshown]
  constructor
  · rintro ⟨before, h⟩
    rw [← List.append_assoc] at h
    have hreverse := congrArg List.reverse (List.append_cancel_right h)
    rw [List.reverse_append, List.reverse_append, List.reverse_cons, List.reverse_cons,
      List.append_assoc, List.append_assoc] at hreverse
    have hread : line.toList.reverse = last.toList.reverse :=
      (separated_unique (List.mem_reverse.not.mpr hline) (List.mem_reverse.not.mpr hlast) hreverse).1
    exact String.toList_inj.mp (List.reverse_inj.mp hread)
  · rintro rfl
    exact ⟨above, by simp⟩

theorem failure_ends (h : summary.passed = false) (hline : OneLine line) :
    EndsInLine line (conclusion summary) ↔
      line = "   Capture keys cannot all be converted to group indices." := by
  have hlines : failureLines summary = (upperLines summary ++ (["", "❌ VIOLATIONS DETAILS:",
      rule '-' 40] ++ ((summary.filesWithViolations.map shown).flatMap fileLines ++
        ["", "🚨 CONCLUSION: Non-numeric capture keys found!"]))) ++
      ["   Capture keys cannot all be converted to group indices."] := by
    rw [failureLines_eq, detailLines, verdictLines]
    simp
  rw [conclusion_lines h, hlines, endsInLine_iff hline (by simp [OneLine]) (by simp)]

theorem success_ends (h : summary.passed = true) (hline : OneLine line) :
    EndsInLine line (conclusion summary) ↔ line = (rangeLine? summary).getD
      "   Every non-metadata capture key converts to a group index." := by
  rw [success_lines h, successLines]
  cases hr : rangeLine? summary with
  | none =>
    have hlines : upperLines summary ++ ([ "",
        "🎉 CONCLUSION: All capture keys are numeric or special metadata!",
        "   Every non-metadata capture key converts to a group index." ] ++ none.toList) =
        (upperLines summary ++
          ["", "🎉 CONCLUSION: All capture keys are numeric or special metadata!"]) ++
          ["   Every non-metadata capture key converts to a group index."] := by simp
    rw [hlines, endsInLine_iff hline (by simp [OneLine]) (by simp), Option.getD_none]
  | some range =>
    rw [Option.toList_some, ← List.append_assoc,
      endsInLine_iff hline (rangeLine_stays summary range hr) (by simp), Option.getD_some]

/-- The text of the range is the last line exactly if the summary passes and has a range. -/
theorem text_shows_range {shown : String} (hshown : OneLine shown) :
    EndsInLine ("   Numeric key range: " ++ shown) (conclusion summary) ↔
      summary.passed = true ∧ ∃ first last, summary.shownRange = some (first, last) ∧
        shown = first ++ " to " ++ last := by
  have hline : OneLine ("   Numeric key range: " ++ shown) :=
    oneLine_append (by simp [OneLine]) hshown
  have hstart {other : String} (h : other.toList[3]? ≠ some 'N') :
      "   Numeric key range: " ++ shown ≠ other := by
    rintro rfl
    simp at h
  cases hp : summary.passed with
  | false =>
    rw [failure_ends hp hline]
    exact iff_of_false (hstart (by decide)) (by simp)
  | true =>
    rw [success_ends hp hline, rangeLine?, Summary.shownRange]
    cases summary.numericRange with
    | none => exact iff_of_false (hstart (by decide)) (by simp)
    | some range =>
      simp [String.append_assoc]

end Readers

/-- How the three reports show a range, or that there is none. -/
structure RangeShown (directory : String) (summary : Summary) : Prop where
  json : jsonLead directory ++ ((toString summary.passed).toList ++
      (jsonRange summary.shownRange ++ ",\n  \"files_analyzed\": ".toList)) <+:
    (Json.print (.ofSummary directory summary)).toList
  yaml : yamlLead directory ++ ((toString summary.passed).toList ++
      '\n' :: (yamlRange summary.shownRange ++ "files_analyzed: ".toList)) <+:
    (Yaml.print (.ofSummary directory summary)).toList
  text : ∀ shown, OneLine shown →
    (EndsInLine ("   Numeric key range: " ++ shown) (conclusion summary) ↔
      summary.passed = true ∧ ∃ first last, summary.shownRange = some (first, last) ∧
        shown = first ++ " to " ++ last)

/-- There is a range exactly if a group index was recorded. Its ends are recorded keys that have all
others between them, and it is shown as the numerals of the least and the greatest number recorded.
This is what all three reports show, the one for readers only of a success. -/
theorem range_reported (results : List (String × FileResult)) :
    let summary := Summary.recordAll ∅ results
    (summary.numericRange = none ↔ recordedKeys results = ∅) ∧
    (∀ least greatest, summary.numericRange = some (least, greatest) →
      Spans (recordedKeys results) least greatest) ∧
    (∀ first last, summary.shownRange = some (first, last) ↔
      ∃ m n, IsLeast (recordedNumbers results) m ∧ IsGreatest (recordedNumbers results) n ∧
        first = toString m ∧ last = toString n) ∧
    ∀ directory, RangeShown directory summary := by
  intro summary
  refine ⟨Summary.recorded_none_iff, ?_, ?_, ?_⟩
  · intro least greatest h
    exact Summary.recorded_spans h
  · intro first last
    exact Summary.shownRange_iff
  · intro directory
    constructor
    · exact json_shows_range directory summary
    · exact yaml_shows_range directory summary
    · intro shown hshown
      exact text_shows_range hshown

def threeKey : NumericKey := ⟨"3", by decide⟩

def paddedKey : NumericKey := ⟨"0012", by decide⟩

/-- Two group indices, and a lesser one in a result with an error. -/
def paddedResults : List (String × FileResult) :=
  let one : NumericKey := ⟨"1", by decide⟩
  [ ("a.json", ⟨1, Std.ExtTreeSet.ofList [paddedKey, threeKey], ∅, [], none⟩),
    ("b.json", ⟨1, Std.ExtTreeSet.ofList [one], ∅, [], some "broken"⟩) ]

theorem padded_keys : recordedKeys paddedResults = {paddedKey, threeKey} := by
  ext key
  simp [recordedKeys, Summary.withoutError, paddedResults]

/-- The keys are told apart by value, so the range of the two is known without running the set. -/
theorem padded_range :
    (Summary.recordAll ∅ paddedResults).numericRange = some (threeKey, paddedKey) := by
  have hthree : threeKey.value = 3 := by rfl
  have htwelve : paddedKey.value = 12 := by rfl
  cases hr : (Summary.recordAll ∅ paddedResults).numericRange with
  | none =>
    have hempty := Summary.recorded_none_iff.mp hr
    rw [padded_keys] at hempty
    exact absurd hempty (Set.insert_nonempty _ _).ne_empty
  | some range =>
    obtain ⟨hleast, hgreatest, hbetween⟩ := Summary.recorded_spans hr
    rw [padded_keys] at hleast hgreatest hbetween
    have hlow := (hbetween threeKey (by simp)).1
    have hhigh := (hbetween paddedKey (by simp)).2
    have hfirst : range.1 = threeKey := by
      rcases hleast with h | h
      · rw [h] at hlow
        omega
      · exact h
    have hlast : range.2 = paddedKey := by
      rcases hgreatest with h | h
      · exact h
      · rw [h] at hhigh
        omega
    rw [← hfirst, ← hlast]

theorem padded_range_reported :
    let summary := Summary.recordAll ∅ paddedResults
    summary.numericRange = some (threeKey, paddedKey) ∧
      Spans (recordedKeys paddedResults) threeKey paddedKey ∧
      OneLine "3 to 12" ∧ EndsInLine "   Numeric key range: 3 to 12" (conclusion summary) := by
  intro summary
  have hrange : summary.numericRange = some (threeKey, paddedKey) := padded_range
  have hline : OneLine "3 to 12" := by simp [OneLine]
  have hshown : summary.shownRange = some ("3", "12") := by
    rw [Summary.shownRange, hrange]
    rfl
  obtain ⟨-, hspans, -, hreports⟩ := range_reported paddedResults
  exact ⟨hrange, hspans _ _ hrange, hline,
    ((hreports ".").text "3 to 12" hline).mpr ⟨rfl, "3", "12", hshown, rfl⟩⟩

end Report

end CaptureAudit
