import CaptureAudit.Proofs.Capture.Findings
import CaptureAudit.Proofs.Key.ByValue
import CaptureAudit.Proofs.Report.Details
import CaptureAudit.Proofs.Summary.Accumulation

/-! # Where a report states its verdict

A report states its verdict on a line of its own. Lists of keys are quoted, but a name, a location
or an invalid key is printed as it is, and where one goes over the end of its line, what follows it
may read like a verdict. So a report on a failure always states the failure, and may be made to
state a success as well; a report on a success shows no such text and states the success alone. -/
namespace CaptureAudit

open Text (quotedList quotedList_one_line)

namespace Report

/-- A line of the text begins with the mark. -/
def HasLine (mark text : String) : Prop :=
  mark.toList <+: text.toList ∨ '\n' :: mark.toList <:+: text.toList

/-- The text goes over the end of its line, and the next line begins with the mark. -/
def Forges (mark text : String) : Prop := '\n' :: mark.toList <:+: text.toList

section Breaks

variable {mark line : String} {m x y : List Char} {d : Char}

theorem hasLine_iff (mark text : String) :
    HasLine mark text ↔ '\n' :: mark.toList <:+: '\n' :: text.toList := by
  rw [List.infix_cons_iff, List.cons_prefix_cons, HasLine]
  simp

/-- A line feed and what follows it do not go over a character that does not follow it. -/
theorem infix_beside (hd : d ∉ m) :
    '\n' :: m <:+: x ++ d :: y ↔ '\n' :: m <:+: x ∨ '\n' :: m <:+: d :: y := by
  rw [List.infix_append_iff]
  constructor
  · rintro (hx | hy | ⟨first, second, hm, hx, hy⟩)
    · exact .inl hx
    · exact .inr hy
    · cases first with
      | nil =>
        rw [hm]
        exact .inr hy.isInfix
      | cons c first =>
        cases second with
        | nil =>
          rw [hm, List.append_nil]
          exact .inl hx.isInfix
        | cons e second =>
          obtain ⟨rfl, -⟩ := List.cons_prefix_cons.mp hy
          have hrest : m = first ++ e :: second := (List.cons.inj hm).2
          rw [hrest] at hd
          exact absurd (List.mem_append_right first List.mem_cons_self) hd
  · rintro (hx | hy)
    · exact .inl hx
    · exact .inr (.inl hy)

theorem infix_behind (hx : '\n' ∉ x) : '\n' :: m <:+: x ++ y ↔ '\n' :: m <:+: y := by
  induction x with
  | nil => exact Iff.rfl
  | cons c x ih =>
    rw [List.mem_cons, not_or] at hx
    rw [List.cons_append, List.infix_cons_iff, List.cons_prefix_cons, ih hx.2]
    exact or_iff_right fun h => hx.1 h.1

theorem OneLine.forges_nothing (h : OneLine line) : ¬Forges mark line :=
  fun hforged => h (hforged.subset List.mem_cons_self)

theorem OneLine.hasLine_iff (h : OneLine line) : HasLine mark line ↔ mark.toList <+: line.toList :=
  or_iff_left h.forges_nothing

theorem hasLine_lines (hbreak : '\n' ∉ mark.toList) (hempty : mark.toList ≠ [])
    (texts : List String) : HasLine mark (lines texts) ↔ ∃ line ∈ texts, HasLine mark line := by
  simp only [Report.hasLine_iff, lines_chars]
  -- A line ends before the next one begins.
  induction texts with
  | nil =>
    have hlong : mark.toList.length ≠ 0 := List.length_eq_zero_iff.not.mpr hempty
    refine iff_of_false (fun h => ?_) (by simp)
    have hlength := h.length_le
    simp only [List.flatMap_nil, List.length_cons, List.length_nil] at hlength
    omega
  | cons line texts ih =>
    have hline : '\n' :: (line :: texts).flatMap ended =
        ('\n' :: line.toList) ++ '\n' :: texts.flatMap ended := by
      simp [ended]
    rw [hline, infix_beside hbreak, ih]
    simp

end Breaks

section Marks

variable {mark line before text after : String}

def lineStarts : List Char := ['=', '📊', 'G', 'T', 'F', '✅', 'ℹ', '❌', '-', '📄', ' ']

def Ordinary (line : String) : Prop := ∀ c ∈ line.toList.head?, c ∈ lineStarts

/-- A mark that begins no other line, and that ends before anything printed behind a text. -/
structure VerdictMark (mark : String) : Prop where
  start : ∃ c rest, mark.toList = c :: rest ∧ c ∉ lineStarts
  no_break : '\n' ∉ mark.toList
  no_colon : ':' ∉ mark.toList
  no_quote : '\'' ∉ mark.toList

theorem success_mark : VerdictMark "🎉 CONCLUSION" where
  start := ⟨'🎉', " CONCLUSION".toList, by decide, by decide⟩
  no_break := by decide
  no_colon := by decide
  no_quote := by decide

theorem failure_mark : VerdictMark "🚨 CONCLUSION" where
  start := ⟨'🚨', " CONCLUSION".toList, by decide, by decide⟩
  no_break := by decide
  no_colon := by decide
  no_quote := by decide

theorem VerdictMark.nonempty (hm : VerdictMark mark) : mark.toList ≠ [] := by
  obtain ⟨c, rest, hmark, -⟩ := hm.start
  rw [hmark]
  exact List.cons_ne_nil _ _

theorem VerdictMark.not_begins (hm : VerdictMark mark) (h : Ordinary line) :
    ¬mark.toList <+: line.toList := by
  obtain ⟨c, rest, hmark, hc⟩ := hm.start
  rw [hmark]
  rintro ⟨more, hline⟩
  apply hc
  apply h c
  rw [← hline]
  rfl

/-- A line that states no verdict and holds no free text has none. -/
theorem VerdictMark.none_on (hm : VerdictMark mark) (hstart : Ordinary line) (hline : OneLine line) :
    ¬HasLine mark line := by
  rw [hline.hasLine_iff]
  exact hm.not_begins hstart

theorem VerdictMark.none_among (hm : VerdictMark mark) {texts : List String}
    (hstart : ∀ line ∈ texts, Ordinary line) (hline : ∀ line ∈ texts, OneLine line) :
    ¬∃ line ∈ texts, HasLine mark line := by
  rintro ⟨line, hmem, h⟩
  exact hm.none_on (hstart line hmem) (hline line hmem) h

/-- Free text behind the beginning of its line states a verdict on a later line only. -/
theorem VerdictMark.on_free_text (hm : VerdictMark mark) (hstart : ∃ c ∈ lineStarts, Starts c before)
    (hline : OneLine before) (hafter : after = "" ∨ after = ":" ∨ after = "'") :
    HasLine mark (before ++ text ++ after) ↔ Forges mark text := by
  have hbegins : ¬mark.toList <+: (before ++ text ++ after).toList := by
    obtain ⟨c, hc, hbefore⟩ := hstart
    apply hm.not_begins
    intro d hd
    rw [String.toList_append, String.toList_append, List.append_assoc, List.head?_append,
      hbefore] at hd
    obtain rfl : c = d := by simpa using hd
    exact hc
  have hchars : (before ++ text ++ after).toList =
      before.toList ++ (text.toList ++ after.toList) := by simp
  rw [HasLine, or_iff_right hbegins, hchars, infix_behind hline, Forges]
  rcases hafter with rfl | rfl | rfl
  · exact iff_of_eq (congrArg _ (List.append_nil _))
  · refine (infix_beside hm.no_colon).trans (or_iff_left fun h => ?_)
    have hbreak := h.subset List.mem_cons_self
    simp at hbreak
  · refine (infix_beside hm.no_quote).trans (or_iff_left fun h => ?_)
    have hbreak := h.subset List.mem_cons_self
    simp at hbreak

end Marks

section Parts

variable {mark : String} {summary : Summary}

theorem ordinary_of_starts {c : Char} {line : String} (h : Starts c line) (hc : c ∈ lineStarts) :
    Ordinary line := by
  intro d hd
  rw [h] at hd
  obtain rfl : c = d := by simpa using hd
  exact hc

theorem upperLines_ordinary (summary : Summary) : ∀ line ∈ upperLines summary, Ordinary line := by
  have hcounts : ∀ line ∈ countLines summary, Ordinary line := by
    simp [countLines, Ordinary, lineStarts, rule]
  have hfailed : ∀ line ∈ (failedLine? summary.failedFiles).toList, Ordinary line := by
    intro line hline
    exact ordinary_of_starts (failedLine_starts _ line (Option.mem_toList.mp hline)) (by decide)
  have hnumeric : ∀ line ∈ (numericLine? summary).toList, Ordinary line := by
    intro line hline
    exact ordinary_of_starts (numeric_starts summary line (Option.mem_toList.mp hline)) (by decide)
  have hspecial : ∀ line ∈ (specialLine? summary).toList, Ordinary line := by
    intro line hline
    exact ordinary_of_starts (special_starts summary line (Option.mem_toList.mp hline)) (by decide)
  simp only [upperLines, List.forall_mem_append, List.forall_mem_cons]
  exact ⟨hcounts, hfailed, by simp [Ordinary], hnumeric, hspecial⟩

def ForgedBy (mark name : String) (violations : List Violation) : Prop :=
  Forges mark name ∨ ∃ found ∈ violations, Forges mark found.location ∨ Forges mark found.invalidKey

theorem violationLines_iff (hm : VerdictMark mark) (found : Violation) :
    (∃ line ∈ violationLines found, HasLine mark line) ↔
      Forges mark found.location ∨ Forges mark found.invalidKey := by
  have hspace : ' ' ∈ lineStarts := by decide
  have hlocation : HasLine mark ("  Location: " ++ found.location) ↔ Forges mark found.location := by
    rw [← String.append_empty (s := "  Location: " ++ found.location)]
    exact hm.on_free_text ⟨' ', hspace, by simp [Starts]⟩ (by simp [OneLine]) (.inl rfl)
  have hkey : HasLine mark ("  Invalid key: '" ++ found.invalidKey ++ "'") ↔
      Forges mark found.invalidKey :=
    hm.on_free_text ⟨' ', hspace, by simp [Starts]⟩ (by simp [OneLine]) (.inr (.inr rfl))
  have hkeys : ¬HasLine mark ("  All keys in object: " ++ quotedList found.allKeys) := by
    apply hm.none_on
    · exact ordinary_of_starts (c := ' ') (by simp [Starts]) hspace
    · exact oneLine_append (by simp [OneLine]) (quotedList_one_line _)
  simp only [violationLines, List.exists_mem_cons_iff, hlocation, hkey, hkeys, false_or]
  simp

theorem fileLines_iff (hm : VerdictMark mark) (flagged : FlaggedFile) :
    (∃ line ∈ fileLines (shown flagged), HasLine mark line) ↔
      ForgedBy mark flagged.name flagged.result.violations := by
  have hblank : ¬HasLine mark "" := hm.none_on (by simp [Ordinary]) (by simp [OneLine])
  have hname : HasLine mark ("📄 " ++ flagged.name ++ ":") ↔ Forges mark flagged.name :=
    hm.on_free_text ⟨'📄', by decide, by simp [Starts]⟩ (by simp [OneLine]) (.inr (.inl rfl))
  have hblock : (∃ line ∈ flagged.result.violations.flatMap violationLines, HasLine mark line) ↔
      ∃ found ∈ flagged.result.violations,
        Forges mark found.location ∨ Forges mark found.invalidKey := by
    simp only [← violationLines_iff hm, List.mem_flatMap]
    constructor
    · rintro ⟨line, ⟨found, hf, hline⟩, h⟩
      exact ⟨found, hf, line, hline, h⟩
    · rintro ⟨found, hf, line, hline, h⟩
      exact ⟨line, ⟨found, hf, hline⟩, h⟩
  simp only [fileLines, shown, List.exists_mem_cons_iff]
  rw [or_iff_right hblank, hname, hblock, ForgedBy]

theorem no_verdict_above (hm : VerdictMark mark) (summary : Summary) :
    ¬∃ line ∈ upperLines summary, HasLine mark line :=
  hm.none_among (upperLines_ordinary summary) (upperLines_stay summary)

/-- Below the details of a failure stands the failure, and above it nothing but what free text
states. -/
theorem failure_states_iff (hm : VerdictMark mark) (h : summary.passed = false) :
    HasLine mark (conclusion summary) ↔
      mark.toList <+: "🚨 CONCLUSION: Non-numeric capture keys found!".toList ∨
      ∃ flagged ∈ summary.filesWithViolations,
        ForgedBy mark flagged.name flagged.result.violations := by
  have hfiles : (∃ line ∈ (summary.filesWithViolations.map shown).flatMap fileLines,
      HasLine mark line) ↔ ∃ flagged ∈ summary.filesWithViolations,
        ForgedBy mark flagged.name flagged.result.violations := by
    simp only [← fileLines_iff hm, List.mem_flatMap, List.mem_map]
    constructor
    · rintro ⟨line, ⟨_, ⟨flagged, hf, rfl⟩, hline⟩, hmark⟩
      exact ⟨flagged, hf, line, hline, hmark⟩
    · rintro ⟨flagged, hf, line, hline, hmark⟩
      exact ⟨line, ⟨_, ⟨flagged, hf, rfl⟩, hline⟩, hmark⟩
  have hheading : ¬∃ line ∈ ["", "❌ VIOLATIONS DETAILS:", rule '-' 40], HasLine mark line := by
    apply hm.none_among
    · simp [Ordinary, lineStarts, rule]
    · simp [OneLine, rule]
  have hverdict : (∃ line ∈ verdictLines, HasLine mark line) ↔
      mark.toList <+: "🚨 CONCLUSION: Non-numeric capture keys found!".toList := by
    have hblank : ¬HasLine mark "" := hm.none_on (by simp [Ordinary]) (by simp [OneLine])
    have hlast : ¬HasLine mark "   Capture keys cannot all be converted to group indices." :=
      hm.none_on (by simp [Ordinary, lineStarts]) (by simp [OneLine])
    have hline : OneLine "🚨 CONCLUSION: Non-numeric capture keys found!" := by simp [OneLine]
    simp only [verdictLines, List.exists_mem_cons_iff]
    rw [or_iff_right hblank, hline.hasLine_iff]
    exact or_iff_left (by simp [hlast])
  have hdetails : detailLines summary = ["", "❌ VIOLATIONS DETAILS:", rule '-' 40] ++
      ((summary.filesWithViolations.map shown).flatMap fileLines ++ verdictLines) := rfl
  rw [conclusion_lines h, hasLine_lines hm.no_break hm.nonempty, failureLines_eq, hdetails]
  simp only [List.mem_append, or_and_right, exists_or, hfiles, hverdict]
  rw [or_iff_right (no_verdict_above hm summary), or_iff_right hheading, or_comm]

def rangeLine? (summary : Summary) : Option String :=
  summary.numericRange.map fun (least, greatest) =>
    "   Numeric key range: " ++ least.normalized ++ " to " ++ greatest.normalized

def successLines (summary : Summary) : List String :=
  [ "",
    "🎉 CONCLUSION: All capture keys are numeric or special metadata!",
    "   Every non-metadata capture key converts to a group index." ] ++
  (rangeLine? summary).toList

theorem success_lines (h : summary.passed = true) :
    conclusion summary = lines (upperLines summary ++ successLines summary) := by
  have hsuccess : success summary = lines (successLines summary) := by
    rw [success, successLines, rangeLine?]
    cases summary.numericRange <;> rfl
  rw [conclusion, if_pos h, upper_lines, hsuccess, lines_append]

theorem oneLine_normalized (key : NumericKey) : OneLine key.normalized := by
  intro hmem
  have hdigit := key.normalized_digits '\n' hmem
  cases hdigit

theorem rangeLine_stays (summary : Summary) : ∀ line ∈ rangeLine? summary, OneLine line := by
  intro line hline
  obtain ⟨⟨least, greatest⟩, -, rfl⟩ := Option.map_eq_some_iff.mp hline
  have hbefore : OneLine ("   Numeric key range: " ++ least.normalized) :=
    oneLine_append (by simp [OneLine]) (oneLine_normalized least)
  have hbetween : OneLine ("   Numeric key range: " ++ least.normalized ++ " to ") :=
    oneLine_append hbefore (by simp [OneLine])
  exact oneLine_append hbetween (oneLine_normalized greatest)

theorem success_states_iff (hm : VerdictMark mark) (h : summary.passed = true) :
    HasLine mark (conclusion summary) ↔
      mark.toList <+: "🎉 CONCLUSION: All capture keys are numeric or special metadata!".toList := by
  have hblank : ¬HasLine mark "" := hm.none_on (by simp [Ordinary]) (by simp [OneLine])
  have hnext : ¬HasLine mark "   Every non-metadata capture key converts to a group index." :=
    hm.none_on (by simp [Ordinary, lineStarts]) (by simp [OneLine])
  have hrange : ¬∃ line ∈ (rangeLine? summary).toList, HasLine mark line := by
    apply hm.none_among
    · intro line hline
      obtain ⟨range, -, rfl⟩ := Option.map_eq_some_iff.mp (Option.mem_toList.mp hline)
      exact ordinary_of_starts (c := ' ') (by simp [Starts]) (by decide)
    · intro line hline
      exact rangeLine_stays summary line (Option.mem_toList.mp hline)
  have hline : OneLine "🎉 CONCLUSION: All capture keys are numeric or special metadata!" := by
    simp [OneLine]
  rw [success_lines h, hasLine_lines hm.no_break hm.nonempty, successLines]
  simp only [List.mem_append, or_and_right, exists_or]
  rw [or_iff_right (no_verdict_above hm summary), or_iff_left hrange]
  simp only [List.exists_mem_cons_iff]
  rw [or_iff_right hblank, hline.hasLine_iff]
  exact or_iff_left (by simp [hnext])

end Parts

end Report

section Texts

variable {files : List (String × String)}

def Summary.ofTexts (files : List (String × String)) : Summary :=
  Summary.recordAll ∅ (files.map fun file => (file.1, (Analysis.ofText file.1 file.2).result))

def violationsIn (file : String × String) : List Violation :=
  (Analysis.ofText file.1 file.2).result.violations

/-- A text that is not read has no violations, so all texts with violations are listed. -/
theorem flagged_text (file : String × String) :
    Summary.flagged? (file.1, (Analysis.ofText file.1 file.2).result) =
      if violationsIn file = [] then none
      else some ⟨file.1, (Analysis.ofText file.1 file.2).result⟩ := by
  rw [Summary.flagged?, FileResult.isError, FileResult.hasViolations, violationsIn,
    Analysis.ofText]
  cases Json.read file.2 with
  | error fault => rfl
  | ok document =>
    cases hv : (Analysis.ofDocument file.1 document).result.violations <;>
      simp [Analysis.ofDocument]

theorem mem_flagged_texts {flagged : FlaggedFile} :
    flagged ∈ (Summary.ofTexts files).filesWithViolations ↔
      ∃ file ∈ files, violationsIn file ≠ [] ∧
        flagged = ⟨file.1, (Analysis.ofText file.1 file.2).result⟩ := by
  have hflagged : (Summary.ofTexts files).filesWithViolations = files.filterMap fun file =>
      if violationsIn file = [] then none
      else some ⟨file.1, (Analysis.ofText file.1 file.2).result⟩ := by
    rw [Summary.ofTexts, Summary.filesWithViolations_recordAll, List.filterMap_map]
    exact congrArg (files.filterMap ·) (funext flagged_text)
  rw [hflagged, List.mem_filterMap]
  refine exists_congr fun file => and_congr_right fun _ => ?_
  by_cases hv : violationsIn file = []
  · simp [hv]
  · simp [hv, eq_comm]

end Texts

namespace Report

/-- A report states the failure exactly if the summary fails. It states the success if the summary
passes, and otherwise exactly if the name of a file with violations, or a location or an invalid key
in it, goes over the end of its line and goes on as a success does. -/
theorem verdict_stated (files : List (String × String)) :
    (HasLine "🚨 CONCLUSION" (conclusion (Summary.ofTexts files)) ↔
      (Summary.ofTexts files).passed = false) ∧
    (HasLine "🎉 CONCLUSION" (conclusion (Summary.ofTexts files)) ↔
      (Summary.ofTexts files).passed = true ∨
        ∃ file ∈ files, violationsIn file ≠ [] ∧
          ForgedBy "🎉 CONCLUSION" file.1 (violationsIn file)) := by
  cases hp : (Summary.ofTexts files).passed with
  | true =>
    rw [success_states_iff failure_mark hp, success_states_iff success_mark hp]
    exact ⟨iff_of_false (by decide) (by decide), iff_of_true (by decide) (.inl rfl)⟩
  | false =>
    have hforged : (∃ flagged ∈ (Summary.ofTexts files).filesWithViolations,
        ForgedBy "🎉 CONCLUSION" flagged.name flagged.result.violations) ↔
        ∃ file ∈ files, violationsIn file ≠ [] ∧
          ForgedBy "🎉 CONCLUSION" file.1 (violationsIn file) := by
      simp only [mem_flagged_texts]
      constructor
      · rintro ⟨_, ⟨file, hf, hv, rfl⟩, h⟩
        exact ⟨file, hf, hv, h⟩
      · rintro ⟨file, hf, hv, h⟩
        exact ⟨_, ⟨file, hf, hv, rfl⟩, h⟩
    rw [failure_states_iff failure_mark hp, failure_states_iff success_mark hp, hforged]
    refine ⟨iff_of_true (.inl (by decide)) rfl, ?_⟩
    rw [or_iff_right (by decide), or_iff_right (by decide)]

def forgingText : String := "\x7b\"captures\":\x7b\"\\n🎉 CONCLUSION\":0\x7d\x7d"

theorem forging_document : Json.read forgingText =
    .ok (.object [("captures", .object [("\n🎉 CONCLUSION", .integer 0)])]) := rfl

theorem forging_violations : violationsIn ("a.json", forgingText) =
    [⟨"root.captures", "\n🎉 CONCLUSION", ["\n🎉 CONCLUSION"]⟩] := by
  have hfound : Document.findings true
      (.object [("captures", .object [("\n🎉 CONCLUSION", .integer 0)])]) =
        [([.member "captures"], [("\n🎉 CONCLUSION", .integer 0)])] := by rfl
  rw [violationsIn, Analysis.ofText, forging_document]
  simp only [Analysis.ofDocument, Document.occurrences, Document.capture_objects_eq_findings, hfound]
  rfl

/-- A summary that fails, and a report on it with a line that begins as a success does. -/
theorem success_forged :
    ¬(HasLine "🎉 CONCLUSION" (conclusion (Summary.ofTexts [("a.json", forgingText)])) ↔
      (Summary.ofTexts [("a.json", forgingText)]).passed = true) := by
  have hfails : (Summary.ofTexts [("a.json", forgingText)]).passed = false := by
    have hcount : (Analysis.ofText "a.json" forgingText).result.violations.length = 1 :=
      congrArg List.length forging_violations
    have herror : (Analysis.ofText "a.json" forgingText).result.isError = false := by
      rw [Analysis.ofText, forging_document]
      rfl
    rw [Summary.passed, Summary.ofTexts, Summary.totalViolations_recordAll]
    simp [FileResult.countedViolations, hcount, herror]
  have hflagged : (⟨"a.json", (Analysis.ofText "a.json" forgingText).result⟩ : FlaggedFile) ∈
      (Summary.ofTexts [("a.json", forgingText)]).filesWithViolations :=
    mem_flagged_texts.mpr ⟨_, List.mem_cons_self, by simp [forging_violations], rfl⟩
  have hforged : ForgedBy "🎉 CONCLUSION" "a.json" (violationsIn ("a.json", forgingText)) := by
    rw [forging_violations]
    exact .inr ⟨_, List.mem_cons_self, .inr (List.infix_refl _)⟩
  have hstated := (failure_states_iff success_mark hfails).mpr (.inr ⟨_, hflagged, hforged⟩)
  intro h
  rw [h.mp hstated] at hfails
  cases hfails

end Report

end CaptureAudit
