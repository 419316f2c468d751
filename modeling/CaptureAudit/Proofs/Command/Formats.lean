import CaptureAudit.Proofs.Command.Lines
import CaptureAudit.Proofs.Scan.Accounts
import CaptureAudit.Proofs.Summary.Coherence

/-! # Three formats of one scan

Text mode shows what the scan streams and then the conclusion; the machine formats only print the
report on the summary. They make the same scan, so they have one summary and one exit code, and a
scan that fails does so in all of them. The log has no part in that. -/
namespace CaptureAudit

open Files (Volume)

/-- Bytes that are not cut are read as their text. -/
theorem textOfCut_text (text : String) : textOfCut text.toUTF8 = text := by
  have hwhole : text.toUTF8.extract 0 (text.toUTF8.size - 0) = text.toUTF8 := by
    rw [Nat.sub_zero, ByteArray.extract_zero_size]
  rw [textOfCut, List.filterMap_cons]
  simp only [hwhole, fromUTF8_toUTF8, List.headD_cons]

theorem Survey.outcome_error {s : Survey} {error : ScanError} (h : s.outcome = .error error) :
    error = .directoryNotFound s.directory ∨ error = .noGrammarFiles s.directory := by
  rw [Survey.outcome] at h
  split at h
  · exact .inl (Except.error.inj h).symm
  · split at h
    · exact .inr (Except.error.inj h).symm
    · cases h

namespace Command

def jsonLead (directory : String) : List Char :=
  "\x7b\n  \"grammar_dir\": ".toList ++ Json.stringChars directory ++ ",\n  \"passed\": ".toList

def yamlLead (directory : String) : List Char :=
  "grammar_dir: ".toList ++ Yaml.scalarLine 2 directory.toList ++ "passed: ".toList

/-- Behind its lead, the text has the verdict and then a mark. -/
def States (lead : List Char) (mark : Char) (passed : Bool) (text : String) : Prop :=
  lead ++ ((toString passed).toList ++ [mark]) <+: text.toList

theorem states_unique {lead : List Char} {mark : Char} {a b : Bool} {text : String}
    (ha : States lead mark a text) (hb : States lead mark b text) : a = b := by
  obtain ⟨rest, ha⟩ := ha
  obtain ⟨rest', hb⟩ := hb
  rw [List.append_assoc] at ha hb
  have hverdict := List.append_cancel_left (ha.trans hb.symm)
  have htrue : (toString true).toList = ['t', 'r', 'u', 'e'] := rfl
  have hfalse : (toString false).toList = ['f', 'a', 'l', 's', 'e'] := rfl
  cases a <;> cases b <;> simp [htrue, hfalse] at hverdict ⊢

theorem states_iff {lead : List Char} {mark : Char} {summary : Summary} {text : String}
    (h : States lead mark summary.passed text) (passed : Bool) :
    States lead mark passed text ↔ passed = summary.passed := by
  constructor
  · intro hpassed
    exact states_unique hpassed h
  · rintro rfl
    exact h

section Beginnings

variable (directory : String) (summary : Summary)

def fieldsBehind : List (String × Report.Tree) :=
  Report.Tree.rangeFields summary ++ Report.Tree.summaryFields summary

theorem fields_behind : ∃ field rest, fieldsBehind summary = field :: rest := by
  rw [fieldsBehind, Report.Tree.rangeFields]
  cases summary.numericRange <;> exact ⟨_, _, rfl⟩

theorem report_fields : Report.Tree.ofSummary directory summary =
    .record (("grammar_dir", .text directory) :: ("passed", .flag summary.passed) ::
      fieldsBehind summary) := by
  rw [Report.Tree.ofSummary, List.append_assoc]
  rfl

theorem json_begins : (Json.print (.ofSummary directory summary)).toList =
    jsonLead directory ++ ((toString summary.passed).toList ++
      (Json.memberChars 1 (fieldsBehind summary) ++ (Json.newLine 0 ++ ['\x7d']))) := by
  have hlead : jsonLead directory =
      ('\x7b' :: (Json.newLine 1 ++ Json.stringChars "grammar_dir" ++ [':', ' '])) ++
        Json.stringChars directory ++
        (',' :: (Json.newLine 1 ++ Json.stringChars "passed" ++ [':', ' '])) := rfl
  rw [report_fields, hlead, Json.print, String.toList_ofList, Json.treeChars, Json.memberChars,
    Json.treeChars, Json.treeChars]
  simp only [List.append_assoc, List.cons_append, List.nil_append, Nat.zero_add]

theorem yaml_begins : (Yaml.print (.ofSummary directory summary)).toList =
    yamlLead directory ++ ((toString summary.passed).toList ++
      '\n' :: Yaml.fieldLines 0 (fieldsBehind summary)) := by
  have hlead : yamlLead directory = ("grammar_dir".toList ++ [':', ' ']) ++
      Yaml.scalarLine 2 directory.toList ++ (Yaml.spaces 0 ++ "passed".toList ++ [':', ' ']) := rfl
  rw [report_fields, hlead, Yaml.print, String.toList_ofList, Yaml.itemValue, Yaml.fieldLines,
    Yaml.fieldValue, Yaml.fieldValue]
  simp only [List.append_assoc, List.cons_append, List.nil_append, Nat.zero_add]

theorem json_states : States (jsonLead directory) ',' summary.passed
    (Json.print (.ofSummary directory summary) ++ "\n") := by
  obtain ⟨field, rest, hfields⟩ := fields_behind summary
  rw [States, String.toList_append, json_begins, hfields, Json.memberChars, List.append_assoc,
    List.prefix_append_right_inj, List.append_assoc, List.prefix_append_right_inj]
  exact List.cons_prefix_cons.mpr ⟨rfl, List.nil_prefix⟩

theorem yaml_states :
    States (yamlLead directory) '\n' summary.passed (Yaml.print (.ofSummary directory summary)) := by
  rw [States, yaml_begins, List.prefix_append_right_inj, List.prefix_append_right_inj]
  exact List.cons_prefix_cons.mpr ⟨rfl, List.nil_prefix⟩

end Beginnings

def fatalText : ScanError → String
  | .noGrammarFiles _ => "No .json grammar files found!"
  | error => error.message

def shownLog (s : Survey) (filter : LogFilter) : String :=
  String.join (((startRecord s.directory :: ScanEvent.logged s.events).filter filter.shows).map
    logLine)

section Outcome

variable {s : Survey}

theorem scan_ok {summary : Summary} (h : s.outcome = .ok summary) (format : Format)
    (filter : LogFilter) : scan format s filter =
      ⟨summary.exitCode, (match format with
        | .text => ScanEvent.written s.events
        | _ => "") ++ finalReport format s.directory summary, shownLog s filter⟩ := by
  rw [scan, Scan.run_unlimited (Scan.performs_survey s), h]
  cases format <;> simp only [streamed, textOfCut_text] <;> rfl

theorem scan_failed {error : ScanError} (h : s.outcome = .error error) (format : Format)
    (filter : LogFilter) : scan format s filter =
      match format with
      | .text => ⟨1, ScanEvent.written s.events ++ ("❌ " ++ fatalText error ++ "\n"),
          shownLog s filter⟩
      | _ => ⟨1, "", shownLog s filter ++ ("ERROR:" ++ error.message ++ "\n")⟩ := by
  rw [scan, Scan.run_unlimited (Scan.performs_survey s), h]
  cases format
  · simp only [streamed, textOfCut_text]
    cases error <;> rfl
  · simp [streamed, Report.lines, shownLog]
  · simp [streamed, Report.lines, shownLog]

/-- Neither the output nor the code of a run is a matter of the filter. -/
theorem scan_unfiltered (s : Survey) (format : Format) (filter other : LogFilter) :
    (scan format s filter).output = (scan format s other).output ∧
      (scan format s filter).exitCode = (scan format s other).exitCode := by
  cases ho : s.outcome with
  | ok summary =>
    rw [scan_ok ho, scan_ok ho]
    exact ⟨rfl, rfl⟩
  | error error =>
    rw [scan_failed ho, scan_failed ho]
    cases format <;> exact ⟨rfl, rfl⟩

end Outcome

/-- What the three formats show of a scan that streamed some bytes and gave a summary. -/
structure SummaryShown (directory : String) (streamed : ByteArray) (summary : Summary)
    (outcome : Format → Outcome) : Prop where
  text : (outcome .text).output.toUTF8 = streamed ++ (Report.conclusion summary).toUTF8
  json : (outcome .json).output = Json.print (.ofSummary directory summary) ++ "\n"
  yaml : (outcome .yaml).output = Yaml.print (.ofSummary directory summary)
  codes : ∀ format, (outcome format).exitCode = summary.exitCode
  json_passed : ∀ passed, States (jsonLead directory) ',' passed (outcome .json).output ↔
    (passed = true ↔ ∀ format, (outcome format).exitCode = 0)
  yaml_passed : ∀ passed, States (yamlLead directory) '\n' passed (outcome .yaml).output ↔
    (passed = true ↔ ∀ format, (outcome format).exitCode = 0)
  errors : ∀ format, (outcome format).errors = (outcome .text).errors

structure FailureShown (directory : String) (streamed : ByteArray) (error : ScanError)
    (outcome : Format → Outcome) : Prop where
  kind : error = .directoryNotFound directory ∨ error = .noGrammarFiles directory
  text : (outcome .text).output.toUTF8 = streamed ++ ("❌ " ++ fatalText error ++ "\n").toUTF8
  /-- It is one line, unless the directory itself is not spelled on one line. -/
  line : '\n' ∈ (fatalText error).toList → '\n' ∈ directory.toList
  machine : ∀ format, format ≠ .text → (outcome format).output = "" ∧
    (outcome format).errors = (outcome .text).errors ++ ("ERROR:" ++ error.message ++ "\n")
  codes : ∀ format, (outcome format).exitCode = 1

theorem passed_iff_codes {summary : Summary} {code : Format → Nat}
    (hcode : ∀ format, code format = summary.exitCode) (passed : Bool) :
    passed = summary.passed ↔ (passed = true ↔ ∀ format, code format = 0) := by
  have hzero : (∀ format, code format = 0) ↔ summary.passed = true := by
    rw [← summary.exitCode_zero_iff]
    exact ⟨fun h => (hcode .text).symm.trans (h .text), fun h format => (hcode format).trans h⟩
  rw [hzero]
  exact Bool.eq_iff_iff

theorem fatalText_line {directory : String} {error : ScanError}
    (h : error = .directoryNotFound directory ∨ error = .noGrammarFiles directory)
    (hline : '\n' ∈ (fatalText error).toList) : '\n' ∈ directory.toList := by
  rcases h with rfl | rfl
  · have hword : '\n' ∉ "Grammar directory not found: ".toList := by decide
    change '\n' ∈ ("Grammar directory not found: " ++ directory).toList at hline
    rw [String.toList_append, List.mem_append] at hline
    exact hline.resolve_left hword
  · have hnone : '\n' ∉ "No .json grammar files found!".toList := by decide
    exact (hnone hline).elim

section Run

variable {s : Survey} {filter : LogFilter} {warnings : String} {outcome : Format → Outcome}

theorem summary_shown {summary : Summary} (ho : s.outcome = .ok summary)
    (hrun : ∀ format, outcome format =
      { scan format s filter with errors := warnings ++ (scan format s filter).errors }) :
    SummaryShown s.directory (ScanEvent.written s.events).toUTF8 summary outcome := by
  have hcodes (format : Format) : (outcome format).exitCode = summary.exitCode := by
    rw [hrun, scan_ok ho]
  have hjson : (outcome .json).output = Json.print (.ofSummary s.directory summary) ++ "\n" := by
    rw [hrun, scan_ok ho]
    exact String.empty_append
  have hyaml : (outcome .yaml).output = Yaml.print (.ofSummary s.directory summary) := by
    rw [hrun, scan_ok ho]
    exact String.empty_append
  refine ⟨?_, hjson, hyaml, hcodes, ?_, ?_, ?_⟩
  · rw [hrun, scan_ok ho]
    exact String.toByteArray_append
  · intro passed
    rw [hjson, states_iff (json_states s.directory summary), passed_iff_codes hcodes]
  · intro passed
    rw [hyaml, states_iff (yaml_states s.directory summary), passed_iff_codes hcodes]
  · intro format
    rw [hrun, hrun, scan_ok ho, scan_ok ho]

theorem failure_shown {error : ScanError} (ho : s.outcome = .error error)
    (hrun : ∀ format, outcome format =
      { scan format s filter with errors := warnings ++ (scan format s filter).errors }) :
    FailureShown s.directory (ScanEvent.written s.events).toUTF8 error outcome := by
  have hkind := Survey.outcome_error ho
  refine ⟨hkind, ?_, fatalText_line hkind, ?_, ?_⟩
  · rw [hrun, scan_failed ho]
    exact String.toByteArray_append
  · intro format hformat
    rw [hrun, hrun, scan_failed ho, scan_failed ho]
    cases format with
    | text => exact (hformat rfl).elim
    | json | yaml => exact ⟨rfl, (String.append_assoc).symm⟩
  · intro format
    rw [hrun, scan_failed ho]
    cases format <;> rfl

end Run

/-- All formats show one scan of the directory. If it gives a summary, text mode shows what was
streamed and the conclusion, the other two print the report on the same summary, and the verdict in
them tells whether the codes are 0. If it fails, text mode shows what was streamed and one line, the
other two nothing but an error, and the codes are 1. The log specification changes none of that. -/
theorem formats_show_one_scan {look : String → Survey} {directory : String} (hempty : directory ≠ "")
    (hdash : directory.toList.head? ≠ some '-') (hsame : (look directory).directory = directory)
    (specification : Option String) :
    let outcome (format : Format) := run look (scanLine directory format) specification
    (match (Scan.survey (look directory)).runWith .unlimited with
      | (.ok summary, after) => SummaryShown directory after.sink.taken summary outcome
      | (.error error, after) => FailureShown directory after.sink.taken error outcome) ∧
    ∀ (other : Option String) (format : Format),
      let unlike := run look (scanLine directory format) other
      unlike.output = (outcome format).output ∧ unlike.exitCode = (outcome format).exitCode := by
  intro outcome
  have hrun (format : Format) : outcome format = _ :=
    run_line look hempty hdash format specification
  constructor
  · rw [Scan.run_unlimited (Scan.performs_survey _)]
    cases ho : (look directory).outcome with
    | ok summary =>
      have hshown := summary_shown ho hrun
      rwa [hsame] at hshown
    | error error =>
      have hshown := failure_shown ho hrun
      rwa [hsame] at hshown
  · intro other format
    rw [run_line _ hempty hdash, hrun]
    exact scan_unfiltered _ format _ _

theorem mixed_scanned : ∃ summary after,
    (Scan.survey (Survey.ofVolume mixed "/audit")).runWith .unlimited = (.ok summary, after) := by
  obtain ⟨bytes, hlinked⟩ := mixed_linked
  obtain ⟨place, entries, hd, hentries, -⟩ := hlinked.entry
  have hmem := (Volume.mem_contents mixed_proper mixed_listed hd).mpr ⟨hlinked, mixed_fits⟩
  obtain ⟨statuses, summary, after, hrun, -⟩ :=
    accounts_of_scan mixed_proper mixed_listed hd ⟨entries, hentries⟩ (List.ne_nil_of_mem hmem)
  exact ⟨summary, after, hrun⟩

/-- A directory with a violation, a link to it and bytes that are no text is scanned to the end. -/
theorem mixed_formats_shown : "/audit" ≠ "" ∧ "/audit".toList.head? ≠ some '-' ∧
    (Survey.ofVolume mixed "/audit").directory = "/audit" ∧ ∃ summary after,
      (Scan.survey (Survey.ofVolume mixed "/audit")).runWith .unlimited = (.ok summary, after) ∧
      SummaryShown "/audit" after.sink.taken summary fun format =>
        run (Survey.ofVolume mixed) (scanLine "/audit" format) (some "debug") := by
  have hempty : "/audit" ≠ "" := by decide
  have hdash : "/audit".toList.head? ≠ some '-' := by decide
  have hsame : (Survey.ofVolume mixed "/audit").directory = "/audit" := Survey.ofVolume_directory
  obtain ⟨summary, after, hrun⟩ := mixed_scanned
  have hshown := (formats_show_one_scan hempty hdash hsame (some "debug")).1
  rw [hrun] at hshown
  exact ⟨hempty, hdash, hsame, summary, after, hrun, hshown⟩

end Command

end CaptureAudit
