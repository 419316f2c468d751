import CaptureAudit.Proofs.Files.Contents
import CaptureAudit.Proofs.Scan.Status
import CaptureAudit.Proofs.Scan.Surveys
import CaptureAudit.Proofs.Scan.Trace

/-! # Three accounts of one scan

A scan is told by what it streams, by what it logs and by the summary it gives. The three are made
apart from each other, and they agree: on which files there are, in which order, and on what was
found in them. -/
namespace CaptureAudit

open Files (Volume Fits DotsThenEmpty extendPath listedPath?)

structure TotalsTold (summary : Summary) (statuses : List Status) : Prop where
  files : summary.filesAnalyzed = statuses.length
  failures : summary.failedFiles = statuses.filterMap Status.failure?
  warnings : (summary.filesWithViolations.map fun flagged =>
      (flagged.name, flagged.result.capturesFound, flagged.result.violations.length)) =
    statuses.filterMap Status.warning?
  captures : summary.totalCaptures = (statuses.map Status.captures).sum
  violations : summary.totalViolations = (statuses.map Status.violations).sum

/-- The grammars of a directory with their bytes, what the scan streams of each of them, the
summary it gives and what it leaves behind. -/
structure ScanAccounts (volume : Volume) (directory : String)
    (grammars : List (String × ByteArray)) (statuses : List Status) (summary : Summary)
    (after : Progress) : Prop where
  /-- Exactly the grammars within reach. -/
  complete : ∀ name bytes, (name, bytes) ∈ grammars ↔
    volume.HoldsGrammar directory name bytes ∧ Fits directory name
  ordered : grammars.Pairwise fun a b => textBytes a.1 < textBytes b.1
  listed : (volume.grammarFiles directory).map Prod.fst = grammars.map Prod.fst
  streamed : after.sink.taken = (Report.header (shownDirectory volume directory) ++
    ("📋 Found " ++ toString grammars.length ++ " grammar files\n\n") ++
    String.join (statuses.map Status.line)).toUTF8
  /-- One status line per grammar, in their order. -/
  named : statuses.map Status.name = grammars.map Prod.fst
  failed_iff : List.Forall₂ (fun status grammar =>
    status.isFailed = true ↔ documentOf? grammar.2 = none) statuses grammars
  totals : TotalsTold summary statuses
  logged : ∃ listed, listedPath? directory = some listed ∧
    after.log = (grammars.flatMap fun grammar =>
        fileRecords (extendPath listed grammar.1) grammar.2) ++
      [⟨.debug, .scan, "Analysed " ++ toString summary.filesAnalyzed ++ " files, " ++
        toString summary.totalViolations ++ " violations"⟩]

def metFile (listed : String) (grammar : String × ByteArray) : GrammarFile :=
  ⟨grammar.1, extendPath listed grammar.1, Volume.decoded grammar.2⟩

section

variable {volume : Volume} {directory listed : String} {place : Files.Route}

theorem grammarFiles_names (hv : volume.ProperNames) (hl : listedPath? directory = some listed) :
    (volume.grammarFiles directory).map Prod.fst = (volume.contents listed).map Prod.fst := by
  rw [Volume.contents_names, Volume.grammarFiles_eq hv, hl]
  dsimp only
  rw [List.map_map]
  exact List.map_id _

theorem survey_files (hv : volume.ProperNames) (hl : listedPath? directory = some listed)
    (hd : volume.resolve directory = .ok place) :
    ((volume.grammarFiles directory).map fun file => GrammarFile.ofPath volume file.1 file.2) =
      (volume.contents listed).map (metFile listed) := by
  have hmet : ∀ grammar ∈ volume.contents listed,
      GrammarFile.ofPath volume grammar.1 (extendPath listed grammar.1) =
        metFile listed grammar := by
    intro grammar h
    rw [GrammarFile.ofPath, Volume.contents_read hv hl hd h]
    rfl
  rw [← List.map_congr_left hmet, Volume.grammarFiles_eq hv, hl, Volume.contents]
  dsimp only
  rw [List.map_map, List.map_map]
  rfl

end

namespace Summary

def named (file : GrammarFile) : String × FileResult := (file.name, file.analyze.result)

theorem ofFiles_eq_recordAll (summary : Summary) (files : List GrammarFile) :
    summary.ofFiles files = summary.recordAll (files.map named) := by
  rw [ofFiles, recordAll, List.foldl_map]
  rfl

end Summary

namespace GrammarFile

def status (file : GrammarFile) : Status := .ofResult file.name file.analyze.result

theorem status_tells (file : GrammarFile) :
    file.status.Tells file.name file.analyze.result := Status.tells_result _ _

end GrammarFile

theorem totals_told (files : List GrammarFile) :
    TotalsTold (Summary.empty.ofFiles files) (files.map GrammarFile.status) := by
  rw [Summary.ofFiles_eq_recordAll]
  constructor
  · rw [Summary.filesAnalyzed_recordAll]
    simp [Summary.empty]
  · rw [Summary.failedFiles_recordAll, List.filterMap_map, List.filterMap_map]
    exact List.filterMap_congr fun file _ => file.status_tells.failure_eq.symm
  · rw [Summary.filesWithViolations_recordAll, List.filterMap_map, List.filterMap_map,
      List.map_append, List.map_filterMap]
    exact List.filterMap_congr fun file _ => file.status_tells.warning_eq.symm
  · rw [Summary.totalCaptures_recordAll, List.map_map, List.map_map, Summary.empty, Nat.zero_add]
    congr 1
    exact List.map_congr_left fun file _ => file.status_tells.captures_eq.symm
  · rw [Summary.totalViolations_recordAll, List.map_map, List.map_map, Summary.empty, Nat.zero_add]
    congr 1
    exact List.map_congr_left fun file _ => file.status_tells.violations_eq.symm

section

variable {volume : Volume} {directory listed : String} {place : Files.Route}

theorem count_lines (count : Nat) : Report.fileCount count =
    "📋 Found " ++ toString count ++ " grammar files\n\n" := by
  simp [Report.fileCount, Report.lines, String.append_assoc]

theorem met_log (listed : String) (grammars : List (String × ByteArray)) :
    (grammars.map (metFile listed)).flatMap (·.analyze.log) =
      grammars.flatMap fun grammar => fileRecords (extendPath listed grammar.1) grammar.2 := by
  rw [List.flatMap_map]
  exact List.flatMap_congr fun grammar _ => (analyze_decoded _ _ grammar.2).1

theorem met_failed_iff (listed : String) (grammars : List (String × ByteArray)) :
    List.Forall₂ (fun status grammar => status.isFailed = true ↔ documentOf? grammar.2 = none)
      ((grammars.map (metFile listed)).map GrammarFile.status) grammars := by
  rw [List.map_map, List.forall₂_map_left_iff, List.forall₂_same]
  intro grammar _
  rw [Function.comp_apply, (GrammarFile.status_tells _).failed_iff]
  exact (analyze_decoded _ _ grammar.2).2

theorem accounts_of_scan (hv : volume.ProperNames) (hl : listedPath? directory = some listed)
    (hd : volume.resolve directory = .ok place) (hplace : volume.IsDirectory place)
    (hsome : volume.contents listed ≠ []) : ∃ statuses summary after,
      (Scan.survey (Survey.ofVolume volume directory)).runWith .unlimited = (.ok summary, after) ∧
      ScanAccounts volume directory (volume.contents listed) statuses summary after := by
  obtain ⟨entries, hentries⟩ := hplace
  have hkind : volume.kind? directory = some .directory := by
    simp [Volume.kind?, Volume.node?, hd, hentries, Files.Node.kind]
  have hs := Survey.ofVolume_found hkind
  rw [survey_files hv hl hd] at hs
  generalize Survey.ofVolume volume directory = s at hs
  have hfiles : s.files = (volume.contents listed).map (metFile listed) := by rw [hs]
  have hc : s.canonical = some (shownDirectory volume directory) := by rw [hs]
  have hf : s.files.isEmpty = false := by
    rw [hfiles]
    simpa using hsome
  have houtcome : s.outcome = .ok (Summary.empty.ofFiles s.files) := by
    rw [Survey.outcome, hc]
    simp only [hf]
    rfl
  have hrun := Scan.run_unlimited (Scan.performs_survey s)
  rw [houtcome, Survey.written_events hc hf, Survey.logged_events hc hf] at hrun
  refine ⟨s.files.map GrammarFile.status, _, _, hrun, ?_⟩
  constructor
  · exact fun name bytes => Volume.mem_contents hv hl hd
  · exact Volume.contents_increasing volume listed
  · exact grammarFiles_names hv hl
  · have hlines : s.files.map GrammarFile.statusLine =
        (s.files.map GrammarFile.status).map Status.line := by
      rw [List.map_map]
      exact List.map_congr_left fun file _ => file.status_tells.line_eq.symm
    rw [Survey.textThrough, count_lines, hlines, hfiles, List.length_map]
  · rw [hfiles, List.map_map, List.map_map]
    exact List.map_congr_left fun grammar _ => (GrammarFile.status_tells _).name_eq
  · rw [hfiles]
    exact met_failed_iff listed _
  · exact totals_told s.files
  · refine ⟨listed, hl, ?_⟩
    have hlog : s.files.flatMap (·.analyze.log) = _ := hfiles ▸ met_log listed _
    rw [hlog]
    rfl

/-- A scan that ends well has listed something. -/
theorem listed_of_success {s : Survey} {summary : Summary} {after : Progress}
    (h : (Scan.survey s).runWith .unlimited = (.ok summary, after)) : s.files ≠ [] := by
  rw [Scan.run_unlimited (Scan.performs_survey s)] at h
  have houtcome : s.outcome = .ok summary := congrArg Prod.fst h
  intro hf
  rw [Survey.outcome, hf] at houtcome
  cases hc : s.canonical with
  | none => simp [hc] at houtcome
  | some canonical => simp [hc] at houtcome

end

theorem files_of_tree {volume : Volume} {directory : String}
    (h : (Survey.ofVolume volume directory).files ≠ []) : volume.grammarFiles directory ≠ [] := by
  intro hnone
  cases hkind : volume.kind? directory with
  | none => exact h (by rw [Survey.ofVolume_missing hkind])
  | some kind => exact h (by rw [Survey.ofVolume_found hkind, hnone, List.map_nil])

/-- The stream, the log and the summary of a scan agree, and the scan succeeds, exactly if the
directory has a grammar within reach: it is not spelled `./`, once or more often, with nothing or a
slash after it, and the listed path of some grammar is not too long. -/
theorem scan_conserves {volume : Volume} (hv : volume.ProperNames) (directory : String) :
    (¬DotsThenEmpty directory ∧
      ∃ name bytes, volume.HoldsGrammar directory name bytes ∧ Fits directory name) ↔
    ∃ grammars statuses summary after,
      (Scan.survey (Survey.ofVolume volume directory)).runWith .unlimited = (.ok summary, after) ∧
      ScanAccounts volume directory grammars statuses summary after := by
  constructor
  · rintro ⟨hdots, name, bytes, hholds, hfits⟩
    obtain ⟨place, entries, hd, hentries, _⟩ := hholds.entry
    cases hl : listedPath? directory with
    | none => exact (hdots ((Files.listed_none_iff directory).mp hl)).elim
    | some listed =>
      have hmem := (Volume.mem_contents hv hl hd).mpr ⟨hholds, hfits⟩
      exact ⟨_, accounts_of_scan hv hl hd ⟨entries, hentries⟩ (List.ne_nil_of_mem hmem)⟩
  · rintro ⟨grammars, statuses, summary, after, hrun, haccounts⟩
    obtain ⟨listed, hl, _⟩ := haccounts.logged
    refine ⟨fun hdots => ?_, ?_⟩
    · rw [(Files.listed_none_iff directory).mpr hdots] at hl
      cases hl
    · have hfiles := files_of_tree (listed_of_success hrun)
      have hgrammars : grammars ≠ [] := by
        rintro rfl
        have hnames := haccounts.listed
        rw [List.map_nil, List.map_eq_nil_iff] at hnames
        exact hfiles hnames
      obtain ⟨grammar, rest, rfl⟩ := List.exists_cons_of_ne_nil hgrammars
      exact ⟨_, _, (haccounts.complete _ _).mp List.mem_cons_self⟩

/-- A file with an invalid key, a link to it, and bytes that are no text. -/
def mixed : Volume where
  entries :=
    [ ("audit", .directory
      [ ("c.json", .link "/audit/b.json"),
        ("b.json", .file "\x7b\"captures\":\x7b\"x\":0\x7d\x7d".toUTF8),
        ("a.json", .file ⟨#[0xFF]⟩) ]) ]
  home := ["audit"]

theorem mixed_proper : mixed.ProperNames := Volume.proper_of_check (by decide)

theorem mixed_leads : mixed.Leads "/audit" ["audit"] := by
  have hnames : Files.pathNames "/audit" = ["audit"] := by decide
  exact Volume.leads_absolute (by decide) (by decide) (by decide) hnames (by decide) ⟨_, rfl⟩

theorem mixed_holds {directory : String} (h : mixed.Leads directory ["audit"]) :
    ∃ bytes, mixed.HoldsGrammar directory "b.json" bytes :=
  ⟨_, h.holds rfl (by decide) (by decide) rfl⟩

theorem mixed_linked : ∃ bytes, mixed.HoldsGrammar "/audit" "c.json" bytes := by
  have hnames : Files.pathNames "/audit/b.json" = ["audit", "b.json"] := by decide
  exact ⟨_, mixed_leads.holds_link rfl (by decide) (by decide) rfl (by decide) hnames (by decide) rfl⟩

theorem mixed_listed : listedPath? "/audit" = some "/audit" := by decide

theorem mixed_fits : Fits "/audit" "c.json" := (Files.fits_iff mixed_listed).mpr (by decide)

theorem mixed_scan_conserves : mixed.ProperNames ∧ ∃ grammars statuses summary after,
    (Scan.survey (Survey.ofVolume mixed "/audit")).runWith .unlimited = (.ok summary, after) ∧
    ScanAccounts mixed "/audit" grammars statuses summary after ∧
    ∃ bytes, ("c.json", bytes) ∈ grammars := by
  have hdots : ¬DotsThenEmpty "/audit" := Files.not_dots_of_listed mixed_listed
  obtain ⟨bytes, hlinked⟩ := mixed_linked
  obtain ⟨grammars, statuses, summary, after, hrun, haccounts⟩ :=
    (scan_conserves mixed_proper "/audit").mp ⟨hdots, _, bytes, hlinked, mixed_fits⟩
  have hmem := (haccounts.complete "c.json" bytes).mpr ⟨hlinked, mixed_fits⟩
  exact ⟨mixed_proper, grammars, statuses, summary, after, hrun, haccounts, bytes, hmem⟩

theorem dot_slash_not_scanned : ¬((∃ name bytes, mixed.HoldsGrammar "./" name bytes) →
    ∃ summary after,
      (Scan.survey (Survey.ofVolume mixed "./")).runWith .unlimited = (.ok summary, after)) := by
  intro h
  have hhere : mixed.Leads "./" ["audit"] := Volume.leads_dot_slash ⟨_, rfl⟩
  obtain ⟨bytes, hholds⟩ := mixed_holds hhere
  obtain ⟨summary, after, hrun⟩ := h ⟨_, bytes, hholds⟩
  have hnone : listedPath? "./" = none := by decide
  refine files_of_tree (listed_of_success hrun) ?_
  rw [Volume.grammarFiles_eq mixed_proper, hnone]

end CaptureAudit
