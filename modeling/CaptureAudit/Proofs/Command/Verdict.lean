import CaptureAudit.Proofs.Capture.Findings
import CaptureAudit.Proofs.Command.Lines
import CaptureAudit.Proofs.Files.Grammars
import CaptureAudit.Proofs.Scan.Surveys
import CaptureAudit.Proofs.Scan.Trace
import CaptureAudit.Proofs.Text.ByteOrder

/-! # The exit code of a scan

From the line of arguments to the verdict: the code is 0 if and only if the directory has a
grammar and all keys in its grammars are allowed. Neither the format nor the log has a part in
it, and neither has a grammar that cannot be read. -/
namespace CaptureAudit.Command

open Files (Volume Fits DotsThenEmpty)

theorem scan_code (format : Format) (survey : Survey) (filter : LogFilter) :
    ((scan format survey filter).exitCode = 0 ↔ survey.canonical ≠ none ∧ survey.files ≠ [] ∧
      ∀ file ∈ survey.files, file.Clean) ∧
    ((scan format survey filter).exitCode = 0 ∨ (scan format survey filter).exitCode = 1) := by
  have hroom : (⟨.unlimited, []⟩ : Progress).sink.room = none := rfl
  by_cases hscan : survey.canonical ≠ none ∧ survey.files ≠ []
  · obtain ⟨hc, hf⟩ := hscan
    obtain ⟨canonical, hc'⟩ := Option.ne_none_iff_exists'.mp hc
    obtain ⟨after, hrun, _⟩ := Scan.yields_survey hc' hf _ hroom
    have hcode : (scan format survey filter).exitCode =
        if (Summary.empty.ofFiles survey.files).totalViolations = 0 then 0 else 1 := by
      simp only [scan, Scan.runWith, hrun, Summary.exitCode, Summary.passed, beq_iff_eq]
    have hclean : (Summary.empty.ofFiles survey.files).totalViolations = 0 ↔
        ∀ file ∈ survey.files, file.Clean := by
      rw [Summary.no_violations_ofFiles]
      simp [Summary.empty]
    rw [hcode]
    by_cases hp : (Summary.empty.ofFiles survey.files).totalViolations = 0
    · rw [if_pos hp]
      exact ⟨iff_of_true rfl ⟨hc, hf, hclean.mp hp⟩, Or.inl rfl⟩
    · rw [if_neg hp]
      exact ⟨iff_of_false (by decide) fun h => hp (hclean.mpr h.2.2), Or.inr rfl⟩
  · have hfails : survey.canonical = none ∨ survey.files = [] := by
      by_cases hc : survey.canonical = none
      · exact Or.inl hc
      · exact Or.inr (Classical.not_not.mp fun hf => hscan ⟨hc, hf⟩)
    obtain ⟨error, after, hrun⟩ := Scan.survey_fails hfails _ hroom
    have hcode : (scan format survey filter).exitCode = 1 := by
      simp only [scan, Scan.runWith, hrun]
      cases format <;> rfl
    rw [hcode]
    exact ⟨iff_of_false (by decide) fun h => hscan ⟨h.1, h.2.1⟩, Or.inr rfl⟩

/-- Bytes that are no text, or a text that is no document, comply: only a document has keys. -/
def Compliant (bytes : ByteArray) : Prop :=
  ∀ text document, String.fromUTF8? bytes = some text → Json.read text = .ok document →
    document.KeysAllowed

theorem decoded_ok_iff (bytes : ByteArray) (text : String) :
    Volume.decoded bytes = .ok text ↔ String.fromUTF8? bytes = some text := by
  rw [Volume.decoded]
  cases String.fromUTF8? bytes <;> simp

/-- What a survey of a directory that exists tells about its grammars. -/
theorem survey_clean_iff {volume : Volume} (hv : volume.ProperNames) {directory : String}
    {kind : Files.FileKind} (hkind : volume.kind? directory = some kind) :
    ((Survey.ofVolume volume directory).files ≠ [] ∧
      ∀ file ∈ (Survey.ofVolume volume directory).files, file.Clean) ↔
    ¬DotsThenEmpty directory ∧
      (∃ name bytes, volume.HoldsGrammar directory name bytes ∧ Fits directory name) ∧
      ∀ name bytes, volume.HoldsGrammar directory name bytes → Fits directory name →
        Compliant bytes := by
  obtain ⟨place, hd⟩ := Volume.kind_some hkind
  have hcontents := Volume.contents_iff hv hd
  rw [Survey.ofVolume_found hkind]
  dsimp only
  have hfiles : ((volume.grammarFiles directory).map fun file =>
        GrammarFile.ofPath volume file.1 file.2) ≠ [] ↔
      ∃ content, ∃ grammar ∈ volume.grammarFiles directory,
        volume.readText grammar.2 = content := by
    rw [ne_eq, List.map_eq_nil_iff]
    cases volume.grammarFiles directory with
    | nil => simp
    | cons grammar rest =>
      exact iff_of_true (by simp) ⟨_, grammar, List.mem_cons_self, rfl⟩
  have hall : (∀ file ∈ (volume.grammarFiles directory).map fun file =>
        GrammarFile.ofPath volume file.1 file.2, file.Clean) ↔
      ∀ content, (∃ grammar ∈ volume.grammarFiles directory,
        volume.readText grammar.2 = content) →
        ∀ text document, content = .ok text → Json.read text = .ok document →
          document.KeysAllowed := by
    constructor
    · rintro h content ⟨grammar, hg, rfl⟩
      exact h _ (List.mem_map.mpr ⟨grammar, hg, rfl⟩)
    · intro h file hf
      obtain ⟨grammar, hg, rfl⟩ := List.mem_map.mp hf
      exact h _ ⟨grammar, hg, rfl⟩
  rw [hfiles, hall]
  simp only [hcontents]
  constructor
  · rintro ⟨⟨_, hdots, name, bytes, h, hfit, _⟩, hclean⟩
    refine ⟨hdots, ⟨name, bytes, h, hfit⟩, ?_⟩
    intro name bytes h hfit text document ht
    exact hclean _ ⟨hdots, name, bytes, h, hfit, rfl⟩ text document
      ((decoded_ok_iff bytes text).mpr ht)
  · rintro ⟨hdots, ⟨name, bytes, h, hfit⟩, hclean⟩
    refine ⟨⟨_, hdots, name, bytes, h, hfit, rfl⟩, ?_⟩
    rintro _ ⟨_, name, bytes, h, hfit, rfl⟩ text document ht
    exact hclean name bytes h hfit text document ((decoded_ok_iff bytes text).mp ht)

/-- The exit code of a scan, whatever the format: 0 if there is a grammar within reach and all
keys of all grammars within reach are allowed, and 1 in every other case. A grammar of the
directory is out of reach if its path is too long, and all of them are if the directory is spelled
`./`, once or more often, with nothing or a slash after it. -/
theorem verdict_exact {volume : Volume} (hv : volume.ProperNames) {directory : String}
    (hempty : directory ≠ "") (hdash : directory.toList.head? ≠ some '-') (format : Format)
    (specification : Option String) :
    let code := (run (Survey.ofVolume volume) (scanLine directory format) specification).exitCode
    (code = 0 ↔ ¬DotsThenEmpty directory ∧
      (∃ name bytes, volume.HoldsGrammar directory name bytes ∧ Fits directory name) ∧
      ∀ name bytes, volume.HoldsGrammar directory name bytes → Fits directory name →
        Compliant bytes) ∧ (code = 0 ∨ code = 1) := by
  intro code
  have hcode : code = (scan format (Survey.ofVolume volume directory)
      (logFilter specification).1).exitCode :=
    run_scanLine _ hempty hdash format specification
  obtain ⟨hzero, hone⟩ := scan_code format (Survey.ofVolume volume directory)
    (logFilter specification).1
  rw [← hcode] at hzero hone
  refine ⟨hzero.trans ?_, hone⟩
  cases hkind : volume.kind? directory with
  | none =>
    have hnone : (Survey.ofVolume volume directory).canonical = none := by
      rw [Survey.ofVolume_missing hkind]
    refine iff_of_false (fun h => h.1 hnone) ?_
    rintro ⟨_, ⟨name, bytes, ⟨⟨place, entries, hplace, hentries, _⟩, _, _⟩, _⟩, _⟩
    simp [Volume.kind?, Volume.node?, hplace, hentries] at hkind
  | some kind =>
    have hsome : (Survey.ofVolume volume directory).canonical ≠ none := by
      rw [Survey.ofVolume_found hkind]
      simp
    rw [← survey_clean_iff hv hkind]
    exact and_iff_right hsome

def lone (bytes : ByteArray) : Volume :=
  ⟨[("audit", .directory [("a.json", .file bytes)])], ["audit"]⟩

variable {bytes : ByteArray} {directory : String}

theorem lone_proper : (lone bytes).ProperNames := by
  refine Volume.proper_of_check ?_
  simp [lone, Files.properEntries, Files.Node.proper]

theorem lone_held_iff (h : (lone bytes).Leads directory ["audit"]) {name : String}
    {held : ByteArray} : (lone bytes).HoldsGrammar directory name held ↔
      name = "a.json" ∧ held = bytes := by
  have hlone : (lone bytes).HoldsGrammar directory "a.json" bytes :=
    h.holds rfl (by decide) (by decide) rfl
  constructor
  · rintro ⟨⟨place, entries, hplace, hentries, hm⟩, _, target, htarget, hfile⟩
    rw [h.resolve] at hplace
    cases hplace
    cases hentries
    have hname : name = "a.json" := List.mem_singleton.mp hm
    obtain ⟨-, -, there, hthere, hbytes⟩ := hlone
    rw [hname, hthere] at htarget
    cases htarget
    rw [hbytes] at hfile
    cases hfile
    exact ⟨hname, rfl⟩
  · rintro ⟨rfl, rfl⟩
    exact hlone

def allowedText : String := "\x7b\"captures\":\x7b\"1\":\x7b\x7d\x7d\x7d"

theorem allowed_document :
    Json.read allowedText = .ok (.object [("captures", .object [("1", .object [])])]) := rfl

theorem allowed_keys :
    (Document.object [("captures", .object [("1", .object [])])]).KeysAllowed := by
  have hfound : Document.findings true (.object [("captures", .object [("1", .object [])])]) =
      [([.member "captures"], [("1", .object [])])] := by rfl
  intro capture hc key hk
  rw [Document.capture_objects_eq_findings, hfound, List.map_singleton, List.mem_singleton] at hc
  subst hc
  rw [Finding.located, List.map_singleton, List.mem_singleton] at hk
  subst hk
  exact Or.inl ⟨by decide, by simp⟩

theorem allowed_compliant : Compliant allowedText.toUTF8 := by
  intro text document ht hr
  rw [fromUTF8_toUTF8] at ht
  cases ht
  rw [allowed_document] at hr
  cases hr
  exact allowed_keys

theorem dot_slash_refused :
    ¬((run (Survey.ofVolume (lone allowedText.toUTF8)) (scanLine "./" .json) none).exitCode = 0 ↔
      (∃ name bytes, (lone allowedText.toUTF8).HoldsGrammar "./" name bytes) ∧
        ∀ name bytes, (lone allowedText.toUTF8).HoldsGrammar "./" name bytes →
          Compliant bytes) := by
  intro h
  have hhere : (lone allowedText.toUTF8).Leads "./" ["audit"] := Volume.leads_dot_slash ⟨_, rfl⟩
  have hzero := h.mpr ⟨⟨_, _, (lone_held_iff hhere).mpr ⟨rfl, rfl⟩⟩, by
    intro name bytes hheld
    rw [((lone_held_iff hhere).mp hheld).2]
    exact allowed_compliant⟩
  rw [run_scanLine _ (by decide) (by decide)] at hzero
  have hlisted : ¬Files.listedPath? "./" ≠ none := by decide
  have hkind : (lone allowedText.toUTF8).kind? "./" = some .directory := by
    simp only [Volume.kind?, Volume.node?, hhere.resolve]
    rfl
  have hclean := (survey_clean_iff lone_proper hkind).mp ((scan_code _ _ _).1.mp hzero).2
  exact hlisted fun hnone => hclean.1 ((Files.listed_none_iff "./").mp hnone)

theorem lone_verdict_exact : (lone allowedText.toUTF8).ProperNames ∧ "/audit" ≠ "" ∧
    "/audit".toList.head? ≠ some '-' ∧
    (run (Survey.ofVolume (lone allowedText.toUTF8)) (scanLine "/audit" .yaml) none).exitCode = 0 := by
  have hempty : "/audit" ≠ "" := by decide
  have hdash : "/audit".toList.head? ≠ some '-' := by decide
  have hnames : Files.pathNames "/audit" = ["audit"] := by decide
  have hleads : (lone allowedText.toUTF8).Leads "/audit" ["audit"] :=
    Volume.leads_absolute (by decide) (by decide) (by decide) hnames (by decide) ⟨_, rfl⟩
  have hlisted : Files.listedPath? "/audit" = some "/audit" := by decide
  have hdots : ¬DotsThenEmpty "/audit" := Files.not_dots_of_listed hlisted
  have hfits : Fits "/audit" "a.json" := (Files.fits_iff hlisted).mpr (by decide)
  refine ⟨lone_proper, hempty, hdash, ?_⟩
  refine (verdict_exact lone_proper hempty hdash .yaml none).1.mpr ⟨hdots, ?_, ?_⟩
  · exact ⟨_, _, (lone_held_iff hleads).mpr ⟨rfl, rfl⟩, hfits⟩
  · intro name bytes hheld _
    rw [((lone_held_iff hleads).mp hheld).2]
    exact allowed_compliant

end CaptureAudit.Command
