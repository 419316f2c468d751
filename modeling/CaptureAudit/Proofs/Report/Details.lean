import CaptureAudit.Proofs.Text.Quotations
import CaptureAudit.Report.Text
import Std.Data.String.ToNat

/-! # The report on a failure is faithful

A report is read line by line. Counts, key inventories and the block of each file are told apart by
how their lines begin, so free text on a line is not taken for the layout. What a report on a
failure shows is therefore known from its text, if names, locations and keys stay on their lines. -/
namespace CaptureAudit

open Text (Legible Closes separated_unique count_chars quotedList quotedList_unique
  quotedList_one_line)

namespace Report

section Lines

variable {texts others : List String}

def ended (line : String) : List Char := line.toList ++ ['\n']

def OneLine (line : String) : Prop := '\n' ∉ line.toList

theorem lines_chars (texts : List String) : (lines texts).toList = texts.flatMap ended := by
  rw [lines, String.toList_join, List.flatMap_map]
  exact List.flatMap_congr fun line _ => String.toList_append

theorem lines_append (texts more : List String) :
    lines (texts ++ more) = lines texts ++ lines more := by
  rw [← String.toList_inj, String.toList_append]
  simp only [lines_chars, List.flatMap_append]

theorem join_lines {α : Type} {text : α → String} {parts : α → List String}
    (h : ∀ a, text a = lines (parts a)) (entries : List α) :
    String.join (entries.map text) = lines (entries.flatMap parts) := by
  rw [← String.toList_inj, String.toList_join, lines_chars, List.flatMap_map, List.flatMap_assoc]
  refine List.flatMap_congr fun a _ => ?_
  rw [h, lines_chars]

theorem ended_legible : Legible ended OneLine fun _ => True where
  read hx hy _ _ h := by
    simp only [ended, List.append_assoc, List.cons_append, List.nil_append] at h
    obtain ⟨hline, hrest⟩ := separated_unique hx hy h
    exact ⟨String.toList_inj.mp hline, hrest⟩
  next _ _ := trivial

theorem ended_closed : Closes ended (fun _ => True) [] where
  may_follow := trivial
  no_entry line x h := by simp [ended] at h

theorem lines_unique (hx : ∀ line ∈ texts, OneLine line) (hy : ∀ line ∈ others, OneLine line)
    (h : lines texts = lines others) : texts = others := by
  have hchars := congrArg String.toList h
  rw [lines_chars, lines_chars, ← List.append_nil (texts.flatMap ended),
    ← List.append_nil (others.flatMap ended)] at hchars
  exact (ended_legible.unique hx hy ended_closed ended_closed hchars).1

end Lines

section Blocks

def violationLines (found : Violation) : List String :=
  [ "  Location: " ++ found.location,
    "  Invalid key: '" ++ found.invalidKey ++ "'",
    "  All keys in object: " ++ quotedList found.allKeys ]

def shown (flagged : FlaggedFile) : String × List Violation :=
  (flagged.name, flagged.result.violations)

def fileLines (file : String × List Violation) : List String :=
  "" :: ("📄 " ++ file.1 ++ ":") :: file.2.flatMap violationLines

theorem flaggedFile_lines (flagged : FlaggedFile) :
    flaggedFile flagged = lines (fileLines (shown flagged)) := by
  have hblock : String.join (flagged.result.violations.map violation) =
      lines (flagged.result.violations.flatMap violationLines) := join_lines (fun _ => rfl) _
  rw [flaggedFile, hblock, ← lines_append]
  rfl

theorem violations_legible : Legible violationLines (fun _ => True) fun _ => True where
  read {a b x y} _ _ _ _ h := by
    simp only [violationLines, List.cons_append, List.nil_append, List.cons.injEq,
      String.append_right_inj, String.append_left_inj] at h
    obtain ⟨hlocation, hkey, hkeys, hrest⟩ := h
    have hall : a.allKeys = b.allKeys :=
      (quotedList_unique (congrArg (String.toList · ++ []) hkeys)).1
    refine ⟨?_, hrest⟩
    cases a
    cases b
    simp only [Violation.mk.injEq]
    exact ⟨hlocation, hkey, hall⟩
  next _ _ := trivial

/-- A blank line is not about a violation. -/
theorem violations_closed (rest : List String) :
    Closes violationLines (fun _ => True) ("" :: rest) where
  may_follow := trivial
  no_entry found x h := by
    have hline := (List.cons.inj h).1
    simp at hline

def BlankFirst (rest : List String) : Prop := ∃ more, rest = "" :: more

theorem files_legible : Legible fileLines (fun _ => True) BlankFirst where
  read {a b x y} _ _ hx hy h := by
    obtain ⟨x, rfl⟩ := hx
    obtain ⟨y, rfl⟩ := hy
    simp only [fileLines, List.cons_append, List.cons.injEq, true_and, String.append_right_inj,
      String.append_left_inj] at h
    obtain ⟨hname, hblock⟩ := h
    obtain ⟨hviolations, hrest⟩ := violations_legible.unique (fun _ _ => trivial)
      (fun _ _ => trivial) (violations_closed x) (violations_closed y) hblock
    exact ⟨Prod.ext hname hviolations, hrest⟩
  next file x := ⟨_, rfl⟩

def verdictLines : List String :=
  [ "",
    "🚨 CONCLUSION: Non-numeric capture keys found!",
    "   Capture keys cannot all be converted to group indices." ]

theorem files_closed : Closes fileLines BlankFirst verdictLines where
  may_follow := ⟨_, rfl⟩
  no_entry file x h := by
    have hsecond := (List.cons.inj (List.cons.inj h).2).1
    have hstart := congrArg (fun line : String => line.toList.head?) hsecond
    simp at hstart

end Blocks

section Optional

variable {first second : Option String} {r₁ r₂ : List String}

def Starts (c : Char) (line : String) : Prop := line.toList.head? = some c

/-- The next line, if there is one, starts in another way. -/
def NotNext (c : Char) (rest : List String) : Prop := ∀ line ∈ rest.head?, ¬Starts c line

theorem notNext_blank (c : Char) (rest : List String) : NotNext c ("" :: rest) := by
  intro line hline
  obtain rfl : "" = line := Option.some.inj hline
  simp [Starts]

/-- A line that may be left out is known by its start. -/
theorem optional_unique {c : Char} (hfirst : ∀ line ∈ first, Starts c line)
    (hsecond : ∀ line ∈ second, Starts c line) (h₁ : NotNext c r₁) (h₂ : NotNext c r₂)
    (h : first.toList ++ r₁ = second.toList ++ r₂) : first = second ∧ r₁ = r₂ := by
  cases first with
  | none =>
    cases second with
    | none => exact ⟨rfl, h⟩
    | some line =>
      rw [Option.toList_none, Option.toList_some, List.nil_append] at h
      exact absurd (hsecond line rfl) (h₁ line (congrArg List.head? h))
  | some line =>
    cases second with
    | none =>
      rw [Option.toList_none, Option.toList_some, List.nil_append] at h
      exact absurd (hfirst line rfl) (h₂ line (congrArg List.head? h.symm))
    | some other =>
      obtain ⟨hline, hrest⟩ := List.cons.inj h
      exact ⟨congrArg some hline, hrest⟩

def failedLine? (failed : List FailedFile) : Option String :=
  if failed.isEmpty then none else some ("Files that failed to parse: " ++ toString failed.length)

def inventoryLine? (mark : String) (keys : List String) : Option String :=
  if keys.isEmpty then none else some (mark ++ quotedList keys)

theorem failedLine_starts (failed : List FailedFile) :
    ∀ line ∈ failedLine? failed, Starts 'F' line := by
  intro line hline
  rw [failedLine?] at hline
  split at hline
  · cases hline
  · obtain rfl := Option.some.inj hline
    simp [Starts]

theorem inventory_starts {c : Char} {mark : String} (hmark : Starts c mark) (keys : List String) :
    ∀ line ∈ inventoryLine? mark keys, Starts c line := by
  intro line hline
  rw [inventoryLine?] at hline
  split at hline
  · cases hline
  · obtain rfl := Option.some.inj hline
    rw [Starts, String.toList_append, List.head?_append, hmark]
    rfl

theorem failedLine_eq_iff {failed others : List FailedFile} :
    failedLine? failed = failedLine? others ↔ failed.length = others.length := by
  cases failed with
  | nil =>
    cases others with
    | nil => simp
    | cons other others => simp [failedLine?]
  | cons first failed =>
    cases others with
    | nil => simp [failedLine?]
    | cons other others =>
      constructor
      · intro h
        have hcount := (String.append_right_inj _).mp (Option.some.inj h)
        exact Nat.repr_inj.mp hcount
      · intro h
        rw [failedLine?, failedLine?, h, List.isEmpty_cons, List.isEmpty_cons]

theorem inventory_unique {mark : String} {keys others : List String}
    (h : inventoryLine? mark keys = inventoryLine? mark others) : keys = others := by
  cases keys with
  | nil =>
    cases others with
    | nil => rfl
    | cons other others => cases h
  | cons key keys =>
    cases others with
    | nil => cases h
    | cons other others =>
      have hlist := (String.append_right_inj mark).mp (Option.some.inj h)
      exact (quotedList_unique (congrArg (String.toList · ++ []) hlist)).1

end Optional

section Failure

variable {summary other : Summary}

def countLines (summary : Summary) : List String :=
  [ "",
    rule '=' 60,
    "📊 VERIFICATION SUMMARY",
    rule '=' 60,
    "Grammar files analyzed: " ++ toString summary.filesAnalyzed,
    "Total capture objects found: " ++ toString summary.totalCaptures,
    "Total violations found: " ++ toString summary.totalViolations,
    "Files with violations: " ++ toString summary.filesWithViolations.length ]

def numericLine? (summary : Summary) : Option String :=
  inventoryLine? "✅ Numeric keys found: " (summary.numericKeys.toList.map NumericKey.text)

def specialLine? (summary : Summary) : Option String :=
  inventoryLine? "ℹ️  Special keys found: " summary.specialKeys.toList

def detailLines (summary : Summary) : List String :=
  "" :: "❌ VIOLATIONS DETAILS:" :: rule '-' 40 ::
    ((summary.filesWithViolations.map shown).flatMap fileLines ++ verdictLines)

def failureLines (summary : Summary) : List String :=
  countLines summary ++ ((failedLine? summary.failedFiles).toList ++
    "" :: ((numericLine? summary).toList ++ ((specialLine? summary).toList ++ detailLines summary)))

def upperLines (summary : Summary) : List String :=
  countLines summary ++ ((failedLine? summary.failedFiles).toList ++
    "" :: ((numericLine? summary).toList ++ (specialLine? summary).toList))

theorem keyInventories_lines (summary : Summary) : keyInventories summary =
    lines ((numericLine? summary).toList ++ (specialLine? summary).toList) := by
  have hnumeric : (if summary.numericKeys.isEmpty then []
      else ["✅ Numeric keys found: " ++
        quotedList (summary.numericKeys.toList.map NumericKey.text)]) =
        (numericLine? summary).toList := by
    rw [numericLine?, inventoryLine?, List.isEmpty_map, Std.ExtTreeSet.isEmpty_toList]
    split <;> rfl
  have hspecial : (if summary.specialKeys.isEmpty then []
      else ["ℹ️  Special keys found: " ++ quotedList summary.specialKeys.toList]) =
        (specialLine? summary).toList := by
    rw [specialLine?, inventoryLine?, Std.ExtTreeSet.isEmpty_toList]
    split <;> rfl
  rw [keyInventories, hnumeric, hspecial]

theorem upper_lines (summary : Summary) :
    totals summary ++ keyInventories summary = lines (upperLines summary) := by
  have hfailed : (if summary.failedFiles.isEmpty then []
      else ["Files that failed to parse: " ++ toString summary.failedFiles.length]) =
        (failedLine? summary.failedFiles).toList := by
    rw [failedLine?]
    split <;> rfl
  rw [totals, keyInventories_lines, hfailed]
  simp only [← lines_append, upperLines, countLines, List.append_assoc, List.cons_append,
    List.nil_append]

theorem failureLines_eq (summary : Summary) :
    failureLines summary = upperLines summary ++ detailLines summary := by
  simp only [failureLines, upperLines, List.append_assoc, List.cons_append]

theorem conclusion_lines (h : summary.passed = false) :
    conclusion summary = lines (failureLines summary) := by
  have hfiles : String.join (summary.filesWithViolations.map flaggedFile) =
      lines ((summary.filesWithViolations.map shown).flatMap fileLines) := by
    rw [join_lines flaggedFile_lines, List.flatMap_map]
  rw [conclusion, h, if_neg Bool.false_ne_true, upper_lines, violationDetails, hfiles,
    failureLines_eq]
  simp only [← lines_append, detailLines, verdictLines, List.cons_append, List.nil_append]

/-- What a report on a failure shows of a summary. -/
structure ShownAlike (summary other : Summary) : Prop where
  filesAnalyzed : summary.filesAnalyzed = other.filesAnalyzed
  totalCaptures : summary.totalCaptures = other.totalCaptures
  totalViolations : summary.totalViolations = other.totalViolations
  failed : summary.failedFiles.length = other.failedFiles.length
  numericKeys : summary.numericKeys = other.numericKeys
  specialKeys : summary.specialKeys = other.specialKeys
  files : summary.filesWithViolations.map shown = other.filesWithViolations.map shown

theorem numeric_starts (summary : Summary) : ∀ line ∈ numericLine? summary, Starts '✅' line :=
  inventory_starts (by simp [Starts]) _

theorem special_starts (summary : Summary) : ∀ line ∈ specialLine? summary, Starts 'ℹ' line :=
  inventory_starts (by simp [Starts]) _

/-- The numeric keys stand above the special keys, and these above a blank line. -/
theorem special_not_numeric (summary : Summary) :
    NotNext '✅' ((specialLine? summary).toList ++ detailLines summary) := by
  have hspecial := special_starts summary
  cases hline : specialLine? summary with
  | none => exact notNext_blank _ _
  | some special =>
    intro line hnext hnumeric
    obtain rfl : special = line := Option.some.inj hnext
    rw [Starts, hspecial special hline] at hnumeric
    cases hnumeric

theorem details_unique (h : detailLines summary = detailLines other) :
    summary.filesWithViolations.map shown = other.filesWithViolations.map shown := by
  simp only [detailLines, List.cons.injEq, true_and] at h
  exact (files_legible.unique (fun _ _ => trivial) (fun _ _ => trivial) files_closed files_closed
    h).1

/-- The lines are read from the top, one part after another. -/
theorem failureLines_unique (h : failureLines summary = failureLines other) :
    ShownAlike summary other := by
  simp only [failureLines, countLines, List.cons_append, List.nil_append, List.cons.injEq,
    String.append_right_inj, true_and] at h
  obtain ⟨hfiles, hcaptures, hviolations, -, hrest⟩ := h
  obtain ⟨hfailed, hrest⟩ := optional_unique (failedLine_starts _) (failedLine_starts _)
    (notNext_blank _ _) (notNext_blank _ _) hrest
  obtain ⟨hnumeric, hrest⟩ := optional_unique (numeric_starts summary) (numeric_starts other)
    (special_not_numeric summary) (special_not_numeric other) (List.cons.inj hrest).2
  obtain ⟨hspecial, hdetails⟩ := optional_unique (special_starts summary) (special_starts other)
    (notNext_blank _ _) (notNext_blank _ _) hrest
  have htexts : summary.numericKeys.toList.map NumericKey.text =
      other.numericKeys.toList.map NumericKey.text := inventory_unique hnumeric
  have hkeys : summary.numericKeys.toList = other.numericKeys.toList :=
    List.map_injective_iff.mpr (fun _ _ => NumericKey.text_injective) htexts
  constructor
  · exact Nat.repr_inj.mp hfiles
  · exact Nat.repr_inj.mp hcaptures
  · exact Nat.repr_inj.mp hviolations
  · exact failedLine_eq_iff.mp hfailed
  · exact Std.ExtTreeSet.toList_inj.mp hkeys
  · exact Std.ExtTreeSet.toList_inj.mp (inventory_unique hspecial)
  · exact details_unique hdetails

theorem ShownAlike.failureLines_eq (h : ShownAlike summary other) :
    failureLines summary = failureLines other := by
  have hlength : summary.filesWithViolations.length = other.filesWithViolations.length := by
    simpa using congrArg List.length h.files
  have hfailed := failedLine_eq_iff.mpr h.failed
  rw [failureLines, failureLines, countLines, countLines, numericLine?, numericLine?, specialLine?,
    specialLine?, detailLines, detailLines, h.filesAnalyzed, h.totalCaptures, h.totalViolations,
    hlength, hfailed, h.numericKeys, h.specialKeys, h.files]

end Failure

section OneLine

/-- Neither the name of a listed file, nor a location or an invalid key in it, goes over the end of
its line. Other texts are quoted, or do not come up. -/
structure StaysOnLines (summary : Summary) : Prop where
  names : ∀ flagged ∈ summary.filesWithViolations, OneLine flagged.name
  locations : ∀ flagged ∈ summary.filesWithViolations, ∀ found ∈ flagged.result.violations,
    OneLine found.location
  keys : ∀ flagged ∈ summary.filesWithViolations, ∀ found ∈ flagged.result.violations,
    OneLine found.invalidKey

theorem oneLine_append {line more : String} (h : OneLine line) (h' : OneLine more) :
    OneLine (line ++ more) := by
  rw [OneLine, String.toList_append, List.mem_append, not_or]
  exact ⟨h, h'⟩

theorem oneLine_count (n : Nat) : OneLine (toString n) := count_chars (by decide) n

theorem countLines_stay (summary : Summary) : ∀ line ∈ countLines summary, OneLine line := by
  have hrule : OneLine (rule '=' 60) := by
    rw [OneLine, rule, String.toList_ofList, List.mem_replicate]
    simp
  simp only [countLines, List.forall_mem_cons]
  refine ⟨by simp [OneLine], hrule, by simp [OneLine], hrule, ?_, ?_, ?_, ?_, ?_⟩
  · exact oneLine_append (by simp [OneLine]) (oneLine_count _)
  · exact oneLine_append (by simp [OneLine]) (oneLine_count _)
  · exact oneLine_append (by simp [OneLine]) (oneLine_count _)
  · exact oneLine_append (by simp [OneLine]) (oneLine_count _)
  · exact fun line h => nomatch h

theorem failedLine_stays (failed : List FailedFile) :
    ∀ line ∈ (failedLine? failed).toList, OneLine line := by
  intro line hline
  rw [Option.mem_toList, failedLine?] at hline
  split at hline
  · cases hline
  · obtain rfl := Option.some.inj hline
    exact oneLine_append (by simp [OneLine]) (oneLine_count _)

theorem inventory_stays {mark : String} (hmark : OneLine mark) (keys : List String) :
    ∀ line ∈ (inventoryLine? mark keys).toList, OneLine line := by
  intro line hline
  rw [Option.mem_toList, inventoryLine?] at hline
  split at hline
  · cases hline
  · obtain rfl := Option.some.inj hline
    exact oneLine_append hmark (quotedList_one_line keys)

theorem fileLines_stay {flagged : FlaggedFile} (hname : OneLine flagged.name)
    (hfound : ∀ found ∈ flagged.result.violations,
      OneLine found.location ∧ OneLine found.invalidKey) :
    ∀ line ∈ fileLines (shown flagged), OneLine line := by
  simp only [fileLines, shown, List.forall_mem_cons, List.forall_mem_flatMap]
  refine ⟨by simp [OneLine], ?_, ?_⟩
  · exact oneLine_append (oneLine_append (by simp [OneLine]) hname) (by simp [OneLine])
  · intro found hf
    obtain ⟨hlocation, hkey⟩ := hfound found hf
    simp only [violationLines, List.forall_mem_cons]
    refine ⟨?_, ?_, ?_, fun line h => nomatch h⟩
    · exact oneLine_append (by simp [OneLine]) hlocation
    · exact oneLine_append (oneLine_append (by simp [OneLine]) hkey) (by simp [OneLine])
    · exact oneLine_append (by simp [OneLine]) (quotedList_one_line _)

theorem detailLines_stay {summary : Summary} (h : StaysOnLines summary) :
    ∀ line ∈ detailLines summary, OneLine line := by
  have hrule : OneLine (rule '-' 40) := by
    rw [OneLine, rule, String.toList_ofList, List.mem_replicate]
    simp
  have hverdict : ∀ line ∈ verdictLines, OneLine line := by
    simp [verdictLines, OneLine]
  simp only [detailLines, List.forall_mem_cons, List.forall_mem_append, List.forall_mem_flatMap,
    List.forall_mem_map]
  refine ⟨by simp [OneLine], by simp [OneLine], hrule, ?_, hverdict⟩
  intro flagged hf
  exact fileLines_stay (h.names flagged hf) fun found hm =>
    ⟨h.locations flagged hf found hm, h.keys flagged hf found hm⟩

theorem upperLines_stay (summary : Summary) : ∀ line ∈ upperLines summary, OneLine line := by
  simp only [upperLines, List.forall_mem_append, List.forall_mem_cons]
  refine ⟨countLines_stay summary, failedLine_stays _, by simp [OneLine], ?_, ?_⟩
  · exact inventory_stays (by simp [OneLine]) _
  · exact inventory_stays (by simp [OneLine]) _

theorem failureLines_stay {summary : Summary} (h : StaysOnLines summary) :
    ∀ line ∈ failureLines summary, OneLine line := by
  rw [failureLines_eq, List.forall_mem_append]
  exact ⟨upperLines_stay summary, detailLines_stay h⟩

end OneLine

/-- Reports on two failures are the same text exactly if they show the same: counts, keys, and every
listed file with its violations one by one. -/
theorem failure_report_faithful {summary other : Summary} (hsummary : summary.passed = false)
    (hother : other.passed = false) (h : StaysOnLines summary) (h' : StaysOnLines other) :
    conclusion summary = conclusion other ↔ ShownAlike summary other := by
  rw [conclusion_lines hsummary, conclusion_lines hother]
  constructor
  · intro htext
    exact failureLines_unique
      (lines_unique (failureLines_stay h) (failureLines_stay h') htext)
  · intro hshown
    rw [hshown.failureLines_eq]

def violationAmong (keys : List String) : Summary :=
  ⟨1, 1, 1, ∅, ∅, [⟨"a.json", ⟨1, ∅, ∅, [⟨"root.captures", "x", keys⟩], none⟩⟩], []⟩

/-- A key that holds what is printed between two keys is not taken for two. -/
theorem lookalike_keys_reported :
    let one := violationAmong ["x\", \"1"]
    let two := violationAmong ["x", "1"]
    (one.passed = false ∧ two.passed = false) ∧ (StaysOnLines one ∧ StaysOnLines two) ∧
      conclusion one ≠ conclusion two := by
  intro one two
  have hstays (keys : List String) : StaysOnLines (violationAmong keys) := by
    constructor <;> simp [violationAmong, OneLine]
  have hiff := @failure_report_faithful one two rfl rfl (hstays _) (hstays _)
  refine ⟨⟨rfl, rfl⟩, ⟨hstays _, hstays _⟩, ?_⟩
  intro htext
  have hfiles := (hiff.mp htext).files
  simp [one, two, violationAmong, shown] at hfiles

end Report

end CaptureAudit
