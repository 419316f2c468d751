import CaptureAudit.Command.Run

/-! # Lines that ask for a scan

A directory and a format as detached values. The line is read as what it asks for, and the run is
the scan with the filter that the specification describes. -/
namespace CaptureAudit.Command

theorem form_of_value {argument : String} (h : argument.toList.head? ≠ some '-') :
    formOf argument = .value := by
  rw [formOf]
  split
  · rename_i hc
    simp [hc] at h
  · rename_i hc
    simp [hc] at h
  · rename_i hc
    simp [hc] at h
  · rfl

/-- A run looks at no directory but the one that its line asks for. -/
theorem run_wanted {survey other : String → Survey} {arguments : List String}
    (h : ∀ directory, wanted? arguments = some directory → survey directory = other directory)
    (specification : Option String) :
    run survey arguments specification = run other arguments specification := by
  have hanswer (filter : LogFilter) : answer survey filter (parseArguments arguments) =
      answer other filter (parseArguments arguments) := by
    cases hparse : parseArguments arguments with
    | error error => rfl
    | ok request =>
      cases request with
      | help => rfl
      | version => rfl
      | scan request =>
        have hsurvey := h request.directory (by rw [wanted?, hparse])
        rw [answer, answer, hsurvey]
  simp only [run, hanswer]

def scanLine (directory : String) (format : Format) : List String :=
  ["--grammar-dir", directory, "--format", format.name]

theorem parse_scanLine {directory : String} (hempty : directory ≠ "")
    (hdash : directory.toList.head? ≠ some '-') (format : Format) :
    parseArguments (scanLine directory format) = .ok (.scan ⟨directory, format⟩) := by
  have hform := form_of_value hdash
  have hformat : formOf format.name = .value := by cases format <;> rfl
  have hname : Format.ofName? format.name = some format := by cases format <;> rfl
  have hnonempty : format.name ≠ "" := by cases format <;> decide
  have hdirectory : formOf "--grammar-dir" = .long "grammar-dir" none := rfl
  have hsetting : formOf "--format" = .long "format" none := rfl
  have hknown : Known.ofName? "grammar-dir" = some (.setting .directory) := rfl
  have hknown' : Known.ofName? "format" = some (.setting .format) := rfl
  simp only [parseArguments, scanLine, Reading.read, hdirectory, hsetting, hknown, hknown', hform,
    hformat, Reading.start, Reading.settle, Reading.await, Reading.hold]
  simp [Reading.meet, Reading.assign, Reading.finish, Reading.settle, hempty, hname, hnonempty,
    Except.bind, bind, pure, Except.pure]

theorem run_line (survey : String → Survey) {directory : String} (hempty : directory ≠ "")
    (hdash : directory.toList.head? ≠ some '-') (format : Format)
    (specification : Option String) :
    run survey (scanLine directory format) specification =
      let outcome := scan format (survey directory) (logFilter specification).1
      { outcome with errors := (logFilter specification).2 ++ outcome.errors } := by
  simp only [run, parse_scanLine hempty hdash, answer]

theorem run_scanLine (survey : String → Survey) {directory : String} (hempty : directory ≠ "")
    (hdash : directory.toList.head? ≠ some '-') (format : Format)
    (specification : Option String) :
    (run survey (scanLine directory format) specification).exitCode =
      (scan format (survey directory) (logFilter specification).1).exitCode := by
  rw [run_line survey hempty hdash]

end CaptureAudit.Command
