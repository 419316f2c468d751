import CaptureAudit.Command.LogFilter
import CaptureAudit.Command.Messages
import CaptureAudit.Json.Printer
import CaptureAudit.Scan
import CaptureAudit.Yaml.Printer

/-! # One run of the command

Everything that a run prints, and its exit code, as a function of the arguments, the log
specification and the directory that is scanned. All three formats make the same scan; only
the text format shows its progress lines.
-/
namespace CaptureAudit.Command

structure Outcome where
  exitCode : Nat
  output : String
  errors : String
  deriving DecidableEq, Repr

def finalReport (format : Format) (directory : String) (summary : Summary) : String :=
  match format with
  | .text => Report.conclusion summary
  | .json => Json.print (.ofSummary directory summary) ++ "\n"
  | .yaml => Yaml.print (.ofSummary directory summary)

def failureNote (error : ScanError) : String :=
  match error with
  | .noGrammarFiles _ => "❌ No .json grammar files found!\n"
  | _ => "❌ " ++ error.message ++ "\n"

def streamed (format : Format) (progress : Progress) : String :=
  match format with
  | .text => textOfCut progress.sink.taken
  | _ => ""

def startRecord (directory : String) : LogRecord :=
  ⟨.info, .command, "Scanning grammars in " ++ directory⟩

def scan (format : Format) (survey : Survey) (filter : LogFilter) : Outcome :=
  let (result, progress) := (Scan.survey survey).runWith .unlimited
  let records := startRecord survey.directory :: progress.log
  let logged := String.join ((records.filter filter.shows).map logLine)
  let stream := streamed format progress
  match result with
  | .ok summary =>
    ⟨summary.exitCode, stream ++ finalReport format survey.directory summary, logged⟩
  | .error error =>
    match format with
    | .text => ⟨1, stream ++ failureNote error, logged⟩
    | _ => ⟨1, stream, logged ++ Report.lines ["ERROR:" ++ error.message]⟩

def logFilter (specification : Option String) : LogFilter × String :=
  match specification with
  | none => (.errorsOnly, "")
  | some specification =>
    let (filter, errors) := LogFilter.parse specification
    (filter, Report.lines (errors.map SpecificationError.message))

def answer (survey : String → Survey) (filter : LogFilter) :
    Except UsageError Request → Outcome
  | .error error => ⟨2, "", Report.lines error.lines⟩
  | .ok .help => ⟨0, Report.lines helpText, ""⟩
  | .ok .version => ⟨0, Report.lines versionText, ""⟩
  | .ok (.scan arguments) => scan arguments.format (survey arguments.directory) filter

/-- The directory that a line of arguments asks to scan. -/
def wanted? (arguments : List String) : Option String :=
  match parseArguments arguments with
  | .ok (.scan request) => some request.directory
  | _ => none

def run (survey : String → Survey) (arguments : List String) (specification : Option String) :
    Outcome :=
  let (filter, warnings) := logFilter specification
  let outcome := answer survey filter (parseArguments arguments)
  { outcome with errors := warnings ++ outcome.errors }

end CaptureAudit.Command
