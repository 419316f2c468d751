import CaptureAudit.Proofs.Analysis.Keys
import CaptureAudit.Proofs.Files.Grammars
import CaptureAudit.Proofs.Summary.Accumulation
import CaptureAudit.Scan

/-! # What is said of one file

A status line says what the summary counts and lists of the same result. The log names the file
and each annotation key of its document; what it says, and whether the file fails, is a matter of
the bytes alone. -/
namespace CaptureAudit

open Files (Volume)

inductive Status where
  | failed (name error : String)
  | flagged (name : String) (captures violations : Nat)
  | clean (name : String) (captures : Nat)

namespace Status

def line : Status → String
  | failed name error => "❌ " ++ name ++ ": " ++ error ++ "\n"
  | flagged name captures violations => "⚠️  " ++ name ++ ": " ++ toString captures ++
      " captures, " ++ toString violations ++ " violations\n"
  | clean name captures => "✅ " ++ name ++ ": " ++ toString captures ++
      " captures, no violations\n"

def name : Status → String
  | failed name _ => name
  | flagged name _ _ => name
  | clean name _ => name

def isFailed : Status → Bool
  | failed _ _ => true
  | _ => false

def captures : Status → Nat
  | failed _ _ => 0
  | flagged _ captures _ => captures
  | clean _ captures => captures

def violations : Status → Nat
  | flagged _ _ violations => violations
  | _ => 0

def failure? : Status → Option FailedFile
  | failed name error => some ⟨name, error⟩
  | _ => none

def warning? : Status → Option (String × Nat × Nat)
  | flagged name captures violations => some (name, captures, violations)
  | _ => none

def ofResult (name : String) (result : FileResult) : Status :=
  match result.error with
  | some error => failed name error
  | none =>
    if result.hasViolations then flagged name result.capturesFound result.violations.length
    else clean name result.capturesFound

/-- What a status says is what the summary counts and lists of the same result. -/
structure Tells (status : Status) (name : String) (result : FileResult) : Prop where
  line_eq : status.line = Report.fileStatus name result
  name_eq : status.name = name
  failed_iff : status.isFailed = result.isError
  captures_eq : status.captures = result.countedCaptures
  violations_eq : status.violations = result.countedViolations
  failure_eq : status.failure? = Summary.failure? (name, result)
  warning_eq : status.warning? = (Summary.flagged? (name, result)).map fun flagged =>
    (flagged.name, flagged.result.capturesFound, flagged.result.violations.length)

theorem tells_result (name : String) (result : FileResult) :
    (ofResult name result).Tells name result := by
  obtain ⟨found, numeric, special, violations, error⟩ := result
  cases error with
  | some error =>
    refine ⟨?_, rfl, rfl, rfl, rfl, rfl, rfl⟩
    simp [ofResult, line, Report.fileStatus, Report.lines, String.append_assoc]
  | none =>
    cases violations with
    | nil =>
      refine ⟨?_, rfl, rfl, rfl, rfl, rfl, rfl⟩
      simp [ofResult, line, Report.fileStatus, Report.lines, FileResult.hasViolations,
        String.append_assoc]
    | cons first rest =>
      refine ⟨?_, rfl, rfl, rfl, rfl, rfl, rfl⟩
      simp [ofResult, line, Report.fileStatus, Report.lines, FileResult.hasViolations,
        String.append_assoc]

end Status

def documentOf? (bytes : ByteArray) : Option Document :=
  (String.fromUTF8? bytes).bind fun text => (Json.read text).toOption

/-- What the log says of one file: that it is analysed, then what is found in its document. -/
def fileRecords (path : String) (bytes : ByteArray) : List LogRecord :=
  ⟨.debug, .analysis, "Analysing " ++ path⟩ ::
    ((documentOf? bytes).map (annotationRecords path)).getD []

theorem analyze_decoded (name path : String) (bytes : ByteArray) :
    (GrammarFile.mk name path (Volume.decoded bytes)).analyze.log = fileRecords path bytes ∧
    ((GrammarFile.mk name path (Volume.decoded bytes)).analyze.result.isError = true ↔
      documentOf? bytes = none) := by
  rw [GrammarFile.analyze, Volume.decoded, fileRecords, documentOf?]
  cases String.fromUTF8? bytes with
  | none => exact ⟨rfl, iff_of_true rfl rfl⟩
  | some text =>
    simp only [Analysis.ofText, Option.bind_some]
    cases Json.read text with
    | error fault => exact ⟨rfl, iff_of_true rfl rfl⟩
    | ok document =>
      refine ⟨?_, iff_of_false (by simp [Analysis.ofDocument, FileResult.isError])
        (by simp [Except.toOption])⟩
      simp only [log_ofDocument]
      rfl

end CaptureAudit
