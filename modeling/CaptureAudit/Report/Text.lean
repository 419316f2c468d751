import CaptureAudit.Summary
import CaptureAudit.Text.Quoted

/-! # The report for readers

Progress lines while the files are read, then totals, key inventories and one conclusion. Each
part is a text of whole lines.
-/
namespace CaptureAudit.Report

def lines (texts : List String) : String := String.join (texts.map (· ++ "\n"))

def rule (mark : Char) (width : Nat) : String := String.ofList (List.replicate width mark)

def header (directory : String) : String :=
  lines
    [ "🔍 Verifying capture key formats in TextMate grammars...",
      "📁 Scanning directory: " ++ directory,
      "" ]

def fileCount (count : Nat) : String :=
  lines ["📋 Found " ++ toString count ++ " grammar files", ""]

def fileStatus (name : String) (result : FileResult) : String :=
  match result.error with
  | some error => lines ["❌ " ++ name ++ ": " ++ error]
  | none =>
    let captures := name ++ ": " ++ toString result.capturesFound ++ " captures, "
    if result.hasViolations then
      lines ["⚠️  " ++ captures ++ toString result.violations.length ++ " violations"]
    else lines ["✅ " ++ captures ++ "no violations"]

def totals (summary : Summary) : String :=
  lines <|
    [ "",
      rule '=' 60,
      "📊 VERIFICATION SUMMARY",
      rule '=' 60,
      "Grammar files analyzed: " ++ toString summary.filesAnalyzed,
      "Total capture objects found: " ++ toString summary.totalCaptures,
      "Total violations found: " ++ toString summary.totalViolations,
      "Files with violations: " ++ toString summary.filesWithViolations.length ] ++
    (if summary.failedFiles.isEmpty then []
      else ["Files that failed to parse: " ++ toString summary.failedFiles.length]) ++
    [""]

def keyInventories (summary : Summary) : String :=
  lines <|
    (if summary.numericKeys.isEmpty then []
      else ["✅ Numeric keys found: " ++
        Text.quotedList (summary.numericKeys.toList.map NumericKey.text)]) ++
    (if summary.specialKeys.isEmpty then []
      else ["ℹ️  Special keys found: " ++ Text.quotedList summary.specialKeys.toList])

def violation (found : Violation) : String :=
  lines
    [ "  Location: " ++ found.location,
      "  Invalid key: '" ++ found.invalidKey ++ "'",
      "  All keys in object: " ++ Text.quotedList found.allKeys ]

def flaggedFile (flagged : FlaggedFile) : String :=
  lines ["", "📄 " ++ flagged.name ++ ":"] ++
    String.join (flagged.result.violations.map violation)

def violationDetails (summary : Summary) : String :=
  lines ["", "❌ VIOLATIONS DETAILS:", rule '-' 40] ++
    String.join (summary.filesWithViolations.map flaggedFile) ++
    lines
      [ "",
        "🚨 CONCLUSION: Non-numeric capture keys found!",
        "   Capture keys cannot all be converted to group indices." ]

def success (summary : Summary) : String :=
  lines <|
    [ "",
      "🎉 CONCLUSION: All capture keys are numeric or special metadata!",
      "   Every non-metadata capture key converts to a group index." ] ++
    match summary.numericRange with
    | some (least, greatest) =>
      ["   Numeric key range: " ++ least.normalized ++ " to " ++ greatest.normalized]
    | none => []

def conclusion (summary : Summary) : String :=
  totals summary ++ keyInventories summary ++
    if summary.passed then success summary else violationDetails summary

end CaptureAudit.Report
