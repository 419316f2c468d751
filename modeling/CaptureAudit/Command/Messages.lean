import CaptureAudit.Command.Arguments
import CaptureAudit.Text.Plain

/-! # Texts of the command line

The texts that answer a flag or a faulty line. Each one consists of whole lines. What is quoted
from the line is shown as plain text.
-/
namespace CaptureAudit.Command

def possibleValues : String :=
  "[possible values: " ++ ", ".intercalate (Format.all.map Format.name) ++ "]"

def helpText : List String :=
  [ "CLI interface for tmcaps",
    "",
    "Usage: tmcaps [OPTIONS]",
    "",
    "Options:",
    "      --grammar-dir <GRAMMAR_DIR>  Directory holding the grammar .json files [default: " ++
      defaultDirectory ++ "]",
    "      --format <FORMAT>            Output format [default: text] " ++ possibleValues,
    "  -h, --help                       Print help",
    "  -V, --version                    Print version" ]

def versionText : List String := ["tmcaps 0.1.0"]

def usageLine (used : List Known) : String :=
  if used.isEmpty then "Usage: tmcaps [OPTIONS]"
  else "Usage: tmcaps " ++ " ".intercalate (used.map Known.display)

def anySetting : String :=
  "<" ++ "|".intercalate ([Setting.directory, .format].map fun setting =>
    (Known.setting setting).display) ++ ">"

def valuesLine : Setting → List String
  | .directory => []
  | .format => ["  " ++ possibleValues]

namespace UsageError

def explain : UsageError → List String
  | missingValue setting =>
    ("error: a value is required for '" ++ (Known.setting setting).display ++
      "' but none was supplied") :: valuesLine setting
  | invalidFormat value =>
    [ "error: invalid value '" ++ Text.plain value ++ "' for '" ++
        (Known.setting .format).display ++ "'" ] ++
      valuesLine .format ++
      match suggest? value (Format.all.map Format.name) with
      | some similar => ["", "  tip: a similar value exists: '" ++ similar ++ "'"]
      | none => []
  | repeated setting =>
    [ "error: the argument '" ++ (Known.setting setting).display ++
        "' cannot be used multiple times",
      "",
      usageLine [] ]
  | unexpected argument similar used =>
    ["error: unexpected argument '" ++ Text.plain argument ++ "' found", ""] ++
      (match similar with
      | some known => ["  tip: a similar argument exists: '--" ++ known.name ++ "'", ""]
      | none => []) ++
      [usageLine used]
  | unexpectedValue value flag afterSettings =>
    [ "error: unexpected value '" ++ Text.plain value ++ "' for '" ++ (Known.flag flag).display ++
        "' found; no more were expected",
      "",
      usageLine [.flag flag] ++ (if afterSettings then " " ++ anySetting else "") ]

def lines (error : UsageError) : List String :=
  error.explain ++ ["", "For more information, try '--help'."]

end UsageError

end CaptureAudit.Command
