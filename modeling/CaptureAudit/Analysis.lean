import CaptureAudit.Capture
import CaptureAudit.Json.Reader
import CaptureAudit.Key
import CaptureAudit.Log

/-! # Analysis of one grammar

Every key of every capture object is classified once. Group indices and annotations are
collected, any other key is a violation. A grammar that cannot be read is a result of its own
and holds nothing else.
-/
namespace CaptureAudit

structure Violation where
  location : String
  invalidKey : String
  allKeys : List String
  deriving DecidableEq, Repr

structure FileResult where
  capturesFound : Nat
  numericKeys : NumericKeys
  specialKeys : SpecialKeys
  violations : List Violation
  error : Option String

namespace FileResult

def failed (message : String) : FileResult := ⟨0, ∅, ∅, [], some message⟩

def isError (result : FileResult) : Bool := result.error.isSome

def hasViolations (result : FileResult) : Bool := !result.violations.isEmpty

end FileResult

def rootLabel : String := "root"

structure Occurrence where
  capture : CaptureObject
  key : String

namespace Occurrence

def numericKey? (occurrence : Occurrence) : Option NumericKey :=
  NumericKey.ofString? occurrence.key

def specialKey? (occurrence : Occurrence) : Option String :=
  if classifyKey occurrence.key = .special then some occurrence.key else none

def violation? (occurrence : Occurrence) : Option Violation :=
  if classifyKey occurrence.key = .invalid then
    some ⟨occurrence.capture.path, occurrence.key, occurrence.capture.keys⟩
  else none

end Occurrence

def CaptureObject.occurrences (capture : CaptureObject) : List Occurrence :=
  capture.keys.map (⟨capture, ·⟩)

def Document.occurrences (document : Document) : List Occurrence :=
  (document.captureObjects rootLabel).flatMap CaptureObject.occurrences

def specialKeyRecord (source key : String) : LogRecord :=
  ⟨.info, .analysis, "Special capture key '" ++ key ++ "' in " ++ source⟩

/-- A result together with the records logged on the way, in order. -/
structure Analysis where
  result : FileResult
  log : List LogRecord

namespace Analysis

def ofDocument (source : String) (document : Document) : Analysis where
  result :=
    { capturesFound := (document.captureObjects rootLabel).length
      numericKeys := Std.ExtTreeSet.ofList (document.occurrences.filterMap Occurrence.numericKey?)
      specialKeys := Std.ExtTreeSet.ofList (document.occurrences.filterMap Occurrence.specialKey?)
      violations := document.occurrences.filterMap Occurrence.violation?
      error := none }
  log := (document.occurrences.filterMap Occurrence.specialKey?).map (specialKeyRecord source)

def ofFailure (reason : String) : Analysis where
  result := .failed ("Failed to parse JSON: " ++ reason)
  log := []

def ofText (source text : String) : Analysis :=
  match Json.read text with
  | .ok document => ofDocument source document
  | .error fault => ofFailure (fault.message text)

end Analysis

end CaptureAudit
